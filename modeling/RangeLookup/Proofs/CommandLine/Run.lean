import RangeLookup.CommandLine.Session
import RangeLookup.Proofs.CommandLine.Parts
import RangeLookup.Proofs.Settings.Layered

/-!
# A run is all or nothing

What a run works with is found out step by step, and it is what the parts of its command line say
(`uses_iff`, `supplied_iff`). So the steps end without a listing where something keeps the run from
it, and with one where everything that it needs is there (`fails_or_uses`), and the two exclude each
other (`not_fails_of_uses`). What is printed and how the run ends follow from the end of the steps
alone (`runJob_of_error`, `runJob_of_ok`).
-/

namespace RangeLookup.CommandLine

variable {lib : Libraries} {job : Job} {parts : List Part} {s : Surroundings} {settings : Settings}
  {catalog : Catalog} {ceiling : Nat} {document : Bytes} {listing : String} {reason : Failure}

/-! ### What a run works with -/

theorem catalogOf_eq_ok_iff : catalogOf job settings = .ok catalog ↔
    if job.formats = [] then catalog = settings.catalog else catalog.formats = job.formats := by
  unfold catalogOf
  by_cases none : job.formats = []
  · simp [none, eq_comm]
  · simp [none, Catalog.ofList_eq_ok_iff]

theorem documentOf_eq_error_iff {reason : Error} : documentOf job s = .error reason ↔
    reason = .missingDocument ∧ ∃ name, job.input = some name ∧ s.files name = none := by
  unfold documentOf
  cases job.input with
  | none => simp
  | some name => cases files : s.files name <;> simp [files, eq_comm]

/-- A value spells one ceiling only. -/
theorem spellsCeiling_unique {value : String} {n m : Nat} (spells : SpellsCeiling value n)
    (again : SpellsCeiling value m) : n = m :=
  Option.some.inj ((spellsCeiling_iff.1 spells).symm.trans (spellsCeiling_iff.1 again))

namespace Job.Collects

variable (collects : job.Collects parts)

include collects

theorem formats_eq_nil_iff : valuesOf .format parts = [] ↔ job.formats = [] := by
  rw [← List.length_eq_zero_iff, ← List.length_eq_zero_iff, collects.formats.length_eq]

theorem spellEach_iff {formats : List Format} :
    Format.SpellEach (valuesOf .format parts) formats ↔ formats = job.formats := by
  constructor
  · exact fun spelled => spelled.unique collects.formats
  · rintro rfl
    exact collects.formats

theorem head?_config : (valuesOf .config parts).head? = job.config := by
  rw [collects.config]
  cases job.config <;> rfl

theorem ceiling_iff {limit : Nat} :
    (match (valuesOf .ceiling parts).head? with
      | none => ceiling = limit
      | some value => SpellsCeiling value ceiling) ↔ ceiling = job.ceiling.getD limit := by
  have spelled := collects.ceiling
  cases given : job.ceiling with
  | none =>
    rw [given] at spelled
    rw [List.forall₂_nil_right_iff.1 spelled]
    rfl
  | some n =>
    rw [given] at spelled
    obtain ⟨value, values, spells, later, values_eq⟩ := List.forall₂_cons_right_iff.1 spelled
    rw [values_eq]
    show SpellsCeiling value ceiling ↔ ceiling = n
    constructor
    · exact fun again => spellsCeiling_unique again spells
    · rintro rfl
      exact spells

theorem kindAsked_eq : kindAsked parts = kindOf job := by
  unfold kindAsked kindOf
  rw [collects.name]
  cases job.name <;> rfl

theorem supplied_iff : Supplied parts s document ↔ documentOf job s = .ok document := by
  have input := collects.input
  unfold documentOf
  cases named : job.input with
  | none =>
    rw [named] at input
    constructor
    · rintro (_ | ⟨file, found⟩)
      · rfl
      · cases input.symm.trans file
    · intro same
      cases same
      exact .input input
  | some name =>
    rw [named] at input
    dsimp only
    constructor
    · rintro (unnamed | ⟨file, found⟩)
      · cases input.symm.trans unnamed
      · cases input.symm.trans file
        rw [found]
    · intro read
      split at read
      · next content found =>
        cases read
        exact .file input found
      · cases read

end Job.Collects

/-! ### What is printed -/

theorem runJob_of_error (ended : (lib.perform job s).2 = .error reason) :
    (lib.runJob job s).status = 1 ∧ (lib.runJob job s).output = "" := by
  unfold Libraries.runJob
  generalize lib.perform job s = performed at ended
  obtain ⟨events, result⟩ := performed
  cases ended
  exact ⟨rfl, rfl⟩

theorem runJob_of_ok (ended : (lib.perform job s).2 = .ok listing) :
    (lib.runJob job s).status = 0 ∧ (lib.runJob job s).output = listing := by
  unfold Libraries.runJob
  generalize lib.perform job s = performed at ended
  obtain ⟨events, result⟩ := performed
  cases ended
  exact ⟨rfl, rfl⟩

/-! ### How a run ends -/

section Ends

variable (documented : lib.Documented) (collects : job.Collects parts)
  (merges : lib.settings.MergesLayersOf s.files job.config s.environment)

include documented collects merges

theorem settles_iff : lib.Settles parts s catalog ceiling ↔
    lib.settings.load s.files job.config s.environment = .ok ⟨catalog, ceiling⟩ := by
  unfold Libraries.Settles
  rw [collects.head?_config, Settings.Library.load_eq_ok_iff documented.settings merges]

theorem uses_iff : lib.Uses parts s catalog ceiling ↔
    ∃ settings, lib.settings.load s.files job.config s.environment = .ok settings ∧
      catalogOf job settings = .ok catalog ∧ ceiling = job.ceiling.getD settings.ceiling := by
  have chosen : ∀ settled, (if valuesOf .format parts = [] then catalog = settled
      else Format.SpellEach (valuesOf .format parts) catalog.formats) ↔
        if job.formats = [] then catalog = settled else catalog.formats = job.formats := by
    intro settled
    rw [collects.spellEach_iff]
    simp only [collects.formats_eq_nil_iff]
  constructor
  · rintro ⟨settled, limit, settles, catalog_eq, ceiling_eq⟩
    refine ⟨⟨settled, limit⟩, (settles_iff documented collects merges).1 settles, ?_,
      collects.ceiling_iff.1 ceiling_eq⟩
    exact catalogOf_eq_ok_iff.2 ((chosen settled).1 catalog_eq)
  · rintro ⟨settings, loaded, catalog_eq, ceiling_eq⟩
    refine ⟨settings.catalog, settings.ceiling, (settles_iff documented collects merges).2 loaded, ?_,
      collects.ceiling_iff.2 ceiling_eq⟩
    exact (chosen settings.catalog).2 (catalogOf_eq_ok_iff.1 catalog_eq)

theorem uses_unique {other : Catalog} {limit : Nat} (uses : lib.Uses parts s catalog ceiling)
    (again : lib.Uses parts s other limit) : catalog = other ∧ ceiling = limit := by
  obtain ⟨settings, loaded, chosen, rfl⟩ := (uses_iff documented collects merges).1 uses
  obtain ⟨settings', loaded', chosen', rfl⟩ := (uses_iff documented collects merges).1 again
  cases loaded.symm.trans loaded'
  cases chosen.symm.trans chosen'
  exact ⟨rfl, rfl⟩

theorem perform_of_unsettled (unsettled : ∀ catalog ceiling, ¬ lib.Settles parts s catalog ceiling)
    (formats : List Format) (limit : Option Nat) :
    ∃ reason, (lib.perform { job with formats, ceiling := limit } s).2 = .error reason := by
  cases loaded : lib.settings.load s.files job.config s.environment with
  | error reason => exact ⟨_, by rw [Libraries.perform, loaded]⟩
  | ok settings => exact absurd ((settles_iff documented collects merges).2 loaded) (unsettled _ _)

/-- Something keeps a run from giving a listing, or everything that the listing needs is there, and
the steps of the run come to that end. -/
theorem fails_or_uses :
    (lib.Fails parts s ∧ ∃ reason, (lib.perform job s).2 = .error reason) ∨
    ∃ catalog ceiling document listing, lib.Uses parts s catalog ceiling ∧
      Supplied parts s document ∧ compile document catalog ceiling (kindAsked parts) = .ok listing ∧
      (lib.perform job s).2 = .ok listing := by
  cases loaded : lib.settings.load s.files job.config s.environment with
  | error reason =>
    refine .inl ⟨.settings fun catalog ceiling settles => ?_, _, by rw [Libraries.perform, loaded]⟩
    cases loaded.symm.trans ((settles_iff documented collects merges).1 settles)
  | ok settings =>
    cases chosen : catalogOf job settings with
    | error reason =>
      refine .inl ⟨.catalog collects.formats ?_, .compile reason, by
        simp only [Libraries.perform, loaded, chosen]⟩
      unfold catalogOf at chosen
      split at chosen
      · cases chosen
      · next given => exact Catalog.ofList_eq_error chosen (by simpa using given)
    | ok catalog =>
      have uses := (uses_iff documented collects merges).2 ⟨settings, loaded, chosen, rfl⟩
      cases found : documentOf job s with
      | error reason =>
        obtain ⟨-, name, named, missing⟩ := documentOf_eq_error_iff.1 found
        have position : positions parts = [name] := by rw [collects.input, named]; rfl
        exact .inl ⟨.document position missing, .compile reason, by
          simp only [Libraries.perform, loaded, chosen, found]⟩
      | ok document =>
        have supplied := collects.supplied_iff.2 found
        have ended : (lib.perform job s).2 =
            (compile document catalog (job.ceiling.getD settings.ceiling)
              (kindAsked parts)).mapError .compile := by
          simp only [Libraries.perform, loaded, chosen, found, collects.kindAsked_eq]
          rfl
        cases compiled : compile document catalog _ (kindAsked parts) with
        | error reason =>
          rw [compiled] at ended
          exact .inl ⟨.compile uses supplied compiled, _, ended⟩
        | ok listing =>
          rw [compiled] at ended
          exact .inr ⟨catalog, _, document, listing, uses, supplied, compiled, ended⟩

/-- Nothing fails where everything is there. -/
theorem not_fails_of_uses (uses : lib.Uses parts s catalog ceiling)
    (supplied : Supplied parts s document)
    (compiled : compile document catalog ceiling (kindAsked parts) = .ok listing) :
    ¬ lib.Fails parts s := by
  rintro (unsettled | ⟨given, repeats⟩ | ⟨named, missing⟩ | ⟨uses', supplied', refused⟩)
  · obtain ⟨settled, limit, settles, -⟩ := uses
    exact unsettled settled limit settles
  · obtain ⟨settled, limit, -, chosen, -⟩ := uses
    split at chosen
    · next none =>
      rw [none] at given
      cases given
      exact repeats List.nodup_nil
    · obtain rfl := chosen.unique given
      exact repeats catalog.nodup
  · obtain unnamed | ⟨named', found⟩ := supplied
    · cases unnamed.symm.trans named
    · cases named.symm.trans named'
      cases missing.symm.trans found
  · obtain ⟨rfl, rfl⟩ := uses_unique documented collects merges uses uses'
    cases (collects.supplied_iff.1 supplied).symm.trans (collects.supplied_iff.1 supplied')
    cases compiled.symm.trans refused

theorem runJob_of_fails (fails : lib.Fails parts s) :
    (lib.runJob job s).status = 1 ∧ (lib.runJob job s).output = "" := by
  rcases fails_or_uses documented collects merges with
    ⟨-, reason, ended⟩ | ⟨_, _, _, _, uses, supplied, compiled, -⟩
  · exact runJob_of_error ended
  · exact absurd fails (not_fails_of_uses documented collects merges uses supplied compiled)

theorem runJob_of_not_fails (fine : ¬ lib.Fails parts s) : (lib.runJob job s).status = 0 ∧
    ∃ catalog ceiling document, lib.Uses parts s catalog ceiling ∧ Supplied parts s document ∧
      compile document catalog ceiling (kindAsked parts) = .ok (lib.runJob job s).output := by
  rcases fails_or_uses documented collects merges with
    ⟨fails, -⟩ | ⟨catalog, ceiling, document, listing, uses, supplied, compiled, ended⟩
  · exact absurd fails fine
  · obtain ⟨status, output⟩ := runJob_of_ok ended
    exact ⟨status, catalog, ceiling, document, uses, supplied, output ▸ compiled⟩

end Ends

/-- A command line that is accepted gives a listing or nothing at all. It falls into parts in one way.
Its run fails, with nothing printed, exactly where the settings do not load, a format is given twice,
the document is missing or compilation fails; otherwise it prints the listing of the document. Formats
and a ceiling of the command line come before those of the settings, each of which is found on its
own, in the environment, else in the file, else in what is built in. Settings that do not load are not
made good by formats and a ceiling of the command line. -/
theorem run_all_or_nothing {arguments : List String} {outcome : Outcome}
    (documented : lib.Documented) (accepted : lib.parse arguments = .compile job)
    (merges : lib.settings.MergesLayersOf s.files job.config s.environment)
    (ran : lib.run arguments s = outcome) :
    (∃ parts, Line arguments parts) ∧ ∀ parts, Line arguments parts →
      (lib.Fails parts s ↔ outcome.status = 1 ∧ outcome.output = "") ∧
      (¬ lib.Fails parts s → outcome.status = 0 ∧
        ∃ catalog ceiling document, lib.Uses parts s catalog ceiling ∧ Supplied parts s document ∧
          compile document catalog ceiling (kindAsked parts) = .ok outcome.output) ∧
      ((∀ catalog ceiling, ¬ lib.Settles parts s catalog ceiling) → ∀ formats ceiling,
        (lib.runJob { job with formats, ceiling } s).status = 1 ∧
          (lib.runJob { job with formats, ceiling } s).output = "") := by
  obtain ⟨parts, line, collects⟩ := documented.parse accepted
  refine ⟨⟨parts, line⟩, fun others again => ?_⟩
  obtain rfl := line.unique again
  have run_eq : lib.run arguments s = lib.runJob job s := by rw [Libraries.run, accepted]; rfl
  rw [run_eq] at ran
  subst ran
  refine ⟨⟨runJob_of_fails documented collects merges, fun ended => ?_⟩,
    runJob_of_not_fails documented collects merges, fun unsettled formats ceiling => ?_⟩
  · by_contra fine
    have success := (runJob_of_not_fails documented collects merges fine).1
    omega
  · obtain ⟨reason, ended⟩ := perform_of_unsettled documented collects merges unsettled formats ceiling
    exact runJob_of_error ended

/-! ### The libraries of the program -/

theorem documented_standard : standard.Documented where
  parse := collects_of_ofArguments
  settings := Settings.documented_layered

section Witness

open Settings

/-- A single variable sets one setting as a whole and leaves the other alone. -/
theorem setAsWhole_single (key other : Key) {value : Setting}
    (plain : ∀ source entries, value ≠ .table source entries) :
    SetAsWhole other.name [(key.name, value)] := by
  have path : Setting.pathOf key.name = [.child key.name] := by cases key <;> decide
  have touched := Setting.touching_cons (e := (key.name, value)) path [] other.name
  intro e last
  rw [touched] at last
  split at last
  · next here =>
    cases last
    exact ⟨here, plain⟩
  · cases last

theorem mergesLayersOf_single {s : Surroundings} (key : Key) (value : Setting)
    (sets : ofEnvironment variableRules s.environment = [(key.name, value)])
    (plain : ∀ source entries, value ≠ .table source entries) :
    standard.settings.MergesLayersOf s.files none s.environment := by
  intro file exported opened found
  cases opened
  cases found
  rw [sets]
  exact mergesKeyByKey_layered fun other => setAsWhole_single key other plain

/-- A job with a format and a ceiling of its own. -/
def eights : Job := { formats := [(Layout.uniform .byte).format], ceiling := some 2 }

/-- A variable that sets the ceiling to zero. -/
def noRoom : Surroundings := ⟨fun _ => none, [("Spantab_Max_Intervals", "0")], []⟩

/-- A job for a file, with a ceiling of its own. -/
def ofFile : Job := { input := some "ranges", ceiling := some 2 }

/-- A file with one range, and a variable that sets the catalog. -/
def oneRange : Surroundings :=
  ⟨fun name => if name = "ranges" then some [0x34, 0x31] else none,
    [("SPANTAB_CATALOG", "8x8,4x4")], []⟩

theorem mergesLayersOf_noRoom :
    standard.settings.MergesLayersOf noRoom.files eights.config noRoom.environment :=
  mergesLayersOf_single .ceiling (.integer .environment 0) (by cbv)
    fun _ _ same => Setting.noConfusion same

theorem mergesLayersOf_oneRange :
    standard.settings.MergesLayersOf oneRange.files ofFile.config oneRange.environment :=
  mergesLayersOf_single .catalog
    (.list .environment [.text .environment "8x8", .text .environment "4x4"]) (by cbv)
    fun _ _ same => Setting.noConfusion same

theorem perform_oneRange :
    (standard.perform ofFile oneRange).2 = .ok "(table-4-4 #x41 (0 0))\n" := by cbv

theorem run_all_or_nothing_bothEnds :
    standard.Documented ∧
      (standard.parse ["-f8x8", "--max-intervals", "2"] = .compile eights ∧
        standard.settings.MergesLayersOf noRoom.files eights.config noRoom.environment ∧
        ∃ outcome, standard.run ["-f8x8", "--max-intervals", "2"] noRoom = outcome ∧
          outcome.status = 1 ∧ outcome.output = "") ∧
      (standard.parse ["ranges", "--max-intervals=2"] = .compile ofFile ∧
        standard.settings.MergesLayersOf oneRange.files ofFile.config oneRange.environment ∧
        ∃ outcome, standard.run ["ranges", "--max-intervals=2"] oneRange = outcome ∧
          outcome.status = 0 ∧ ∃ parts catalog ceiling document,
            standard.Uses parts oneRange catalog ceiling ∧ Supplied parts oneRange document ∧
              compile document catalog ceiling (kindAsked parts) = .ok outcome.output) := by
  refine ⟨documented_standard, ?fails, ?prints⟩
  case fails =>
    have accepted : standard.parse ["-f8x8", "--max-intervals", "2"] = .compile eights := by cbv
    obtain ⟨⟨parts, line⟩, ends⟩ :=
      run_all_or_nothing documented_standard accepted mergesLayersOf_noRoom rfl
    obtain ⟨fails, -, -⟩ := ends parts line
    refine ⟨accepted, mergesLayersOf_noRoom, _, rfl, fails.1 (.settings ?_)⟩
    rintro catalog ceiling ⟨file, exported, -, -, -, found, room⟩
    have given : lastVariable? noRoom.environment "SPANTAB_MAX_INTERVALS" = some "0" := by cbv
    have read : standard.settings.number (standard.settings.ofVariable variableRules
        "max_intervals" "0") = .ok ceiling := by
      simpa only [Settings.Library.CeilingIs, given] using found
    have zero : standard.settings.number (standard.settings.ofVariable variableRules
        "max_intervals" "0") = .ok 0 := by cbv
    exact room (Except.ok.inj (read.symm.trans zero))
  case prints =>
    have accepted : standard.parse ["ranges", "--max-intervals=2"] = .compile ofFile := by cbv
    have status : (standard.run ["ranges", "--max-intervals=2"] oneRange).status = 0 := by
      rw [Libraries.run, accepted]
      exact (runJob_of_ok perform_oneRange).1
    obtain ⟨⟨parts, line⟩, ends⟩ :=
      run_all_or_nothing documented_standard accepted mergesLayersOf_oneRange rfl
    obtain ⟨fails, prints, -⟩ := ends parts line
    have fine : ¬ standard.Fails parts oneRange := fun failing => by
      have failed := (fails.1 failing).1
      omega
    exact ⟨accepted, mergesLayersOf_oneRange, _, rfl, status, parts, (prints fine).2⟩

end Witness

end RangeLookup.CommandLine
