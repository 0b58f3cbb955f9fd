import RangeLookup.Numeral
import RangeLookup.Toml.Value

/-!
# Dates and times in TOML

Dates and times are checked against the calendar and written in normal form: `T` between date and
time, fractions of a second without zeros at their end and cut off behind nine places, `Z` or hours
and minutes for the offset, which is at most a day.
-/

namespace RangeLookup.Toml

/-- The greatest hour of a day, and the greatest hour and minute of an offset. -/
structure ClockBounds where
  hour : Nat
  offsetHour : Nat
  offsetMinute : Nat

/-- The bounds for moments that stand in a document as they are. -/
def ClockBounds.strict : ClockBounds := ⟨23, 23, 59⟩

/-- The bounds for moments that are given as texts. -/
def ClockBounds.loose : ClockBounds := ⟨24, 99, 99⟩

/-- A number of two digits within bounds, and the text after it. -/
def twoDigits (low high : Nat) : List Char → Option (Nat × List Char)
  | a :: b :: rest =>
    let n := Radix.decimal.value [a, b]
    if [a, b].all Radix.decimal.isDigit && low ≤ n && n ≤ high then some (n, rest) else none
  | _ => none

def padded (width n : Nat) : String := String.ofList (Radix.decimal.writePadded width n)

def isLeapYear (year : Nat) : Bool := year % 4 == 0 && (year % 100 != 0 || year % 400 == 0)

/-- The days of a month. -/
def daysIn (year month : Nat) : Nat :=
  if month = 2 then if isLeapYear year then 29 else 28
  else if month = 4 || month = 6 || month = 9 || month = 11 then 30
  else 31

/-- A character that has to come next. -/
def skip (c : Char) : List Char → Option (List Char)
  | d :: rest => if c = d then some rest else none
  | [] => none

/-- A date: year, month and day with dashes between them. -/
def date? : List Char → Option (String × List Char)
  | a :: b :: c :: d :: rest => do
    let year ← Radix.decimal.read? [a, b, c, d]
    let (month, rest) ← twoDigits 1 12 (← skip '-' rest)
    let (day, rest) ← twoDigits 1 (daysIn year month) (← skip '-' rest)
    return (padded 4 year ++ "-" ++ padded 2 month ++ "-" ++ padded 2 day, rest)
  | _ => none

/-- The fraction of a second, at most nine places, without the zeros at its end. -/
def fractionText (digits : List Char) : String :=
  let kept := ((digits.take 9).reverse.dropWhile (· == '0')).reverse
  if kept.isEmpty then "" else "." ++ String.ofList kept

/-- A time of the day: hours, minutes and seconds with colons between them, and a fraction. -/
def time? (bounds : ClockBounds) (text : List Char) : Option (String × List Char) := do
  let (hour, rest) ← twoDigits 0 bounds.hour text
  let (minute, rest) ← twoDigits 0 59 (← skip ':' rest)
  let (second, rest) ← twoDigits 0 60 (← skip ':' rest)
  let clock := padded 2 hour ++ ":" ++ padded 2 minute ++ ":" ++ padded 2 second
  match rest with
  | '.' :: more =>
    let digits := more.takeWhile Radix.decimal.isDigit
    if digits.isEmpty then none
    else return (clock ++ fractionText digits, more.dropWhile Radix.decimal.isDigit)
  | _ => return (clock, rest)

/-- The offset at the end of a time; no offset is none, and a negative zero is zero. -/
def offset? (bounds : ClockBounds) : List Char → Option String
  | [] => some ""
  | ['Z'] => some "Z"
  | ['z'] => some "Z"
  | sign :: rest => do
    if sign ≠ '+' ∧ sign ≠ '-' then none
    else
      let (hour, rest) ← twoDigits 0 bounds.offsetHour rest
      let (minute, rest) ← twoDigits 0 bounds.offsetMinute (← skip ':' rest)
      let total := hour * 60 + minute
      if rest.isEmpty && total ≤ 1440 then
        return (if sign = '-' && total != 0 then "-" else "+") ++ padded 2 (total / 60) ++ ":" ++
          padded 2 (total % 60)
      else none

/-- A date, a time of the day, or both with or without an offset. -/
def moment? (bounds : ClockBounds) (text : List Char) : Option String :=
  match date? text with
  | some (date, []) => some date
  | some (date, between :: rest) => do
    if between = 'T' ∨ between = 't' ∨ between = ' ' then
      let (clock, rest) ← time? bounds rest
      return date ++ "T" ++ clock ++ (← offset? bounds rest)
    else none
  | none =>
    match time? bounds text with
    | some (clock, []) => some clock
    | _ => none

end RangeLookup.Toml
