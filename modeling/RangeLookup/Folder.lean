import RangeLookup.Bytes

/-!
# Names of files

The name of a file is a path of parts; empty parts and single dots lead nowhere, two dots lead out
of a folder again. A name that ends in a separator or in dots is that of a folder, and no file has
it.
-/

namespace RangeLookup

namespace FileName

/-- The texts between the separators of a name. -/
def pieces (name : String) : List (List Char) := name.toList.splitOn '/'

/-- The parts of a name that lead somewhere. -/
def parts (name : String) : List String :=
  ((pieces name).filter fun piece => !(piece.isEmpty || piece == ['.'])).map String.ofList

/-- Whether a name starts at the root and not in the folder at hand. -/
def isAbsolute (name : String) : Bool := name.toList.head? == some '/'

/-- Whether only a folder can have the name. -/
def isOfFolder (name : String) : Bool :=
  match (pieces name).getLast? with
  | some piece => piece.isEmpty || piece == ['.'] || piece == ['.', '.']
  | none => true

/-- The name without parts that lead nowhere. -/
def plain (name : String) : String :=
  (if isAbsolute name then "/" else "") ++ String.intercalate "/" (parts name)

/-- What follows the last dot of the last part, unless that dot starts it. -/
def ending? (name : String) : Option String :=
  let last := ((parts name).getLast?.getD "").toList
  match last.reverse.span (· != '.') with
  | (tail, _ :: _ :: _) => some (String.ofList tail.reverse)
  | _ => none

/-- The plain name with an ending more; there is none for a name whose last part leads out of a
folder or that has no part. -/
def withEnding? (ending name : String) : Option String :=
  match (parts name).getLast? with
  | none => none
  | some last => if last = ".." then none else some (plain name ++ "." ++ ending)

end FileName

/-- Files by name, each name from the folder that holds them all. -/
structure Folder where
  files : List (String × Bytes)

namespace Folder

/-- Whether there is a folder at the parts from this one on. -/
def hasFolder (f : Folder) (parts : List String) : Bool :=
  parts.isEmpty || f.files.any fun file =>
    parts.isPrefixOf (FileName.parts file.1) && parts != FileName.parts file.1

/-- Where parts lead from the folder at `here`, whose parts stand in reverse; what leads out of this
folder, or through a folder that does not exist, leads nowhere. -/
def follow? (f : Folder) : List String → List String → Option (List String)
  | here, [] => some here.reverse
  | here, part :: rest =>
    if part = ".." then
      match here with
      | [] => none
      | _ :: outer => if f.hasFolder here.reverse then f.follow? outer rest else none
    else f.follow? (part :: here) rest

/-- The file with the name. -/
def find? (f : Folder) (name : String) : Option Bytes :=
  if FileName.isAbsolute name || FileName.isOfFolder name then none
  else do
    let target ← f.follow? [] (FileName.parts name)
    return (← f.files.find? fun file => FileName.parts file.1 = target).2

end Folder

end RangeLookup
