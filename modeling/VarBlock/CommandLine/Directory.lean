import VarBlock.Source

/-!
# Files by path

A `Directory` is a set of files, each under a path of names below one directory. Paths are resolved
name by name: a dot stays, two dots go up, and only directories can be gone through. What lies above
the directory are directories too, in which no other names are known.
-/

namespace VarBlock.CommandLine

/-- The names of a path, with slashes between them. -/
def pathNames (path : String) : List String := (path.toList.splitOn '/').map String.ofList

/-- Files by the names that lead to them. -/
abbrev Directory := List (List String × ByteArray)

/-- Where a path leads. -/
inductive Place
  /-- To what is under the given names in the directory, if there is something. -/
  | below (names : List String)
  /-- To one of the directories above. -/
  | above
deriving DecidableEq, Repr

/-- The place one step up. There is always one: above the topmost directory is that directory. -/
def Place.parent : Place → Place
  | below [] => above
  | below names => below names.dropLast
  | above => above

namespace Directory

/-- The file at a place. -/
def file? (d : Directory) : Place → Option ByteArray
  | .below names => d.lookup names
  | .above => none

/-- Whether a place is a directory. There is one as soon as some file lies below it. -/
def isDirectory (d : Directory) : Place → Bool
  | .below place => place.isEmpty || d.any fun (names, _) => place.isPrefixOf names && place ≠ names
  | .above => true

/-- The place that a name leads to from a directory. -/
def child (place : Place) (name : String) : Except ReadError Place :=
  if name.utf8ByteSize > 255 then .error .nameTooLong
  else if name = "" || name = "." then .ok place
  else if name = ".." then .ok place.parent
  else match place with
    | .below names => .ok (.below (names ++ [name]))
    | .above => .error .missing

/-- The place that names lead to from a place. -/
def resolve (d : Directory) (place : Place) : List String → Except ReadError Place
  | [] => .ok place
  | name :: names =>
    if (d.file? place).isSome then .error .notDirectory
    else if !d.isDirectory place then .error .missing
    else (child place name).bind fun place => d.resolve place names

/-- The content of the file at a place. -/
def content (d : Directory) (place : Place) : Except ReadError ByteArray :=
  match d.file? place with
  | some content => .ok content
  | none => .error (if d.isDirectory place then .isDirectory else .missing)

/-- The content of the file that a path leads to. A path has fewer than 4096 bytes, and one that
starts with a slash leads from the topmost directory. -/
def read (d : Directory) (path : String) : Except ReadError ByteArray :=
  if path.isEmpty then .error .missing
  else if path.utf8ByteSize ≥ 4096 then .error .nameTooLong
  else
    let start := if path.toList.head? = some '/' then Place.above else .below []
    (d.resolve start (pathNames path)).bind d.content

end Directory

end VarBlock.CommandLine
