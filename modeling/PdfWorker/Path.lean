import PdfWorker.Text.Cut
set_option autoImplicit false

/-! # Paths

A path is a text. Its names are what stands between slashes; empty names and single dots that do
not begin a relative path mean nothing (`Path.names`). Two paths that name the same in the same
way are `Path.same`, however they are spelled. `Path.join` and `Path.parent?` keep the spelling of
what they are given. -/

namespace PdfWorker.Path

/-- Whether a path starts at the root. -/
def isAbsolute (path : String) : Bool :=
  path.toList.head? = some '/'

/-- What stands between the slashes of a path. -/
def pieces (path : String) : List String :=
  (Text.split '/' path.toList).map String.ofList

/-- Whether a piece of a path names something. -/
def isName (piece : String) : Bool := piece ≠ "" ∧ piece ≠ "."

/-- The names in a path. -/
def names (path : String) : List String :=
  (pieces path).filter isName

/-- Whether a path begins with a dot for the current directory. -/
def beginsHere (path : String) : Bool :=
  (pieces path).head? = some "."

/-- Whether two paths name the same in the same way. -/
def same (a b : String) : Bool :=
  isAbsolute a = isAbsolute b ∧ beginsHere a = beginsHere b ∧ names a = names b

/-- The path of `name` under a directory; an absolute `name` stands for itself. -/
def join (dir name : String) : String :=
  if isAbsolute name ∨ dir = "" then name
  else if dir.toList.getLast? = some '/' then dir ++ name
  else dir ++ "/" ++ name

/-- The path of `name` in the directory that `names` lead to. -/
def under (dir : String) (names : List String) : String :=
  names.foldl join dir

/-- Drops slashes and single dots from the end of a path, given backwards, but not the first
character of the path. -/
def trimmed : List Char → List Char
  | '/' :: c :: rest => trimmed (c :: rest)
  | '.' :: '/' :: c :: rest => trimmed (c :: rest)
  | ['.', '/'] => ['/']
  | path => path

/-- The path of the directory that holds the last name of a path; none if the path names
nothing. -/
def parent? (path : String) : Option String :=
  match trimmed path.toList.reverse with
  | [] => none
  | ['/'] => none
  | kept => some (String.ofList (trimmed (kept.dropWhile (· ≠ '/'))).reverse)

end PdfWorker.Path
