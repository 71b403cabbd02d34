import PdfWorker.Fault
import PdfWorker.Path
set_option autoImplicit false

/-! # File trees

A file tree says what stands at each place: a directory, a file, or nothing (`FileTree.entry?`).
A place is a list of names from the root. Calls take paths; `FileTree.place` follows a path from
the root or from the current directory, or tells why it leads nowhere.

`read`, `write`, `create` and `remove` are the calls. A call that fails changes nothing, but for a
write that breaks off: it leaves the part that was taken (`FileTree.Spoilt`). `makeDirectory` makes
as many directories of a path as it can, and `permit` lets a file be run. -/

namespace PdfWorker

/-- The names that lead from the root to a place. -/
abbrev Place := List String

/-- What stands at a place. -/
inductive Entry where
  | directory
  | file (content : ByteArray)

namespace Entry

def isDirectory : Entry → Bool
  | directory => true
  | file _ => false

end Entry

/-- Why the system does not make a file, or takes no more of one. -/
inductive Refusal where
  | denied
  | noSpace
  | noMemory
  /-- The device fails. -/
  | broken
deriving DecidableEq, Repr

/-- What it reports then. -/
def Refusal.fault : Refusal → Fault
  | denied => .permissionDenied
  | noSpace => .storageFull
  | noMemory => .outOfMemory
  | broken => .inputOutput

/-- How a write breaks off: the octets that are taken, and why no more are. -/
structure Shortage where
  taken : Nat
  refusal : Refusal
deriving DecidableEq, Repr

/-- What stands at each place. The root is a directory that is not listed. -/
structure FileTree where
  entries : List (Place × Entry)
  /-- The current directory. -/
  here : Place
  /-- The places of the files that may be run. -/
  programs : List Place := []
  /-- Where the system does not make new files. -/
  refusal : Place → Option Refusal := fun _ => none
  /-- Where the system does not take all of a file of so many octets. -/
  shortage : Place → Nat → Option Shortage := fun _ _ => none

namespace FileTree

/-- The octets of the longest name and the octets that a path stays below. -/
def maxName : Nat := 255
def pathBound : Nat := 4096

/-! ## Places -/

/-- The first entry listed for a place. -/
def find? (place : Place) : List (Place × Entry) → Option Entry
  | [] => none
  | (p, e) :: rest => if p = place then some e else find? place rest

/-- What stands at a place. -/
def entry? (tree : FileTree) (place : Place) : Option Entry :=
  if place = [] then some .directory else find? place tree.entries

/-- Checks that a place is a directory. -/
def enter (tree : FileTree) (place : Place) : Except Fault Unit :=
  match tree.entry? place with
  | some .directory => .ok ()
  | some (.file _) => .error .notADirectory
  | none => .error .notFound

/-- Follows names from a place. The last one need not stand for anything. -/
def follow (tree : FileTree) (place : Place) : List String → Except Fault Place
  | [] => .ok place
  | name :: rest =>
    match tree.enter place with
    | .error fault => .error fault
    | .ok () =>
      if name = ".." then tree.follow place.dropLast rest
      else if maxName < name.utf8ByteSize then .error .nameTooLong
      else tree.follow (place ++ [name]) rest

/-- Whether a path can only stand for a directory. -/
def endsAsDirectory (path : String) : Bool :=
  match (Path.pieces path).getLast? with
  | some piece => !Path.isName piece
  | none => false

/-- The place from which a path is followed. -/
def origin (tree : FileTree) (path : String) : Place :=
  if Path.isAbsolute path then [] else tree.here

/-- The place that a path leads to. -/
def place (tree : FileTree) (path : String) : Except Fault Place :=
  if path.contains '\x00' then .error .nulInName
  else if path = "" then .error .notFound
  else if pathBound ≤ path.utf8ByteSize then .error .nameTooLong
  else tree.follow (tree.origin path) (Path.names path)

/-- What a path leads to. -/
def get (tree : FileTree) (path : String) : Except Fault Entry :=
  match tree.place path with
  | .error fault => .error fault
  | .ok place =>
    match tree.entry? place with
    | none => .error .notFound
    | some .directory => .ok .directory
    | some (.file content) =>
      if endsAsDirectory path then .error .notADirectory else .ok (.file content)

/-- Whether a path leads to anything. -/
def holds (tree : FileTree) (path : String) : Bool :=
  match tree.get path with
  | .ok _ => true
  | .error _ => false

/-- Whether a path leads to a directory. -/
def isDirectory (tree : FileTree) (path : String) : Bool :=
  match tree.get path with
  | .ok .directory => true
  | _ => false

/-- Whether a path leads to a file. -/
def isFile (tree : FileTree) (path : String) : Bool :=
  match tree.get path with
  | .ok (.file _) => true
  | _ => false

/-- The place of the file that a path leads to. -/
def file? (tree : FileTree) (path : String) : Option Place :=
  if tree.isFile path then (tree.place path).toOption else none

/-- Whether a path leads to a file that may be run. -/
def isProgram (tree : FileTree) (path : String) : Bool :=
  (tree.file? path).any tree.programs.contains

/-- The path of the current directory. -/
def herePath (tree : FileTree) : String := Path.under "/" tree.here

/-- A path that means the same wherever the current directory is. -/
def absolute (tree : FileTree) (path : String) : String := Path.join tree.herePath path

/-! ## Calls -/

/-- The content of a file. -/
def read (tree : FileTree) (path : String) : Except Fault ByteArray :=
  match tree.get path with
  | .ok (.file content) => .ok content
  | .ok .directory => .error .isADirectory
  | .error fault => .error fault

/-- Puts an entry at a place: in the list where one stands, or at its end. -/
def put (place : Place) (entry : Entry) : List (Place × Entry) → List (Place × Entry)
  | [] => [(place, entry)]
  | (p, e) :: rest => if p = place then (p, entry) :: rest else (p, e) :: put place entry rest

/-- Whether a new file can stand at a place: its directory exists, and the system makes it. -/
def allows (tree : FileTree) (place : Place) : Except Fault Unit :=
  match tree.enter place.dropLast with
  | .error fault => .error fault
  | .ok () =>
    match tree.refusal place with
    | some refusal => .error refusal.fault
    | none => .ok ()

/-- The place of a file that a path names or could name: one in a directory that exists. -/
def filePlace (tree : FileTree) (path : String) : Except Fault Place :=
  match tree.place path with
  | .error fault => .error fault
  | .ok place =>
    if endsAsDirectory path then .error .isADirectory
    else match tree.entry? place with
      | some .directory => .error .isADirectory
      | some (.file _) => .ok place
      | none => (tree.allows place).map fun _ => place

/-- The tree with a file at a place. -/
def withFile (tree : FileTree) (place : Place) (content : ByteArray) : FileTree :=
  { tree with entries := put place (.file content) tree.entries }

/-- A write that failed: what the system reports, and the files that are left. -/
structure Spoilt where
  fault : Fault
  files : FileTree

/-- Writes a file, new or in the place of its old content. If the system does not take all of it,
the file is left with the part that was taken. -/
def write (tree : FileTree) (path : String) (content : ByteArray) : Except Spoilt FileTree :=
  match tree.filePlace path with
  | .error fault => .error ⟨fault, tree⟩
  | .ok place =>
    match tree.shortage place content.size with
    | none => .ok (tree.withFile place content)
    | some shortage =>
      .error ⟨shortage.refusal.fault, tree.withFile place (content.extract 0 shortage.taken)⟩

/-- Makes an empty file where nothing stands. -/
def create (tree : FileTree) (path : String) : Except Fault FileTree :=
  match tree.filePlace path with
  | .error fault => .error fault
  | .ok place =>
    if (tree.entry? place).isSome then .error .alreadyExists
    else .ok (tree.withFile place .empty)

/-- Removes a file, if there is one. -/
def remove (tree : FileTree) (path : String) : FileTree :=
  match tree.file? path with
  | some place =>
    { tree with
      entries := tree.entries.filter (·.1 ≠ place)
      programs := tree.programs.filter (· ≠ place) }
  | none => tree

/-- Lets a file be run, if there is one. -/
def permit (tree : FileTree) (path : String) : FileTree :=
  { tree with programs := (tree.file? path).toList ++ tree.programs }

/-- Follows names from a place and makes each directory that is missing on the way, up to a name
that stands for a file or is too long. -/
def makeAlong (tree : FileTree) (place : Place) : List String → FileTree
  | [] => tree
  | name :: rest =>
    let next := if name = ".." then place.dropLast else place ++ [name]
    match tree.entry? next with
    | some .directory => tree.makeAlong next rest
    | some (.file _) => tree
    | none =>
      let grown : FileTree := { tree with entries := tree.entries ++ [(next, .directory)] }
      if maxName < name.utf8ByteSize then tree else grown.makeAlong next rest

/-- Makes a directory and the directories that its path leads through. -/
def makeDirectory (tree : FileTree) (path : String) : FileTree :=
  tree.makeAlong (tree.origin path) (Path.names path)

end FileTree

end PdfWorker
