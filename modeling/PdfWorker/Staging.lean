import PdfWorker.EngineError
import PdfWorker.FileTree
set_option autoImplicit false

/-! # Staging

The engine converts files. A document that was sent along is put into a file of an unused name for
it, and a second such file waits for the PDF. `Staging.stageInput` and `Staging.reserveOutput`
make the files, `Staging.readOutput` reads the PDF. A document that cannot be written is not left
behind in its file, which is removed again (`Staging.Failure`). The paths of these files are
absolute. -/

namespace PdfWorker.Staging

/-- The system's directory for temporary files. -/
def systemDirectory : String := "/tmp"

/-- How the names of staged files begin. -/
def stem : String := "slimlo_"

/-- Six characters, or more if the number has more digits. -/
def tag (number : Nat) : String :=
  let digits := Nat.toDigits 10 number
  String.ofList (List.replicate (6 - digits.length) '0' ++ digits)

/-- A path for a staged file; `number` tells files of one kind apart. -/
def path (dir extension : String) (number : Nat) : String :=
  Path.join dir (stem ++ tag number ++ "." ++ extension)

/-- Makes an empty file at the first unused one of so many paths, from `number` on. -/
def createFrom (files : FileTree) (dir extension : String) :
    Nat → Nat → Except Fault (String × FileTree)
  | 0, _ => .error .alreadyExists
  | tries + 1, number =>
    match files.create (path dir extension number) with
    | .ok created => .ok (path dir extension number, created)
    | .error fault =>
      if fault.kind = .alreadyExists then createFrom files dir extension tries (number + 1)
      else .error fault

/-- Makes an empty file of an unused name. There are more names to try than files, and the first
is seldom taken, since its number is how many files there are. -/
def create (files : FileTree) (dir : Option String) (extension : String) :
    Except Fault (String × FileTree) :=
  createFrom files (files.absolute (dir.getD systemDirectory)) extension
    (files.entries.length + 1) files.entries.length

/-- A document that is not staged: why, and the files that are left. -/
structure Failure extends EngineError where
  files : FileTree

instance : Coe Failure EngineError := ⟨Failure.toEngineError⟩

/-- Puts a document into a new file with this extension. If not all of the document can be written,
the file is removed. -/
def stageInput (files : FileTree) (dir : Option String) (document : ByteArray)
    (extension : String) : Except Failure (String × FileTree) :=
  match create files dir extension with
  | .error fault => .error ⟨.resource "Failed to create temporary input file" fault, files⟩
  | .ok (path, created) =>
    match created.write path document with
    | .error spoilt =>
      .error ⟨.resource "Failed to write temporary input file" spoilt.fault,
        spoilt.files.remove path⟩
    | .ok written => .ok (path, written)

/-- Makes an empty file for a PDF. -/
def reserveOutput (files : FileTree) (dir : Option String) :
    Except EngineError (String × FileTree) :=
  match create files dir "pdf" with
  | .error fault => .error (.resource "Failed to create temporary output file" fault)
  | .ok reserved => .ok reserved

/-- Reads a PDF that the engine wrote. -/
def readOutput (files : FileTree) (path : String) : Except EngineError ByteArray :=
  match files.read path with
  | .error fault => .error (.exportFailed ("Failed to read output PDF: " ++ fault.message))
  | .ok pdf =>
    if pdf.size = 0 then .error (.exportFailed "Engine produced an empty PDF") else .ok pdf

end PdfWorker.Staging
