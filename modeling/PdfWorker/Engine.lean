import PdfWorker.EngineError
import PdfWorker.Options
import PdfWorker.Platform
set_option autoImplicit false

/-! # The engine

The engine loads a document from a file and exports it as a PDF to another file. It is given by
functions on a state, so that everything around it can be said of every engine: a call gives a
result, may change the file tree, and may write to the error stream. -/

namespace PdfWorker

/-- What the engine needs to start. -/
structure EngineSetup where
  /-- Where the engine is installed. -/
  resourcePath : String
  fontPaths : List String
  platform : Platform
deriving DecidableEq, Repr

/-- What comes of a call to the engine. -/
structure Outcome (ε α : Type) where
  result : Except EngineError α
  /-- The file tree after the call. -/
  files : FileTree
  /-- What the engine wrote to its error stream. -/
  chatter : ByteArray
  state : ε

/-- An engine with states of type `ε` and loaded documents of type `δ`. -/
structure Engine (ε δ : Type) where
  /-- Starts the engine; the result is its version. -/
  launch : ε → FileTree → Environment → EngineSetup → Except EngineError String × ε
  /-- Loads the document at a path, with a password if it is protected. -/
  load : ε → FileTree → String → Option String → Outcome ε δ
  /-- Exports a loaded document to a path. -/
  exportPdf : ε → FileTree → δ → String → Format → Options → Outcome ε Unit
  /-- Lets go of the engine. -/
  release : ε → ε

namespace Engine

/-- The engine of an installation that has none: it never starts, so nothing is ever loaded. -/
def missing : Engine Unit Empty where
  launch s _ _ _ := (.error (.initFailed "native engine support not compiled in"), s)
  load s files _ _ :=
    ⟨.error (.loadFailed "native engine support not compiled in"), files, .empty, s⟩
  exportPdf s files _ _ _ _ := ⟨.ok (), files, .empty, s⟩
  release s := s

end Engine

end PdfWorker
