import PdfWorker.Engine
set_option autoImplicit false

/-! # An engine that follows a script

For rehearsing sessions: an engine that is told how each of its starts and conversions goes. Its
documents are the conversions that they belong to. -/

namespace PdfWorker

/-- How a conversion goes. -/
structure ScriptedConversion where
  loadChatter : ByteArray := .empty
  loadError : Option EngineError := none
  exportChatter : ByteArray := .empty
  exportError : Option EngineError := none
  /-- Whether the output file is removed instead of written. -/
  removesOutput : Bool := false
  /-- Whether the output file is left as it is. -/
  keepsOutput : Bool := false
  pdf : ByteArray := "%PDF-1.7 mock".toUTF8

/-- How the next starts and conversions go. -/
structure ScriptedEngine where
  launches : List (Except EngineError String) := []
  conversions : List ScriptedConversion := []

namespace ScriptedEngine

/-- The version of an engine that starts without being told its version. -/
def version : String := "24.8.0"

def launch (s : ScriptedEngine) : Except EngineError String × ScriptedEngine :=
  (s.launches.headD (.ok version), { s with launches := s.launches.drop 1 })

def load (s : ScriptedEngine) (files : FileTree) : Outcome ScriptedEngine ScriptedConversion :=
  let conversion := s.conversions.headD {}
  let next := { s with conversions := s.conversions.drop 1 }
  match conversion.loadError with
  | some e => ⟨.error e, files, conversion.loadChatter, next⟩
  | none => ⟨.ok conversion, files, conversion.loadChatter, next⟩

def exportPdf (s : ScriptedEngine) (files : FileTree) (conversion : ScriptedConversion)
    (output : String) : Outcome ScriptedEngine Unit :=
  let answer (result : Except EngineError Unit) (files : FileTree) :=
    Outcome.mk result files conversion.exportChatter s
  match conversion.exportError with
  | some e => answer (.error e) files
  | none =>
    if conversion.removesOutput then answer (.ok ()) (files.remove output)
    else if conversion.keepsOutput then answer (.ok ()) files
    else match files.write output conversion.pdf with
      | .ok written => answer (.ok ()) written
      | .error spoilt =>
        answer (.error (.exportFailed "mock cannot write output")) spoilt.files

end ScriptedEngine

/-- The engine that does as a script tells. -/
def Engine.scripted : Engine ScriptedEngine ScriptedConversion where
  launch s _ _ _ := s.launch
  load s files _ _ := s.load files
  exportPdf s files conversion output _ _ := s.exportPdf files conversion output
  release s := s

end PdfWorker
