import PdfWorker.Fault
set_option autoImplicit false

/-! # Capturing what the engine writes

The engine writes warnings to its error stream. A capture catches what is written between its
start and its stop. It is given by four functions on a state, so that everything around it can be
said of every capture. `Capture.none` catches nothing. -/

namespace PdfWorker

/-- A way to catch what is written to the error stream, with states of type `κ`. -/
structure Capture (κ : Type) where
  /-- Begins to catch. After a failure the error stream is as it was. -/
  start : κ → Except Fault Unit × κ
  /-- Ends catching. -/
  stop : κ → Except Fault Unit × κ
  /-- Takes what was caught. -/
  read : κ → ByteArray × κ
  /-- The engine writes to its error stream. -/
  hear : κ → ByteArray → κ

namespace Capture

/-- The capture that catches nothing and never fails. -/
def none : Capture Unit where
  start s := (.ok (), s)
  stop s := (.ok (), s)
  read s := (.empty, s)
  hear s _ := s

end Capture

end PdfWorker
