import PdfWorker.Capture
set_option autoImplicit false

/-! # A capture that follows a script

For rehearsing sessions: a capture that is told which of its starts and stops fail. -/

namespace PdfWorker

/-- A capture that fails when it is told to. -/
structure ScriptedCapture where
  /-- The starts that fail, counted from 1. -/
  failingStarts : List Nat := []
  /-- The starts whose stop fails. -/
  failingStops : List Nat := []
  /-- The starts so far. -/
  starts : Nat := 0
  /-- Whether what is written is kept. -/
  listening : Bool := false
  kept : ByteArray := .empty

namespace ScriptedCapture

/-- How a start or a stop fails. -/
def failure : Fault := ⟨.other, "scripted Other"⟩

def start (s : ScriptedCapture) : Except Fault Unit × ScriptedCapture :=
  let next := { s with starts := s.starts + 1 }
  if next.starts ∈ s.failingStarts then (.error failure, next)
  else (.ok (), { next with listening := true, kept := .empty })

def stop (s : ScriptedCapture) : Except Fault Unit × ScriptedCapture :=
  let next := { s with listening := false }
  if s.starts ∈ s.failingStops then (.error failure, next) else (.ok (), next)

def read (s : ScriptedCapture) : ByteArray × ScriptedCapture :=
  (s.kept, { s with kept := .empty })

def hear (s : ScriptedCapture) (octets : ByteArray) : ScriptedCapture :=
  if s.listening then { s with kept := s.kept ++ octets } else s

end ScriptedCapture

/-- Capturing as a script tells. -/
def Capture.scripted : Capture ScriptedCapture where
  start := ScriptedCapture.start
  stop := ScriptedCapture.stop
  read := ScriptedCapture.read
  hear := ScriptedCapture.hear

end PdfWorker
