set_option autoImplicit false

/-! # Limits and settings

The numbers that supervisor and worker agree on, and the settings of one worker. A ceiling on
frames can be lowered by a setting, never raised above `Limits.frame`. -/

namespace PdfWorker

namespace Limits

/-- The octets of a frame's header. -/
def header : Nat := 4

/-- The largest payload of a frame: 256 MiB. -/
def frame : Nat := 256 * 1024 * 1024

/-- The octets of engine chatter kept for one conversion: 256 KiB. -/
def capture : Nat := 256 * 1024

/-- The octets taken at once from the pipe that caught the chatter. -/
def captureChunk : Nat := 8192

/-- The octets of a diagnostic's message. -/
def message : Nat := 1024

/-- How long a supervisor waits for one answer, in milliseconds: five minutes. -/
def answerTimeout : Nat := 5 * 60 * 1000

/-- How long a supervisor waits for a worker to stop, in milliseconds. -/
def shutdownTimeout : Nat := 5000

end Limits

/-- The settings of one worker. -/
structure Settings where
  /-- The largest payload that is accepted. -/
  maxFrame : Nat := Limits.frame
  /-- The octets of engine chatter kept for one conversion. -/
  captureLimit : Nat := Limits.capture
  /-- Where documents are staged; the system's directory for temporary files if unset. -/
  stagingDirectory : Option String := none
deriving DecidableEq, Repr

namespace Settings

/-- Lowers the ceiling on frames. -/
def withMaxFrame (settings : Settings) (size : Nat) : Settings :=
  { settings with maxFrame := min size Limits.frame }

def withStagingDirectory (settings : Settings) (dir : String) : Settings :=
  { settings with stagingDirectory := some dir }

end Settings

end PdfWorker
