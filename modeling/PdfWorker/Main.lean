import PdfWorker.CommandLine
set_option autoImplicit false

/-! # The program

The worker on the standard streams. Everything that is decided is decided by `CommandLine` and
`Session`; what stands here reads octets, hands frames over and writes what comes of them. -/

namespace PdfWorker.Program

/-- Reads so many octets, or fewer if the stream ends. -/
partial def readOctets (stream : IO.FS.Stream) (want : Nat) (got : ByteArray) :
    IO ByteArray := do
  if want ≤ got.size then return got
  let more ← stream.read (USize.ofNat (want - got.size))
  if more.size = 0 then return got
  readOctets stream want (got ++ more)

/-- Reads what arrives where a frame is expected. -/
def readFrame (stream : IO.FS.Stream) (max : Nat) : IO (Except Fault Frame.Arrival) := do
  try
    let head ← readOctets stream Limits.header .empty
    if head.size < Limits.header then return .ok .ended
    let size := Frame.littleEndian head.data.toList
    if max < size then return .ok (.oversized size)
    let payload ← readOctets stream size .empty
    return .ok (if payload.size < size then .ended else .frame payload)
  catch e => return .error ⟨.other, e.toString⟩

/-- Writes what a session has put into its sink, and empties the sink. -/
def pass {ε κ : Type} (stream : IO.FS.Stream) (s : Session ε κ) : IO (Session ε κ) := do
  stream.write s.sink.accepted
  stream.flush
  return { s with sink := {} }

/-- Takes turns until there is a reason to stop, or the output fails. -/
partial def serve {ε δ κ : Type} (host : Host ε δ κ) (s : Session ε κ)
    (input output : IO.FS.Stream) : IO ExitReason := do
  let arrival ← readFrame input host.settings.maxFrame
  let (reason, s) := s.take host arrival
  let s ← pass output s
  match reason with
  | some reason => return reason
  | none => serve host s input output

/-- The environment variables that a worker looks at. -/
def watched : List String :=
  [Platform.fontPathVariable, Platform.drawingVariable, Platform.pollingVariable,
    Platform.logVariable]

/-- What is set in the environment of those. -/
def environment : IO Environment := do
  let mut env : Environment := {}
  for name in watched do
    if let some value ← IO.getEnv name then env := env.set name value
  return env

end PdfWorker.Program

open PdfWorker in
def main (arguments : List String) : IO UInt32 := do
  let output ← IO.getStdout
  match CommandLine.parse arguments with
  | .serve arguments =>
    let env ← Program.environment
    let session := CommandLine.session .linux { entries := [], here := [] } env arguments
    let reason ← try Program.serve (CommandLine.host .linux arguments) session (← IO.getStdin) output
      catch _ => pure .outputFailed
    return UInt32.ofNat reason.exitCode
  | .help => output.putStr CommandLine.helpText; return 0
  | .version => output.putStr CommandLine.versionText; return 0
  | .refused =>
    IO.eprintln "error: invalid arguments; for more information, try '--help'."
    return UInt32.ofNat CommandLine.refusedStatus
