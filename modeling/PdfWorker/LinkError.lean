import PdfWorker.Fault
set_option autoImplicit false

/-! # Failures of the link between supervisor and worker

A `LinkError` is what a supervisor's call, or the reading and writing of a frame, reports.
`LinkError.isFatal` tells the errors after which the worker has to be replaced. -/

namespace PdfWorker

/-- A failure between a supervisor and its worker. -/
inductive LinkError where
  /-- A stream failed, or the process could not be started. -/
  | io (fault : Fault)
  /-- A message is not the JSON that was expected. -/
  | json
  /-- A frame of `size` octets was not sent. -/
  | frameTooLarge (size max : Nat)
  /-- The other side sent something it should not have sent. -/
  | protocol (message : String)
  /-- The worker's engine did not start. -/
  | initFailed (message : String)
  | executableNotFound (path : String)
  /-- The worker is gone; `status` is its exit code if it ended by itself. -/
  | workerExited (status : Option Int)
  /-- No answer came within so many milliseconds. -/
  | timeout (milliseconds : Nat)
deriving DecidableEq, Repr

/-- A number of milliseconds in the largest unit below it: `0ns`, `50ms`, `1.5s`. -/
def durationText (milliseconds : Nat) : String :=
  if milliseconds = 0 then "0ns"
  else if milliseconds < 1000 then toString milliseconds ++ "ms"
  else
    let whole := toString (milliseconds / 1000)
    let part := milliseconds % 1000
    if part = 0 then whole ++ "s"
    else
      let digits := (toString (1000 + part)).toList.drop 1
      let kept := (digits.reverse.dropWhile (· = '0')).reverse
      whole ++ "." ++ String.ofList kept ++ "s"

namespace LinkError

/-- The exit code of a process as it is shown. -/
def statusText : Option Int → String
  | none => "None"
  | some code => "Some(" ++ toString code ++ ")"

/-- The wording of a failure. -/
def message : LinkError → String
  | io fault => "IO error: " ++ fault.message
  | json => "JSON error"
  | frameTooLarge size max =>
    "Frame of " ++ toString size ++ " bytes exceeds maximum " ++ toString max
  | protocol m => "Protocol error: " ++ m
  | initFailed m => "Worker initialization failed: " ++ m
  | executableNotFound path => "Worker executable not found: " ++ path
  | workerExited status => "Worker process exited (status: " ++ statusText status ++ ")"
  | timeout ms => "Timed out after " ++ durationText ms

/-- Whether the link is unusable from now on, so that the worker has to be replaced. -/
def isFatal : LinkError → Bool
  | io _ | workerExited _ | timeout _ => true
  | _ => false

end LinkError

end PdfWorker
