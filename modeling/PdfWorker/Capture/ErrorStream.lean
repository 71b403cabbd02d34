import PdfWorker.Capture
import PdfWorker.Capture.Drain
import PdfWorker.Limits
set_option autoImplicit false

/-! # Capturing the error stream of a process

The error stream of a process leads somewhere, and a capture makes it lead into a pipe for a
while. What is written meanwhile stays in the pipe until it is read, and a reading gives the
beginning of it, up to a limit.

The stream and the capture are separate here: where the stream leads (`ErrorStream.target`) and
whether a capture is going on (`StderrCapture.isActive`) are two facts. A capture remembers where
the stream led before it (`Catch.saved`), and stopping makes it lead there again. The system may
refuse to let the stream lead elsewhere, and a pipe may take only a part of what is written. -/

namespace PdfWorker

/-- Where an error stream leads: where it led at first, or into a pipe. -/
inductive Target where
  | own
  | pipe (number : Nat)
deriving DecidableEq, Repr

/-- The error stream of a process, and the pipes that were made for it. -/
structure ErrorStream where
  target : Target := .own
  /-- What went where the stream led at first. -/
  passed : ByteArray := .empty
  /-- What is in each pipe. -/
  pipes : Array ByteArray := #[]
  /-- How many octets a pipe takes of a write, by what is in it and what is written. -/
  takes : ByteArray → ByteArray → Nat := fun _ octets => octets.size
  /-- What the system answers when the stream is next made to lead elsewhere: a fault, or nothing.
  Behind the last answer everything is granted. -/
  answers : List (Option Fault) := []

namespace ErrorStream

/-- What is in a pipe. -/
def held (stream : ErrorStream) (number : Nat) : ByteArray :=
  stream.pipes[number]?.getD .empty

/-- Makes an empty pipe. -/
def makePipe (stream : ErrorStream) : Nat × ErrorStream :=
  (stream.pipes.size, { stream with pipes := stream.pipes.push .empty })

/-- Makes the stream lead elsewhere, if the system lets it. -/
def redirect (target : Target) (stream : ErrorStream) : Except Fault Unit × ErrorStream :=
  match stream.answers with
  | some fault :: rest => (.error fault, { stream with answers := rest })
  | answers => (.ok (), { stream with target, answers := answers.drop 1 })

/-- Something is written to the stream. What a pipe does not take is lost. -/
def write (octets : ByteArray) (stream : ErrorStream) : ErrorStream :=
  match stream.target with
  | .own => { stream with passed := stream.passed ++ octets }
  | .pipe number =>
    { stream with
      pipes := stream.pipes.modify number fun held =>
        held ++ octets.extract 0 (stream.takes held octets) }

end ErrorStream

/-- A capture that was started and not yet read. -/
structure Catch where
  /-- Where the stream led before. -/
  saved : Target
  /-- The pipe that the stream is led into. -/
  pipe : Nat
  /-- Whether the pipe can still be written to. -/
  writable : Bool

/-- A process whose error stream can be caught. -/
structure StderrCapture where
  /-- The most that a reading gives. -/
  limit : Nat := Limits.capture
  catching : Option Catch := none
  stream : ErrorStream := {}

namespace StderrCapture

/-- Whether a capture is going on. -/
def isActive (s : StderrCapture) : Bool :=
  s.catching.any (·.writable)

/-- Whether the stream leads elsewhere than at first. -/
def isRedirected (s : StderrCapture) : Bool :=
  s.stream.target ≠ .own

/-- Makes the stream lead where it led before the capture, and closes the pipe for writing even if
the system refuses. -/
def stop (s : StderrCapture) : Except Fault Unit × StderrCapture :=
  match s.catching with
  | some c =>
    if c.writable then
      let (result, stream) := s.stream.redirect c.saved
      (result, { s with catching := some { c with writable := false }, stream })
    else (.ok (), s)
  | none => (.ok (), s)

/-- Makes the stream lead into a new pipe. What was caught before and not read is dropped. -/
def start (s : StderrCapture) : Except Fault Unit × StderrCapture :=
  match s.stop with
  | (.error fault, stopped) => (.error fault, stopped)
  | (.ok (), stopped) =>
    let (number, made) := stopped.stream.makePipe
    match made.redirect (.pipe number) with
    | (.error fault, stream) => (.error fault, { stopped with catching := none, stream })
    | (.ok (), stream) =>
      (.ok (), { stopped with catching := some ⟨stopped.stream.target, number, true⟩, stream })

/-- Takes what was caught; stops first. -/
def read (s : StderrCapture) : ByteArray × StderrCapture :=
  let stopped := s.stop.2
  match stopped.catching with
  | some c =>
    ((Capture.drain s.limit Limits.captureChunk (.ofOctets (stopped.stream.held c.pipe))).1,
      { stopped with catching := none })
  | none => (.empty, stopped)

/-- Something is written to the error stream. -/
def write (s : StderrCapture) (octets : ByteArray) : StderrCapture :=
  { s with stream := s.stream.write octets }

/-- Gives the capture up: stops, and leaves the stream. -/
def drop (s : StderrCapture) : ErrorStream := s.stop.2.stream

end StderrCapture

/-- Capturing the error stream. -/
def Capture.stderr : Capture StderrCapture where
  start := StderrCapture.start
  stop := StderrCapture.stop
  read := StderrCapture.read
  hear := StderrCapture.write

end PdfWorker
