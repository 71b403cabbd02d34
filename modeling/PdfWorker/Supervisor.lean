import PdfWorker.Request
import PdfWorker.Response
import PdfWorker.Stream.Frame
set_option autoImplicit false

/-! # The supervisor

A supervisor drives one worker process: it sends requests, waits for each answer with a deadline,
and stops the worker. The process is reached through a `Link`, so that everything here can be
said of every process.

A worker whose streams cannot be trusted any more is abandoned: it is killed, and later calls
report that it has exited. Requests without a number get one. Nothing checks that an answer
carries the number of the request. -/

namespace PdfWorker

/-- What comes of waiting for a frame. -/
inductive Awaited where
  | arrived (arrival : Except Fault Frame.Arrival)
  /-- Nothing came in time. -/
  | late

/-- The ways to reach a process, with states of type `π`. -/
structure Link (π : Type) where
  /-- Writes one frame to the process. -/
  send : ByteArray → π → Except LinkError Unit × π
  /-- Waits for a frame, for at most so many milliseconds. -/
  receive : Nat → π → Awaited × π
  /-- Closes the stream to the process. -/
  hangUp : π → π
  /-- Nothing while the process is running, else its exit code, if it ended by itself. The system
  may fail to tell. -/
  status : π → Except Fault (Option (Option Int))
  /-- Waits for the process to end, for at most so many milliseconds. -/
  outlast : Nat → π → Except Fault (Option (Option Int)) × π
  kill : π → Except Fault Unit × π
  /-- Waits for the end of a process that was killed. -/
  reap : π → Except Fault Unit × π

/-- A supervisor and the process that it drives. -/
structure Supervisor (π : Type) where
  process : π
  /-- Whether requests can still be sent. -/
  connected : Bool := true
  /-- Whether the worker was given up or told to stop. -/
  finished : Bool := false
  /-- The version of the worker's engine, once it has started. -/
  version : Option String := none
  /-- The number for the next request without one. -/
  nextId : Int64 := 1
  /-- How long to wait for an answer, in milliseconds. -/
  timeout : Nat := Limits.answerTimeout

/-- An answer to the conversion of a document, and the PDF if the conversion succeeded. -/
structure BufferConversion where
  reply : BufferReply
  pdf : Option ByteArray

namespace Supervisor

variable {π : Type}

/-! ## Giving up -/

/-- Kills the worker, unless it was given up already. It counts as given up even if the system fails
to kill it. -/
def abandon (link : Link π) (s : Supervisor π) : Supervisor π :=
  if s.finished then s
  else
    { s with
      finished := true
      connected := false
      process := (link.reap (link.kill s.process).2).2 }

/-- The exit code of the worker, if the system tells that it ended by itself. -/
def exitCode? (link : Link π) (s : Supervisor π) : Option Int :=
  (link.status s.process).toOption.join.join

/-- Reports that the worker is gone, and makes sure that it is. -/
def exited {α : Type} (link : Link π) (s : Supervisor π) : Except LinkError α × Supervisor π :=
  (.error (.workerExited (s.exitCode? link)), s.abandon link)

/-- Whether the worker is running and was not given up. -/
def isAlive (link : Link π) (s : Supervisor π) : Bool :=
  !s.finished && match link.status s.process with
    | .ok none => true
    | _ => false

/-! ## Frames -/

/-- Sends one frame. -/
def sendFrame (link : Link π) (payload : ByteArray) (s : Supervisor π) :
    Except LinkError Unit × Supervisor π :=
  if s.connected then
    match link.send payload s.process with
    | (.ok (), process) => (.ok (), { s with process })
    | (.error e, process) =>
      let s := { s with process }
      match e with
      | .io fault =>
        if fault.kind = .brokenPipe then s.exited link else (.error e, s.abandon link)
      | _ => (.error e, if e.isFatal then s.abandon link else s)
  else s.exited link

/-- Sends a request. -/
def send (link : Link π) (request : Request) (s : Supervisor π) :
    Except LinkError Unit × Supervisor π :=
  s.sendFrame link request.encode

/-- Waits for the next frame. -/
def readPayload (link : Link π) (s : Supervisor π) : Except LinkError ByteArray × Supervisor π :=
  match link.receive s.timeout s.process with
  | (.late, process) => (.error (.timeout s.timeout), { s with process }.abandon link)
  | (.arrived (.ok (.frame payload)), process) => (.ok payload, { s with process })
  | (.arrived (.ok .ended), process) => { s with process }.exited link
  | (.arrived (.ok (.oversized size)), process) =>
    (.error (.protocol ("worker sent a frame of " ++ toString size ++ " bytes")),
      { s with process }.abandon link)
  | (.arrived (.error fault), process) => (.error (.io fault), { s with process }.abandon link)

/-- Waits for the next answer. -/
def readResponse (link : Link π) (s : Supervisor π) : Except LinkError Response × Supervisor π :=
  match s.readPayload link with
  | (.error e, s) => (.error e, s)
  | (.ok payload, s) => (Response.decode payload, s)

/-! ## Requests -/

/-- How an answer of the wrong kind is told. -/
def describe : Response → String
  | .error message => "error (" ++ message ++ ")"
  | response => response.kind

/-- The failure of a call that got an answer of the wrong kind. -/
def unexpected (expected : String) (response : Response) : LinkError :=
  .protocol ("expected " ++ expected ++ ", worker sent " ++ describe response)

/-- Sends a request and waits for an answer. -/
def ask (link : Link π) (request : Request) (s : Supervisor π) :
    Except LinkError Response × Supervisor π :=
  match s.send link request with
  | (.error e, s) => (.error e, s)
  | (.ok (), s) => s.readResponse link

/-- Has the worker start its engine, and gives the engine's version. -/
def startEngine (link : Link π) (request : Request) (s : Supervisor π) :
    Except LinkError String × Supervisor π :=
  match s.ask link request with
  | (.error e, s) => (.error e, s)
  | (.ok (.ready version), s) => (.ok version, { s with version := some version })
  | (.ok (.error message), s) => (.error (.initFailed message), s)
  | (.ok other, s) => (.error (unexpected "ready" other), s)

/-- The number of a request: its own unless that is 0, else the next one. -/
def number (id : Int64) (s : Supervisor π) : Int64 × Supervisor π :=
  if id = 0 then (s.nextId, { s with nextId := s.nextId + 1 }) else (id, s)

/-- Has the worker convert a file. -/
def convert (link : Link π) (request : FileRequest) (s : Supervisor π) :
    Except LinkError ConversionReply × Supervisor π :=
  let (id, s) := s.number request.id
  match s.ask link (.convert { request with id }) with
  | (.error e, s) => (.error e, s)
  | (.ok (.result reply), s) => (.ok reply, s)
  | (.ok other, s) => (.error (unexpected "result" other), s)

/-- Waits for the answer to a document, and for the PDF if the conversion succeeded. -/
def readConversion (link : Link π) (s : Supervisor π) :
    Except LinkError BufferConversion × Supervisor π :=
  match s.readResponse link with
  | (.error e, s) => (.error e, s)
  | (.ok (.bufferResult reply), s) =>
    if reply.success then
      match s.readPayload link with
      | (.error e, s) => (.error e, s)
      | (.ok pdf, s) => (.ok ⟨reply, some pdf⟩, s)
    else (.ok ⟨reply, none⟩, s)
  | (.ok other, s) => (.error (unexpected "buffer_result" other), s)

/-- Has the worker convert a document. Once the request is out, the worker takes whatever comes
next for the document, so a document that cannot be sent ends the link. -/
def convertDocument (link : Link π) (request : BufferRequest) (document : ByteArray)
    (s : Supervisor π) : Except LinkError BufferConversion × Supervisor π :=
  if Limits.frame < document.size then
    (.error (.frameTooLarge document.size Limits.frame), s)
  else
    let (id, s) := s.number request.id
    let dataSize := some (UInt64.ofNat document.size)
    match s.send link (.convertBuffer { request with id, dataSize }) with
    | (.error e, s) => (.error e, s)
    | (.ok (), s) =>
      match s.sendFrame link document with
      | (.error e, s) => (.error e, s.abandon link)
      | (.ok (), s) => s.readConversion link

/-! ## Stopping -/

/-- Asks the worker to stop and closes the stream to it, whether or not the request goes out. -/
def hangUp (link : Link π) (s : Supervisor π) : Supervisor π :=
  if s.connected then
    let (_, process) := link.send Request.quit.encode s.process
    { s with finished := true, connected := false, process := link.hangUp process }
  else { s with finished := true }

/-- Kills a worker that has taken longer than so many milliseconds to stop. -/
def putDown (link : Link π) (milliseconds : Nat) (process : π) : LinkError × π :=
  match link.kill process with
  | (.error fault, process) => (.io fault, process)
  | (.ok (), process) =>
    match link.reap process with
    | (.error fault, process) => (.io fault, process)
    | (.ok (), process) => (.timeout milliseconds, process)

/-- Has the worker stop, and gives its exit code, if it ended by itself. A worker that takes
longer than so many milliseconds is killed. -/
def shutdownWithin (link : Link π) (milliseconds : Nat) (s : Supervisor π) :
    Except LinkError (Option Int) × Supervisor π :=
  let s := s.hangUp link
  match link.outlast milliseconds s.process with
  | (.error fault, process) => (.error (.io fault), { s with process })
  | (.ok (some status), process) => (.ok status, { s with process })
  | (.ok none, process) =>
    let (e, process) := putDown link milliseconds process
    (.error e, { s with process })

/-- Has the worker stop, with the usual patience. -/
def shutdown (link : Link π) (s : Supervisor π) :
    Except LinkError (Option Int) × Supervisor π :=
  s.shutdownWithin link Limits.shutdownTimeout

end Supervisor

end PdfWorker
