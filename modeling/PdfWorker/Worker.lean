import PdfWorker.Conversion
import PdfWorker.Diagnostic.LogLine
import PdfWorker.Request
import PdfWorker.Response
import PdfWorker.Stream.Frame
set_option autoImplicit false

/-! # The worker

A worker takes frames from a supervisor, one after the other, and answers each request before it
takes the next. A request that the environment cannot take breaks it off without an answer
(`ExitReason.aborted`). It starts without an engine (`Phase.uninitialized`), has one after the first
request to start it succeeds (`ready`), and lets go of it when it stops (`shuttingDown`).

`Session.take` is one turn: it says what the worker does with what arrives where a frame is
expected. A request to convert a document makes the next frame the document, whatever is in it
(`Session.awaited`). `Worker.run` takes turns until one of them gives a reason to stop. -/

namespace PdfWorker

/-- How far a worker's life has come. -/
inductive Phase where
  | uninitialized
  /-- The engine is running. -/
  | ready
  | shuttingDown
deriving DecidableEq, Repr

/-- The name of a phase. -/
def Phase.name : Phase → String
  | uninitialized => "uninitialized"
  | ready => "ready"
  | shuttingDown => "shutting_down"

/-- Why a worker stops. -/
inductive ExitReason where
  | quit
  | endOfInput
  /-- A header told a size above the ceiling, so what follows cannot be cut into frames. -/
  | oversizedFrame (size : Nat)
  | inputFailed
  /-- An answer could not be written: the supervisor is gone. -/
  | outputFailed
  /-- The environment could not take what a request puts into it; there is no answer to that. -/
  | aborted
deriving DecidableEq, Repr

/-- The exit code of a worker that stops for a reason. -/
def ExitReason.exitCode : ExitReason → Nat
  | aborted => 101
  | _ => 0

/-- A worker between two frames. -/
structure Session (ε κ : Type) where
  phase : Phase
  /-- The request whose document the next frame holds. -/
  awaited : Option BufferRequest := none
  world : World ε κ
  /-- Where answers go. -/
  sink : Sink

namespace Worker

variable {ε δ κ : Type}

/-! ## Answers -/

/-- A text that is there and not empty. -/
def given (text : Option String) : Option String :=
  text.filter (· ≠ "")

/-- What a worker answers to an engine that did not start. -/
def launchError (e : EngineError) : Response :=
  .error (if e.message = "" then "Failed to initialize" else e.message)

/-- Starts the engine in an environment. -/
def startEngineIn (host : Host ε δ κ) (request : InitRequest) (resourcePath : String)
    (environment : Environment) (world : World ε κ) : Response × Phase × World ε κ :=
  let setup := ⟨resourcePath, request.fontPaths, host.platform⟩
  match World.launch host setup { world with environment } with
  | (.ok version, world) => (.ready version, .ready, world)
  | (.error e, world) => (launchError e, .uninitialized, world)

/-- Answers the request to start the engine. There is no answer if the environment cannot take the
font paths. -/
def startEngine (host : Host ε δ κ) (request : InitRequest) (phase : Phase) (world : World ε κ) :
    Option Response × Phase × World ε κ :=
  let reject (message : String) := (some (Response.error message), phase, world)
  match phase with
  | .ready => reject "Already initialized"
  | .shuttingDown => reject "Worker is shutting down"
  | .uninitialized =>
    match given request.resourcePath with
    | none => reject "Missing resource_path in init message"
    | some resourcePath =>
      match host.platform.applyFontPaths request.fontPaths world.environment with
      | none => (none, phase, world)
      | some environment =>
        let (response, started) := startEngineIn host request resourcePath environment world
        (some response, started)

/-- Makes a call with the engine's chatter caught, and reads diagnostics from it. If the capture
does not start the call is made all the same, and there are no diagnostics. -/
def captured {α : Type} (host : Host ε δ κ) (call : World ε κ → α × World ε κ)
    (world : World ε κ) : α × List Diagnostic × World ε κ :=
  match world.startCapture host with
  | (.error _, world) =>
    let (result, world) := call world
    (result, [], world)
  | (.ok (), world) =>
    let (result, world) := call world
    let (caught, world) := (world.stopCapture host).readCapture host
    (result, LogLine.ofOctets caught, world)

/-- Answers the request to convert a file. -/
def convert (host : Host ε δ κ) (request : FileRequest) (phase : Phase) (world : World ε κ) :
    ConversionReply × World ε κ :=
  match phase, given request.input, given request.output with
  | .ready, some input, some output =>
    match captured host (Conversion.convertFile host input output request.format request.options)
        world with
    | (.ok (), diagnostics, world) => (.ok request.id diagnostics, world)
    | (.error e, diagnostics, world) => (.failed request.id e diagnostics, world)
  | .ready, _, _ =>
    (.failed request.id (.invalidArgument "Missing input or output path") [], world)
  | _, _, _ => (.failed request.id .notInitialized [], world)

/-- The answer to a document that was converted, and the PDF if it can be sent. -/
def pdfReply (id : Int64) (pdf : ByteArray) (diagnostics : List Diagnostic) :
    BufferReply × Option ByteArray :=
  if Limits.frame < pdf.size then
    (.failed id (.exportFailed ("PDF of " ++ toString pdf.size ++ " bytes exceeds the " ++
      toString Limits.frame ++ " byte frame limit")) diagnostics, none)
  else (.ok id (UInt64.ofNat pdf.size) diagnostics, some pdf)

/-- Answers the request to convert a document, given the document if it arrived. -/
def convertDocument (host : Host ε δ κ) (request : BufferRequest) (document : Option ByteArray)
    (phase : Phase) (world : World ε κ) : (BufferReply × Option ByteArray) × World ε κ :=
  let reject (e : EngineError) := ((BufferReply.failed request.id e [], none), world)
  if phase ≠ .ready then reject .notInitialized
  else match request.dataSize, document with
    | none, _ => reject (.invalidArgument "Missing data_size in convert_buffer")
    | some _, none => reject (.invalidArgument "Failed to read document data frame")
    | some expected, some document =>
      if document.size ≠ expected.toNat then
        reject (.invalidArgument "Data frame size mismatch")
      else match captured host
          (Conversion.convertDocument host document request.format request.options) world with
        | (.ok pdf, diagnostics, world) => (pdfReply request.id pdf diagnostics, world)
        | (.error e, diagnostics, world) =>
          ((.failed request.id e diagnostics, none), world)

end Worker

namespace Session

variable {ε δ κ : Type}

/-! ## Turns -/

/-- Writes one frame. -/
def send (payload : ByteArray) (s : Session ε κ) : Option ExitReason × Session ε κ :=
  match Frame.write payload s.sink with
  | (.ok (), sink) =>
    (none, { s with sink, world := s.world.record (.sent (Frame.encode payload)) })
  | (.error _, sink) => (some .outputFailed, { s with sink })

/-- Writes one frame and then perhaps another. -/
def sendBoth (payload : ByteArray) (more : Option ByteArray) (s : Session ε κ) :
    Option ExitReason × Session ε κ :=
  match s.send payload, more with
  | (none, s), some payload => s.send payload
  | sent, _ => sent

/-- Answers a request. -/
def answer (host : Host ε δ κ) (request : Request) (s : Session ε κ) :
    Option ExitReason × Session ε κ :=
  match request with
  | .init request =>
    match Worker.startEngine host request s.phase s.world with
    | (some response, phase, world) => { s with phase, world }.send response.encode
    | (none, phase, world) => (some .aborted, { s with phase, world })
  | .convert request =>
    let (reply, world) := Worker.convert host request s.phase s.world
    { s with world }.send (Response.result reply).encode
  | .convertBuffer request => (none, { s with awaited := some request })
  | .quit => (some .quit, s)

/-- Takes a control frame. -/
def takeMessage (host : Host ε δ κ) (payload : ByteArray) (s : Session ε κ) :
    Option ExitReason × Session ε κ :=
  match Request.decode payload with
  | .ok (.request request) => s.answer host request
  | .ok (.ignored _) => (none, s)
  | .error _ => s.send (Response.error "Invalid JSON message").encode

/-- Takes the document of a request, or its absence. -/
def takeDocument (host : Host ε δ κ) (request : BufferRequest) (document : Option ByteArray)
    (s : Session ε κ) : Option ExitReason × Session ε κ :=
  let ((reply, pdf), world) := Worker.convertDocument host request document s.phase s.world
  { s with world, awaited := none }.sendBoth (Response.bufferResult reply).encode pdf

/-- What ends a session when no frame arrives. -/
def ending : Except Fault Frame.Arrival → Option ExitReason × Option ByteArray
  | .ok (.frame payload) => (none, some payload)
  | .ok .ended => (some .endOfInput, none)
  | .ok (.oversized size) => (some (.oversizedFrame size), none)
  | .error _ => (some .inputFailed, none)

/-- Takes what arrives where a frame is expected. A request that waits for its document is
answered even if no document arrives. -/
def take (host : Host ε δ κ) (arrival : Except Fault Frame.Arrival) (s : Session ε κ) :
    Option ExitReason × Session ε κ :=
  let (reason, payload) := ending arrival
  match s.awaited, payload with
  | some request, document =>
    let (failed, s) := s.takeDocument host request document
    (failed.or reason, s)
  | none, some payload => s.takeMessage host payload
  | none, none => (reason, s)

/-- Stops the worker and lets go of the engine. -/
def close (host : Host ε δ κ) (s : Session ε κ) : Session ε κ :=
  { s with
    phase := .shuttingDown
    world := if s.phase = .ready then s.world.release host else s.world }

theorem reason_of_ended {arrival : Except Fault Frame.Arrival}
    (h : ∀ payload, arrival ≠ .ok (.frame payload)) : (ending arrival).1 ≠ none := by
  unfold ending
  split
  · exact absurd rfl (h _)
  all_goals simp

theorem take_ne_none {host : Host ε δ κ} {arrival : Except Fault Frame.Arrival} {s : Session ε κ}
    (h : ∀ payload, arrival ≠ .ok (.frame payload)) : (s.take host arrival).1 ≠ none := by
  have hr := reason_of_ended h
  have hp : (ending arrival).2 = none := by
    unfold ending
    split
    · exact absurd rfl (h _)
    all_goals rfl
  simp only [take, hp]
  split
  · cases (s.takeDocument host _ _).1 <;> simp [hr]
  · rename_i heq
    simp at heq
  · exact hr

end Session

namespace Worker

variable {ε δ κ : Type}

/-- Takes turns until there is a reason to stop. -/
def serve (host : Host ε δ κ) (s : Session ε κ) (source : Source) :
    ExitReason × Session ε κ × Source :=
  match _h : Frame.read host.settings.maxFrame source with
  | (.ok (.frame payload), rest) =>
    match s.take host (.ok (.frame payload)) with
    | (some reason, s) => (reason, s, rest)
    | (none, s) => serve host s rest
  | (arrival, rest) =>
    let (reason, s) := s.take host arrival
    (reason.getD .endOfInput, s, rest)
termination_by source.weight
decreasing_by exact Frame.weight_read_lt _h

/-- Serves a supervisor until there is a reason to stop, and lets go of the engine. -/
def run (host : Host ε δ κ) (s : Session ε κ) (source : Source) :
    ExitReason × Session ε κ × Source :=
  let (reason, s, rest) := serve host s source
  (reason, s.close host, rest)

end Worker

end PdfWorker
