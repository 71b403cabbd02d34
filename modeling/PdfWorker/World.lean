import PdfWorker.Capture
import PdfWorker.Engine
import PdfWorker.Limits
set_option autoImplicit false

/-! # The world around a worker

A worker acts on a file tree, environment variables, an engine and a capture of the engine's
chatter (`World`), through the engine and the capture that its `Host` gives it. Every call that
can be seen from outside is kept in a log, in order (`Event`). -/

namespace PdfWorker

/-- What happens between a worker and the world. -/
inductive Event where
  /-- The engine is started: with this setup, the directory of its libraries, and the font path
  that is set. -/
  | launched (setup : EngineSetup) (programDirectory : String) (fontPath : Option String)
  /-- A document is loaded; `content` is what the file holds, if it can be read. -/
  | loaded (path : String) (password : Option String) (content : Option ByteArray)
  | exported (output : String) (format : Format) (options : Options)
  | released
  | captureStarted
  | captureStopped
  | captureRead
  /-- Octets were written to the supervisor and flushed. -/
  | sent (octets : ByteArray)

/-- What a worker finds in place when it starts. -/
structure Host (ε δ κ : Type) where
  platform : Platform
  settings : Settings
  engine : Engine ε δ
  capture : Capture κ

/-- What a worker acts on. -/
structure World (ε κ : Type) where
  files : FileTree
  environment : Environment
  engine : ε
  capture : κ
  /-- What has happened, oldest first. -/
  log : Array Event := #[]

namespace World

variable {ε δ κ : Type}

/-- Adds an event to the log. -/
def record (world : World ε κ) (event : Event) : World ε κ :=
  { world with log := world.log.push event }

/-! ## The engine -/

/-- Starts the engine. -/
def launch (host : Host ε δ κ) (setup : EngineSetup) (world : World ε κ) :
    Except EngineError String × World ε κ :=
  let event := Event.launched setup
    (setup.platform.programDirectory world.files setup.resourcePath)
    (world.environment.get? Platform.fontPathVariable)
  let (result, engine) := host.engine.launch world.engine world.files world.environment setup
  (result, { world.record event with engine })

/-- Takes over what a call to the engine changed. -/
def settle {α : Type} (host : Host ε δ κ) (outcome : Outcome ε α) (world : World ε κ) :
    World ε κ :=
  { world with
    files := outcome.files
    engine := outcome.state
    capture := host.capture.hear world.capture outcome.chatter }

/-- Loads a document. -/
def load (host : Host ε δ κ) (path : String) (password : Option String) (world : World ε κ) :
    Except EngineError δ × World ε κ :=
  let event := Event.loaded path password (world.files.read path).toOption
  let outcome := host.engine.load world.engine world.files path password
  (outcome.result, (world.record event).settle host outcome)

/-- Exports a loaded document. -/
def exportPdf (host : Host ε δ κ) (document : δ) (output : String) (format : Format)
    (options : Options) (world : World ε κ) : Except EngineError Unit × World ε κ :=
  let outcome := host.engine.exportPdf world.engine world.files document output format options
  (outcome.result, (world.record (.exported output format options)).settle host outcome)

/-- Lets go of the engine. -/
def release (host : Host ε δ κ) (world : World ε κ) : World ε κ :=
  { world.record .released with engine := host.engine.release world.engine }

/-! ## The capture -/

/-- Begins to catch the engine's chatter. -/
def startCapture (host : Host ε δ κ) (world : World ε κ) : Except Fault Unit × World ε κ :=
  let (result, capture) := host.capture.start world.capture
  (result, { world.record .captureStarted with capture })

/-- Ends catching. A failure to do so changes nothing about the conversion. -/
def stopCapture (host : Host ε δ κ) (world : World ε κ) : World ε κ :=
  { world.record .captureStopped with capture := (host.capture.stop world.capture).2 }

/-- Takes what was caught. -/
def readCapture (host : Host ε δ κ) (world : World ε κ) : ByteArray × World ε κ :=
  let (caught, capture) := host.capture.read world.capture
  (caught, { world.record .captureRead with capture })

end World

end PdfWorker
