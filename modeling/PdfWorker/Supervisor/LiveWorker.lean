import PdfWorker.Supervisor
import PdfWorker.Worker
set_option autoImplicit false

/-! # A worker as a supervisor's process

The two ends put together: a worker takes a turn for each frame that its supervisor sends, and the
supervisor reads what the worker has written. Nothing is ever late: when the worker has written
no whole frame, it is waiting for the supervisor. -/

namespace PdfWorker

/-- A worker that is reached through a link. -/
structure LiveWorker (ε κ : Type) where
  session : Session ε κ
  /-- The octets of the worker's output that the supervisor has read. -/
  read : Nat := 0
  /-- Nothing while the worker is running, else its exit code, if it ended by itself. -/
  status : Option (Option Int) := none

namespace LiveWorker

variable {ε δ κ : Type}

/-- The worker takes a turn, and ends if the turn gives a reason. -/
def take (host : Host ε δ κ) (arrival : Except Fault Frame.Arrival) (w : LiveWorker ε κ) :
    LiveWorker ε κ :=
  if w.status.isSome then w
  else match w.session.take host arrival with
    | (none, session) => { w with session }
    | (some reason, session) =>
      { w with session := session.close host, status := some (some reason.exitCode) }

/-- What arrives at a worker whose supervisor sends a frame. -/
def arrival (host : Host ε δ κ) (payload : ByteArray) : Except Fault Frame.Arrival :=
  if host.settings.maxFrame < payload.size then .ok (.oversized payload.size)
  else .ok (.frame payload)

/-- How a write to a worker that has ended fails. -/
def gone : Fault := ⟨.brokenPipe, "Broken pipe (os error 32)"⟩

def send (host : Host ε δ κ) (payload : ByteArray) (w : LiveWorker ε κ) :
    Except LinkError Unit × LiveWorker ε κ :=
  if Limits.frame < payload.size then (.error (.frameTooLarge payload.size Limits.frame), w)
  else if w.status.isSome then (.error (.io gone), w)
  else (.ok (), w.take host (arrival host payload))

def receive (w : LiveWorker ε κ) : Awaited × LiveWorker ε κ :=
  match Frame.at? w.session.sink.accepted w.read with
  | some (payload, stop) => (.arrived (.ok (.frame payload)), { w with read := stop })
  | none => if w.status.isSome then (.arrived (.ok .ended), w) else (.late, w)

def hangUp (host : Host ε δ κ) (w : LiveWorker ε κ) : LiveWorker ε κ :=
  w.take host (.ok .ended)

def kill (w : LiveWorker ε κ) : LiveWorker ε κ :=
  { w with status := w.status.or (some none) }

/-- The link to a worker. -/
def link (host : Host ε δ κ) : Link (LiveWorker ε κ) where
  send := send host
  receive _ := receive
  hangUp := hangUp host
  status w := .ok w.status
  outlast _ w := (.ok w.status, w)
  kill w := (.ok (), w.kill)
  reap w := (.ok (), w)

end LiveWorker

end PdfWorker
