import PdfWorker.Supervisor
set_option autoImplicit false

/-! # Processes that follow a script

For rehearsing supervisors: a process whose answers are all written at once, that keeps what it
is sent, and that ends when the stream to it is closed. -/

namespace PdfWorker

/-- What a process does besides answering. -/
inductive Habit where
  /-- It closes its output after its answers. -/
  | closes
  /-- It leaves its output open until it ends. -/
  | lingers
  /-- It never ends by itself, and its output stays open. -/
  | staysOn
deriving DecidableEq, Repr

/-- A process that follows a script. -/
structure Peer where
  /-- What it has written and nobody has read. -/
  replies : Source
  habit : Habit := .closes
  /-- The code with which it ends by itself. The system reports the lowest octet of it. -/
  exitCode : Int := 0
  /-- What it is sent. -/
  heard : Sink := {}
  /-- Nothing while it is running, else its exit code, if it ended by itself. -/
  status : Option (Option Int) := none
  /-- Whether its output was given up after something that is no frame. -/
  deaf : Bool := false

namespace Peer

def send (payload : ByteArray) (p : Peer) : Except LinkError Unit × Peer :=
  let (result, heard) := Frame.write payload p.heard
  (result, { p with heard })

/-- Whether its output is closed. -/
def isClosed (p : Peer) : Bool := p.habit = .closes || p.status.isSome

def receive (p : Peer) : Awaited × Peer :=
  if p.deaf then (.arrived (.ok .ended), p)
  else match Frame.read Limits.frame p.replies with
    | (.ok (.frame payload), replies) => (.arrived (.ok (.frame payload)), { p with replies })
    | (.ok .ended, replies) =>
      if p.isClosed then (.arrived (.ok .ended), { p with replies, deaf := true })
      else (.late, { p with replies })
    | (arrival, replies) => (.arrived arrival, { p with replies, deaf := true })

def hangUp (p : Peer) : Peer :=
  if p.status.isSome || p.habit = .staysOn then p
  else { p with status := some (some (p.exitCode % 256)) }

def kill (p : Peer) : Peer :=
  { p with status := p.status.or (some none) }

/-- The link to a process that follows a script. -/
def link : Link Peer where
  send := send
  receive _ := receive
  hangUp := hangUp
  status p := .ok p.status
  outlast _ p := (.ok p.status, p)
  kill p := (.ok (), p.kill)
  reap p := (.ok (), p)

end Peer

end PdfWorker
