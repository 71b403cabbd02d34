import PdfWorker.Supervisor
set_option autoImplicit false

/-! # Sessions of a supervisor

An `Operation` is what a caller has a supervisor do, and `Supervisor.steps` is a whole session: one
step after the other, each with its result and with what passed over the link meanwhile. What passes
is what `Link.overheard` writes down, a link that is otherwise the link it listens to. Listening
changes nothing (`forget_perform`), so what is said of the events of a step is said of the step.
-/

namespace PdfWorker

/-- What passes over a link. -/
inductive LinkEvent where
  /-- A frame was to be written, with this result. -/
  | sent (payload : ByteArray) (result : Except LinkError Unit)
  /-- A frame was waited for. -/
  | received (awaited : Awaited)

/-- The state of a process and what passed over the link to it, oldest first. -/
structure Overheard (π : Type) where
  process : π
  events : List LinkEvent := []

variable {π α : Type}

/-- **The link whose frames are written down.** -/
def Link.overheard (link : Link π) : Link (Overheard π) where
  send payload p :=
    let (result, process) := link.send payload p.process
    (result, ⟨process, p.events ++ [.sent payload result]⟩)
  receive milliseconds p :=
    let (awaited, process) := link.receive milliseconds p.process
    (awaited, ⟨process, p.events ++ [.received awaited]⟩)
  hangUp p := { p with process := link.hangUp p.process }
  status p := link.status p.process
  outlast milliseconds p :=
    let (status, process) := link.outlast milliseconds p.process
    (status, { p with process })
  kill p :=
    let (result, process) := link.kill p.process
    (result, { p with process })
  reap p :=
    let (result, process) := link.reap p.process
    (result, { p with process })

/-! ## Operations -/

/-- What a caller has a supervisor do. -/
inductive Operation where
  | startEngine (request : Request)
  | convert (request : FileRequest)
  | convertDocument (request : BufferRequest) (document : ByteArray)
  | sendFrame (payload : ByteArray)
  | readResponse
  | shutdownWithin (milliseconds : Nat)

/-- What an operation gives. -/
inductive Operation.Value where
  | version (text : String)
  | conversion (reply : ConversionReply)
  | document (conversion : BufferConversion)
  | done
  | response (response : Response)
  | status (code : Option Int)

/-- What needs the worker: starting its engine, and converting what fits into a frame. -/
def Operation.NeedsWorker : Operation → Prop
  | .startEngine _ | .convert _ => True
  | .convertDocument _ document => document.size ≤ Limits.frame
  | .sendFrame _ | .readResponse | .shutdownWithin _ => False

namespace Supervisor

/-- What came of an operation, with its value among those of all operations. -/
def valued (value : α → Operation.Value) (result : Except LinkError α × Supervisor π) :
    Except LinkError Operation.Value × Supervisor π :=
  (result.1.map value, result.2)

/-- Does what the caller says. -/
def perform (link : Link π) (op : Operation) (s : Supervisor π) :
    Except LinkError Operation.Value × Supervisor π :=
  match op with
  | .startEngine request => valued .version (s.startEngine link request)
  | .convert request => valued .conversion (s.convert link request)
  | .convertDocument request document =>
    valued .document (s.convertDocument link request document)
  | .sendFrame payload => valued (fun _ => .done) (s.sendFrame link payload)
  | .readResponse => valued .response (s.readResponse link)
  | .shutdownWithin milliseconds => valued .status (s.shutdownWithin link milliseconds)

/-! ## Listening -/

/-- Starts listening. -/
def overheard (s : Supervisor π) : Supervisor (Overheard π) :=
  ⟨⟨s.process, []⟩, s.connected, s.finished, s.version, s.nextId, s.timeout⟩

/-- The supervisor without what was heard. -/
def forget (s : Supervisor (Overheard π)) : Supervisor π :=
  ⟨s.process.process, s.connected, s.finished, s.version, s.nextId, s.timeout⟩

/-- What came of something, without what was heard. -/
def unheard (result : α × Supervisor (Overheard π)) : α × Supervisor π :=
  (result.1, result.2.forget)

section

variable (link : Link π) (s : Supervisor (Overheard π))

theorem forget_abandon : (s.abandon link.overheard).forget = s.forget.abandon link := by
  unfold abandon
  show forget (if s.finished then s else _) = if s.finished then s.forget else _
  split <;> rfl

theorem unheard_exited :
    unheard (s.exited link.overheard : Except LinkError α × _) = s.forget.exited link := by
  show (Except.error _, (s.abandon link.overheard).forget) = _
  rw [forget_abandon]
  rfl

theorem unheard_sendFrame (payload : ByteArray) :
    unheard (s.sendFrame link.overheard payload) = s.forget.sendFrame link payload := by
  have hsend : link.overheard.send payload s.process
      = ((link.send payload s.forget.process).1, ⟨(link.send payload s.forget.process).2,
        s.process.events ++ [.sent payload (link.send payload s.forget.process).1]⟩) := rfl
  unfold sendFrame
  rw [hsend]
  show unheard (if s.connected then _ else _) = if s.connected then _ else _
  split
  · rcases link.send payload s.forget.process with ⟨e | u, process⟩
    · cases e with
      | io fault =>
          show unheard (if fault.kind = .brokenPipe then _ else _)
            = if fault.kind = .brokenPipe then _ else _
          split
          · exact unheard_exited link _
          · exact congrArg (Prod.mk _) (forget_abandon link _)
      | workerExited | timeout => exact congrArg (Prod.mk _) (forget_abandon link _)
      | _ => rfl
    · rfl
  · exact unheard_exited link s

theorem unheard_readPayload :
    unheard (s.readPayload link.overheard) = s.forget.readPayload link := by
  have hreceive : link.overheard.receive s.timeout s.process
      = ((link.receive s.timeout s.forget.process).1, ⟨(link.receive s.timeout s.forget.process).2,
        s.process.events ++ [.received (link.receive s.timeout s.forget.process).1]⟩) := rfl
  have htimeout : s.forget.timeout = s.timeout := rfl
  unfold readPayload
  rw [hreceive, htimeout]
  rcases link.receive s.timeout s.forget.process with
    ⟨(fault | (payload | _ | size)) | _, process⟩
  · exact congrArg (Prod.mk _) (forget_abandon link _)
  · rfl
  · exact unheard_exited link _
  · exact congrArg (Prod.mk _) (forget_abandon link _)
  · exact congrArg (Prod.mk _) (forget_abandon link _)

theorem unheard_readResponse :
    unheard (s.readResponse link.overheard) = s.forget.readResponse link := by
  unfold readResponse
  rw [← unheard_readPayload]
  rcases s.readPayload link.overheard with ⟨e | payload, next⟩ <;> rfl

theorem unheard_ask (request : Request) :
    unheard (s.ask link.overheard request) = s.forget.ask link request := by
  unfold ask send
  rw [← unheard_sendFrame]
  rcases s.sendFrame link.overheard request.encode with ⟨e | u, next⟩
  · rfl
  · exact unheard_readResponse link next

theorem unheard_startEngine (request : Request) :
    unheard (s.startEngine link.overheard request) = s.forget.startEngine link request := by
  unfold startEngine
  rw [← unheard_ask]
  rcases s.ask link.overheard request with ⟨e | (_ | _ | _ | _), next⟩ <;> rfl

theorem unheard_number (id : Int64) : unheard (s.number id) = s.forget.number id := by
  unfold number
  split <;> rfl

theorem unheard_convert (request : FileRequest) :
    unheard (s.convert link.overheard request) = s.forget.convert link request := by
  unfold convert
  rw [← unheard_number]
  rcases s.number request.id with ⟨id, next⟩
  dsimp only [unheard]
  rw [← unheard_ask]
  rcases next.ask link.overheard (.convert { request with id }) with ⟨e | (_ | _ | _ | _), last⟩ <;>
    rfl

theorem unheard_readConversion :
    unheard (s.readConversion link.overheard) = s.forget.readConversion link := by
  unfold readConversion
  rw [← unheard_readResponse]
  rcases s.readResponse link.overheard with ⟨e | (_ | _ | _ | reply), next⟩
  · rfl
  · rfl
  · rfl
  · rfl
  · show unheard (if reply.success then _ else _) = if reply.success then _ else _
    rw [← unheard_readPayload]
    split
    · rcases next.readPayload link.overheard with ⟨e | pdf, last⟩ <;> rfl
    · rfl

theorem unheard_convertDocument (request : BufferRequest) (document : ByteArray) :
    unheard (s.convertDocument link.overheard request document)
      = s.forget.convertDocument link request document := by
  unfold convertDocument
  split
  · rfl
  · rw [← unheard_number]
    rcases s.number request.id with ⟨id, next⟩
    dsimp only [unheard, send]
    rw [← unheard_sendFrame]
    rcases next.sendFrame link.overheard (Request.convertBuffer { request with
      id, dataSize := some (UInt64.ofNat document.size) }).encode with ⟨e | u, sent⟩
    · rfl
    · dsimp only [unheard]
      rw [← unheard_sendFrame]
      rcases sent.sendFrame link.overheard document with ⟨e | u, last⟩
      · exact congrArg (Prod.mk _) (forget_abandon link last)
      · exact unheard_readConversion link last

theorem forget_hangUp : (s.hangUp link.overheard).forget = s.forget.hangUp link := by
  unfold hangUp
  show forget (if s.connected then _ else _) = if s.connected then _ else _
  split <;> rfl

theorem putDown_overheard (milliseconds : Nat) (p : Overheard π) :
    putDown link.overheard milliseconds p
      = ((putDown link milliseconds p.process).1,
        { p with process := (putDown link milliseconds p.process).2 }) := by
  have hkill : link.overheard.kill p
      = ((link.kill p.process).1, { p with process := (link.kill p.process).2 }) := rfl
  have hreap : ∀ process, link.overheard.reap { p with process }
      = ((link.reap process).1, { p with process := (link.reap process).2 }) := fun _ => rfl
  unfold putDown
  rw [hkill]
  rcases link.kill p.process with ⟨fault | u, process⟩
  · rfl
  · simp only [hreap]
    rcases link.reap process with ⟨fault | u, process'⟩ <;> rfl

theorem unheard_shutdownWithin (milliseconds : Nat) :
    unheard (s.shutdownWithin link.overheard milliseconds)
      = s.forget.shutdownWithin link milliseconds := by
  unfold shutdownWithin
  rw [← forget_hangUp]
  have houtlast : link.overheard.outlast milliseconds (s.hangUp link.overheard).process
      = ((link.outlast milliseconds (s.hangUp link.overheard).forget.process).1,
        ⟨(link.outlast milliseconds (s.hangUp link.overheard).forget.process).2,
          (s.hangUp link.overheard).process.events⟩) := rfl
  dsimp only
  rw [houtlast]
  rcases link.outlast milliseconds (s.hangUp link.overheard).forget.process with
    ⟨fault | (_ | status), process⟩
  · rfl
  · simp only [putDown_overheard]
    rfl
  · rfl

/-- **Listening changes nothing** about what an operation does. -/
theorem unheard_perform (op : Operation) :
    unheard (s.perform link.overheard op) = s.forget.perform link op := by
  cases op with
  | startEngine request => exact congrArg (valued _) (unheard_startEngine link s request)
  | convert request => exact congrArg (valued _) (unheard_convert link s request)
  | convertDocument request document =>
      exact congrArg (valued _) (unheard_convertDocument link s request document)
  | sendFrame payload => exact congrArg (valued _) (unheard_sendFrame link s payload)
  | readResponse => exact congrArg (valued _) (unheard_readResponse link s)
  | shutdownWithin milliseconds =>
      exact congrArg (valued _) (unheard_shutdownWithin link s milliseconds)

end

end Supervisor

/-! ## Steps -/

/-- **One step of a session.** -/
structure Step (π : Type) where
  before : Supervisor π
  operation : Operation
  result : Except LinkError Operation.Value
  /-- What passed over the link meanwhile, oldest first. -/
  events : List LinkEvent
  after : Supervisor π

namespace Supervisor

/-- The step that an operation takes. -/
def step (link : Link π) (op : Operation) (s : Supervisor π) : Step π where
  before := s
  operation := op
  result := (s.perform link op).1
  events := (s.overheard.perform link.overheard op).2.process.events
  after := (s.perform link op).2

/-- Listening changes nothing about a step. -/
theorem unheard_step (link : Link π) (op : Operation) (s : Supervisor π) :
    unheard (s.overheard.perform link.overheard op)
      = ((s.step link op).result, (s.step link op).after) :=
  unheard_perform link s.overheard op

/-- **A session**: the steps that these operations take, one after the other. -/
def steps (link : Link π) : List Operation → Supervisor π → List (Step π)
  | [], _ => []
  | op :: ops, s => s.step link op :: steps link ops (s.step link op).after

end Supervisor

end PdfWorker
