import PdfWorker.Proofs.Request
import PdfWorker.Proofs.Supervisor.Link
set_option autoImplicit false

/-! # Calls

A `Call` is what a supervisor has a worker do, with what the caller gave. `Call.request` is the
request that goes out for it, `Call.turn` is the turn that a worker takes for that request, and
`Turn.result` is what the supervisor makes of the turn. `Supervisor.call` makes the call; the lemmas
behind it say how it ends, in terms of what comes back from the link.
-/

namespace PdfWorker

/-- What a supervisor has a worker do. -/
inductive Call where
  | start (request : InitRequest)
  | convert (request : FileRequest)
  | convertDocument (request : BufferRequest) (document : ByteArray)

/-- What a call gives. -/
inductive Answer where
  | version (text : String)
  | conversion (reply : ConversionReply)
  | document (conversion : BufferConversion)

namespace Call

/-- The number that the caller gave. -/
def givenId : Call → Int64
  | start _ => 0
  | convert request => request.id
  | convertDocument request _ => request.id

/-- The request that goes out with this number. -/
def request (id : Int64) : Call → Request
  | start request => .init request
  | convert request => .convert { request with id }
  | convertDocument request document =>
    .convertBuffer { request with id, dataSize := some (UInt64.ofNat document.size) }

/-- The document that follows the request. -/
def document? : Call → Option ByteArray
  | convertDocument _ document => some document
  | _ => none

/-- The frames of the call. -/
def frames (id : Int64) (c : Call) : List ByteArray :=
  (c.request id).encode :: c.document?.toList

/-- No frame of the call is too large. -/
def Sendable (id : Int64) (c : Call) : Prop :=
  ∀ payload ∈ c.frames id, payload.size ≤ Limits.frame

variable {ε δ κ : Type}

/-- **What a worker makes of the call**, with no link between. -/
def turn (host : Host ε δ κ) (id : Int64) (c : Call) (s : Session ε κ) : Turn ε κ :=
  match c with
  | start request => s.answerTurn host (.init request)
  | convert request => s.answerTurn host (.convert (FileRequest.normal { request with id }))
  | convertDocument request document =>
    s.documentTurn host (BufferRequest.normal
      { request with id, dataSize := some (UInt64.ofNat document.size) }) (some document) none

end Call

/-- The exit code of a worker that was broken off. -/
def abortedStatus : Option Int := some ExitReason.aborted.exitCode

/-- **What a supervisor makes of a turn.** -/
def Turn.result {ε κ : Type} (t : Turn ε κ) : Except LinkError Answer :=
  match t.response with
  | some (.ready version) => .ok (.version version)
  | some (.error message) => .error (.initFailed message)
  | some (.result reply) => .ok (.conversion reply)
  | some (.bufferResult reply) => .ok (.document ⟨reply, t.pdf⟩)
  | none => .error (.workerExited abortedStatus)

namespace Supervisor

variable {π : Type}

/-- The number with which a call goes out. -/
def idFor (c : Call) (s : Supervisor π) : Int64 := (s.number c.givenId).1

/-- Makes a call. -/
def call (link : Link π) (c : Call) (s : Supervisor π) : Except LinkError Answer × Supervisor π :=
  match c with
  | .start request =>
    let (result, s) := s.startEngine link (.init request)
    (result.map .version, s)
  | .convert request =>
    let (result, s) := s.convert link request
    (result.map .conversion, s)
  | .convertDocument request document =>
    let (result, s) := s.convertDocument link request document
    (result.map .document, s)

/-- Makes calls, one after the other. -/
def callAll (link : Link π) : List Call → Supervisor π →
    List (Except LinkError Answer) × Supervisor π
  | [], s => ([], s)
  | c :: calls, s =>
    let (result, s) := s.call link c
    let (results, s) := callAll link calls s
    (result :: results, s)

/-! ## How calls end -/

section

variable {link : Link π} {s s' : Supervisor π} {e : LinkError}

theorem call_start_of_error {request : InitRequest}
    (h : s.ask link (.init request) = (.error e, s')) :
    s.call link (.start request) = (.error e, s') := by
  rw [call, startEngine, h]
  rfl

theorem call_start_of_ready {request : InitRequest} {version : String}
    (h : s.ask link (.init request) = (.ok (.ready version), s')) :
    s.call link (.start request) = (.ok (.version version), { s' with version := some version }) := by
  rw [call, startEngine, h]
  rfl

theorem call_start_of_refusal {request : InitRequest} {message : String}
    (h : s.ask link (.init request) = (.ok (.error message), s')) :
    s.call link (.start request) = (.error (.initFailed message), s') := by
  rw [call, startEngine, h]
  rfl

theorem call_convert_of_error {request : FileRequest}
    (h : (s.number request.id).2.ask link (.convert { request with id := (s.number request.id).1 })
      = (.error e, s')) :
    s.call link (.convert request) = (.error e, s') := by
  have hconvert : s.convert link request = (.error e, s') := by
    rw [convert]
    simp only [h]
  rw [call, hconvert]
  rfl

theorem call_convert_of_reply {request : FileRequest} {reply : ConversionReply}
    (h : (s.number request.id).2.ask link (.convert { request with id := (s.number request.id).1 })
      = (.ok (.result reply), s')) :
    s.call link (.convert request) = (.ok (.conversion reply), s') := by
  have hconvert : s.convert link request = (.ok reply, s') := by
    rw [convert]
    simp only [h]
  rw [call, hconvert]
  rfl

theorem call_document_of_large (link : Link π) (request : BufferRequest) {document : ByteArray}
    (h : Limits.frame < document.size) (s : Supervisor π) :
    s.call link (.convertDocument request document)
      = (.error (.frameTooLarge document.size Limits.frame), s) := by
  rw [call, convertDocument, if_pos h]
  rfl

theorem call_document_of_error {request : BufferRequest} {document : ByteArray}
    (hd : document.size ≤ Limits.frame)
    (h : (s.number request.id).2.send link (.convertBuffer { request with
      id := (s.number request.id).1, dataSize := some (UInt64.ofNat document.size) })
      = (.error e, s')) :
    s.call link (.convertDocument request document) = (.error e, s') := by
  have hconvert : s.convertDocument link request document = (.error e, s') := by
    rw [convertDocument, if_neg (Nat.not_lt.mpr hd)]
    simp only [h]
  rw [call, hconvert]
  rfl

theorem call_document_of_reply {request : BufferRequest} {document : ByteArray}
    {s₁ s₂ : Supervisor π} {conversion : BufferConversion} (hd : document.size ≤ Limits.frame)
    (hrequest : (s.number request.id).2.send link (.convertBuffer { request with
      id := (s.number request.id).1, dataSize := some (UInt64.ofNat document.size) })
      = (.ok (), s₁))
    (hdocument : s₁.sendFrame link document = (.ok (), s₂))
    (hread : s₂.readConversion link = (.ok conversion, s')) :
    s.call link (.convertDocument request document) = (.ok (.document conversion), s') := by
  have hconvert : s.convertDocument link request document = (.ok conversion, s') := by
    rw [convertDocument, if_neg (Nat.not_lt.mpr hd)]
    simp only [hrequest, hdocument, hread]
  rw [call, hconvert]
  rfl

end

end Supervisor

end PdfWorker
