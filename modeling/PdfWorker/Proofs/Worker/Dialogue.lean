import PdfWorker.Proofs.Stream.Frame
import PdfWorker.Proofs.Worker.Answers
import PdfWorker.Proofs.Worker.Serve
set_option autoImplicit false

/-! # The dialogue of a worker

What a worker sends is a matter of the frames that it is sent, one after the other, whatever the
engine does. `Dialogue` is that protocol as a relation, with no sink, no file tree and no engine in
it: one rule for each kind of message. `run_dialogue` says that every run of a worker is such a
dialogue, octet for octet.
-/

namespace PdfWorker

/-- What a worker sends in one frame. -/
inductive Sent where
  | answer (response : Response)
  | pdf (octets : ByteArray)

/-- The payload of the frame. -/
def Sent.payload : Sent → ByteArray
  | answer response => response.encode
  | pdf octets => octets

namespace Dialogue

/-! ## Messages -/

/-- The payload is the text of an object with these members. -/
def Holds (payload : ByteArray) (members : List (String × Json)) : Prop :=
  Json.parse? payload = some (.obj members)

/-- The payload is the text of an object that names its type. -/
def Typed (payload : ByteArray) (kind : String) (members : List (String × Json)) : Prop :=
  Holds payload members ∧ (Json.lookup "type" members).bind Json.asString? = some kind

/-- The types that a worker knows. -/
def kinds : List String := ["init", "convert", "convert_buffer", "quit"]

/-- Why a worker stops behind the last frame. -/
def lastReason : Except Fault Frame.Arrival → ExitReason
  | .ok (.oversized size) => .oversizedFrame size
  | .ok _ => .endOfInput
  | .error _ => .inputFailed

end Dialogue

open Dialogue in
/-- **The protocol of a worker.** `Dialogue awaited phase frames last sent why`: in a phase, and
with the number of the request whose document comes next, if one does, a worker that is sent
`frames` and then stopped by `last` sends `sent` and stops because of `why`. -/
inductive Dialogue : Option Int64 → Phase → List ByteArray → ExitReason → List Sent →
    ExitReason → Prop where
  /-- Behind the last frame nothing is sent. -/
  | over {phase last} : Dialogue none phase [] last [] last
  /-- What is no object gets an error. -/
  | noObject {phase payload frames last sent why} :
      (∀ members, ¬ Holds payload members) →
      Dialogue none phase frames last sent why →
      Dialogue none phase (payload :: frames) last
        (.answer (.error "Invalid JSON message") :: sent) why
  /-- An object whose type is missing, no text or unknown is passed over. -/
  | passedOver {phase payload members frames last sent why} :
      Holds payload members → (∀ kind ∈ kinds, ¬ Typed payload kind members) →
      Dialogue none phase frames last sent why →
      Dialogue none phase (payload :: frames) last sent why
  /-- The engine starts. -/
  | ready {payload members frames last version sent why} :
      Typed payload "init" members →
      ¬ Worker.Breaks .uninitialized (Request.initOfMembers members) →
      Dialogue none .ready frames last sent why →
      Dialogue none .uninitialized (payload :: frames) last (.answer (.ready version) :: sent) why
  /-- The engine does not start. -/
  | refused {phase payload members frames last message sent why} :
      Typed payload "init" members → ¬ Worker.Breaks phase (Request.initOfMembers members) →
      Dialogue none phase frames last sent why →
      Dialogue none phase (payload :: frames) last (.answer (.error message) :: sent) why
  /-- The one message that is not answered: the environment cannot take its font paths. -/
  | broken {phase payload members frames last} :
      Typed payload "init" members → Worker.Breaks phase (Request.initOfMembers members) →
      Dialogue none phase (payload :: frames) last [] .aborted
  /-- A file gets one answer with the number of its request. -/
  | convert {phase payload members reply frames last sent why} :
      Typed payload "convert" members → reply.id = Request.idMember members →
      Dialogue none phase frames last sent why →
      Dialogue none phase (payload :: frames) last (.answer (.result reply) :: sent) why
  /-- Behind the request to convert a document the next frame is the document. -/
  | convertBuffer {phase payload members frames last sent why} :
      Typed payload "convert_buffer" members →
      Dialogue (some (Request.idMember members)) phase frames last sent why →
      Dialogue none phase (payload :: frames) last sent why
  /-- A document, whatever its octets, gets one answer and the PDF that the answer announces. -/
  | document {id phase octets reply pdf frames last sent why} :
      reply.id = id → reply.Announces pdf →
      Dialogue none phase frames last sent why →
      Dialogue (some id) phase (octets :: frames) last
        (.answer (.bufferResult reply) :: (pdf.map Sent.pdf).toList ++ sent) why
  /-- A document that does not arrive gets its answer, too. -/
  | noDocument {id phase reply last} :
      reply.id = id → reply.success = false →
      Dialogue (some id) phase [] last [.answer (.bufferResult reply)] last
  /-- The request to stop gets no answer. -/
  | quit {phase payload members frames last} :
      Typed payload "quit" members → Dialogue none phase (payload :: frames) last [] .quit

namespace Request

/-! ## Decoding a message -/

theorem decode_of_holds {payload : ByteArray} {members : List (String × Json)}
    (h : Dialogue.Holds payload members) : decode payload = .ok (ofMembers members) := by
  rw [Dialogue.Holds] at h
  simp only [decode, h, ofJson, Json.asObject?]

theorem decode_of_not_holds {payload : ByteArray}
    (h : ∀ members, ¬ Dialogue.Holds payload members) : ∃ e, decode payload = .error e := by
  simp only [Dialogue.Holds] at h
  cases hp : Json.parse? payload with
  | none => exact ⟨_, by simp only [decode, hp]; rfl⟩
  | some v =>
      simp only [decode, hp, ofJson]
      cases v with
      | obj members => exact absurd hp (h members)
      | null | bool | int | real | str | arr => exact ⟨_, rfl⟩

/-- What an object holds, by the name of its type. -/
theorem ofMembers_cases (members : List (String × Json)) :
    (textMember "type" members = some "init"
      ∧ ofMembers members = .request (.init (initOfMembers members))) ∨
    (textMember "type" members = some "convert"
      ∧ ofMembers members = .request (.convert (fileOfMembers members))) ∨
    (textMember "type" members = some "convert_buffer"
      ∧ ofMembers members = .request (.convertBuffer (bufferOfMembers members))) ∨
    (textMember "type" members = some "quit" ∧ ofMembers members = .request .quit) ∨
    ((∀ kind ∈ Dialogue.kinds, textMember "type" members ≠ some kind)
      ∧ ∃ kind, ofMembers members = .ignored kind) := by
  unfold ofMembers
  split
  · rename_i h
    exact .inr (.inr (.inr (.inr ⟨by simp [h], none, rfl⟩)))
  · rename_i kind h
    rw [h]
    split
    · rename_i hk
      exact .inl ⟨by rw [hk], rfl⟩
    · split
      · rename_i hk
        exact .inr (.inl ⟨by rw [hk], rfl⟩)
      · split
        · rename_i hk
          exact .inr (.inr (.inl ⟨by rw [hk], rfl⟩))
        · split
          · rename_i hk
            exact .inr (.inr (.inr (.inl ⟨by rw [hk], rfl⟩)))
          · rename_i h₁ h₂ h₃ h₄
            refine .inr (.inr (.inr (.inr ⟨?_, some kind, rfl⟩)))
            intro other ho he
            rw [Option.some.injEq] at he
            subst he
            simp only [Dialogue.kinds, List.mem_cons, List.not_mem_nil, or_false] at ho
            rcases ho with ho | ho | ho | ho
            · exact h₁ ho
            · exact h₂ ho
            · exact h₃ ho
            · exact h₄ ho

end Request

namespace Turn

variable {ε δ κ : Type}

/-! ## One turn of the dialogue -/

/-- What is due, frame by frame. -/
def sent (t : Turn ε κ) : List Sent :=
  t.response.toList.map Sent.answer ++ t.pdf.toList.map Sent.pdf

theorem map_payload_sent (t : Turn ε κ) : t.sent.map Sent.payload = t.frames := by
  rw [sent, frames, List.map_append, List.map_map, List.map_map]
  congr 1
  exact List.map_id' _

/-- The turn is what the protocol says of a frame: it comes before whatever the dialogue goes on
with, or it ends the dialogue. -/
structure Follows (t : Turn ε κ) (awaited : Option Int64) (phase : Phase) (payload : ByteArray) :
    Prop where
  goesOn : t.reason = none → ∀ {frames last sent why},
    Dialogue (t.session.awaited.map (·.id)) t.session.phase frames last sent why →
    Dialogue awaited phase (payload :: frames) last (t.sent ++ sent) why
  ends : ∀ {reason}, t.reason = some reason → ∀ {frames last},
    Dialogue awaited phase (payload :: frames) last t.sent reason

end Turn

namespace Session

variable {ε δ κ : Type}

/-- A request to start the engine follows the protocol. -/
theorem answerTurn_init_follows (host : Host ε δ κ) {s : Session ε κ} (ha : s.awaited = none)
    {payload : ByteArray} {members : List (String × Json)}
    (ht : Dialogue.Typed payload "init" members) :
    (s.answerTurn host (.init (Request.initOfMembers members))).Follows none s.phase payload := by
  simp only [answerTurn]
  rcases Worker.startEngine_cases host (Request.initOfMembers members) s.phase s.world with
    ⟨hb, h⟩ | ⟨hb, hp, version, world, h⟩ | ⟨hb, message, world, h⟩
  · rw [h]
    refine ⟨by simp, ?_⟩
    rintro reason ⟨rfl⟩ frames last
    exact .broken ht hb
  · rw [h]
    refine ⟨fun _ frames last sent why hd => ?_, by simp⟩
    simp only [ha, Option.map_none] at hd
    rw [hp] at hb ⊢
    exact .ready ht hb hd
  · rw [h]
    refine ⟨fun _ frames last sent why hd => ?_, by simp⟩
    simp only [ha, Option.map_none] at hd
    exact .refused ht hb hd

/-- Every control frame follows the protocol. -/
theorem messageTurn_follows (host : Host ε δ κ) {s : Session ε κ} (ha : s.awaited = none)
    (payload : ByteArray) : (s.messageTurn host payload).Follows none s.phase payload := by
  unfold messageTurn
  by_cases hh : ∃ members, Dialogue.Holds payload members
  · obtain ⟨members, hm⟩ := hh
    rw [Request.decode_of_holds hm]
    rcases Request.ofMembers_cases members with
      ⟨ht, h⟩ | ⟨ht, h⟩ | ⟨ht, h⟩ | ⟨ht, h⟩ | ⟨ht, kind, h⟩
    · rw [h]
      exact answerTurn_init_follows host ha ⟨hm, ht⟩
    · rw [h]
      refine ⟨fun _ frames last sent why hd => ?_, by simp [answerTurn]⟩
      simp only [answerTurn, ha, Option.map_none] at hd
      exact .convert ⟨hm, ht⟩ (Worker.convert_id host _ s.phase s.world) hd
    · rw [h]
      refine ⟨fun _ frames last sent why hd => ?_, by simp [answerTurn]⟩
      exact .convertBuffer ⟨hm, ht⟩ hd
    · rw [h]
      refine ⟨by simp [answerTurn], ?_⟩
      rintro reason ⟨rfl⟩ frames last
      exact .quit ⟨hm, ht⟩
    · rw [h]
      refine ⟨fun _ frames last sent why hd => ?_, by simp⟩
      simp only [ha, Option.map_none] at hd
      exact .passedOver hm (fun kind hk htyped => ht kind hk htyped.2) hd
  · have hn : ∀ members, ¬ Dialogue.Holds payload members := fun members hm => hh ⟨members, hm⟩
    obtain ⟨e, he⟩ := Request.decode_of_not_holds hn
    rw [he]
    refine ⟨fun _ frames last sent why hd => ?_, by simp⟩
    simp only [ha, Option.map_none] at hd
    exact .noObject hn hd

/-- Every document follows the protocol. -/
theorem documentTurn_follows (host : Host ε δ κ) (s : Session ε κ) (request : BufferRequest)
    (octets : ByteArray) :
    (s.documentTurn host request (some octets) none).Follows (some request.id) s.phase octets := by
  obtain ⟨hid, hannounces, -, -⟩ :=
    Worker.convertDocument_announces host request (some octets) s.phase s.world
  refine ⟨fun _ frames last sent why hd => ?_, by simp [documentTurn]⟩
  have h : Dialogue (some request.id) s.phase (octets :: frames) last _ why :=
    .document hid hannounces hd
  unfold documentTurn at hd ⊢
  revert h
  rcases Worker.convertDocument host request (some octets) s.phase s.world with ⟨⟨reply, pdf⟩, world⟩
  cases pdf <;> exact id

/-- **Every frame follows the protocol.** -/
theorem turn_follows (host : Host ε δ κ) (s : Session ε κ) (payload : ByteArray) :
    (s.turn host (.ok (.frame payload))).Follows (s.awaited.map (·.id)) s.phase payload := by
  unfold turn
  cases ha : s.awaited with
  | none => exact messageTurn_follows host ha payload
  | some request => exact documentTurn_follows host s request payload

theorem ending_of_not_frame {arrival : Except Fault Frame.Arrival}
    (h : ∀ payload, arrival ≠ .ok (.frame payload)) :
    ending arrival = (some (Dialogue.lastReason arrival), none) := by
  rcases arrival with fault | (payload | _ | size)
  · rfl
  · exact absurd rfl (h payload)
  · rfl
  · rfl

/-- What is no frame ends the dialogue as the protocol says. -/
theorem turn_over (host : Host ε δ κ) (s : Session ε κ) {arrival : Except Fault Frame.Arrival}
    (h : ∀ payload, arrival ≠ .ok (.frame payload)) :
    (s.turn host arrival).reason = some (Dialogue.lastReason arrival)
      ∧ Dialogue (s.awaited.map (·.id)) s.phase [] (Dialogue.lastReason arrival)
          (s.turn host arrival).sent (Dialogue.lastReason arrival) := by
  unfold turn
  rw [ending_of_not_frame h]
  cases ha : s.awaited with
  | none => exact ⟨rfl, .over⟩
  | some request =>
      obtain ⟨hid, hannounces, -, hfail⟩ :=
        Worker.convertDocument_announces host request none s.phase s.world
      refine ⟨rfl, ?_⟩
      have hpdf : (Worker.convertDocument host request none s.phase s.world).1.2 = none := by
        have := hannounces.success
        rw [hfail rfl] at this
        exact Option.not_isSome_iff_eq_none.mp (by simp [← this])
      have hs : (s.documentTurn host request none (some (Dialogue.lastReason arrival))).sent
          = [.answer (.bufferResult
              (Worker.convertDocument host request none s.phase s.world).1.1)] := by
        simp only [documentTurn, Turn.sent, hpdf]
        rfl
      simp only [hs]
      exact .noDocument hid (hfail rfl)

end Session

namespace Moment

variable {ε δ κ : Type}

/-! ## Reading a stream -/

/-- Reading is cutting the stream. -/
theorem cut_of_continues {host : Host ε δ κ} {m : Moment ε κ} {payload : ByteArray}
    (h : m.arrival host = .ok (.frame payload)) :
    m.source.stream.cut host.settings.maxFrame
      = (payload :: ((m.rest host).stream.cut host.settings.maxFrame).1,
        ((m.rest host).stream.cut host.settings.maxFrame).2) := by
  obtain ⟨hnext, hrest⟩ := Frame.read_eq host.settings.maxFrame m.source
  have hn : m.source.stream.next host.settings.maxFrame = .ok (.frame payload) := hnext ▸ h
  have hs : (m.rest host).stream = m.source.stream.drop (Limits.header + payload.size) :=
    (hrest payload hn).1
  rw [Stream.cut_of_frame hn, hs]

theorem cut_of_not_frame {host : Host ε δ κ} {m : Moment ε κ}
    (h : ∀ payload, m.arrival host ≠ .ok (.frame payload)) :
    m.source.stream.cut host.settings.maxFrame = ([], m.arrival host) := by
  have hn : m.arrival host = m.source.stream.next host.settings.maxFrame :=
    (Frame.read_eq host.settings.maxFrame m.source).1
  rw [hn] at h ⊢
  exact Stream.cut_of_not_frame h

end Moment

namespace Worker

variable {ε δ κ : Type}

/-! ## Whole runs -/

/-- Where everything is taken and every answer fits, serving is a dialogue. -/
theorem serve_dialogue (host : Host ε δ κ) (m : Moment ε κ) :
    m.session.sink.Accepts →
    (∀ m' ∈ turns host m.session m.source, (m'.turn host).Fits) →
    ∃ sent, Dialogue (m.session.awaited.map (·.id)) m.session.phase
        (m.source.stream.cut host.settings.maxFrame).1
        (Dialogue.lastReason (m.source.stream.cut host.settings.maxFrame).2) sent
        (serve host m.session m.source).1
      ∧ (serve host m.session m.source).2.1.sink.accepted
        = m.session.sink.accepted ++ Frame.encodeAll (sent.map Sent.payload) := by
  -- the frame that is read is the next of the stream, and the turn follows the protocol
  induction m using serve_induction host with
  | stops m reason next h =>
      intro hk hfits
      obtain ⟨hserve, hturns⟩ := serve_of_stops h
      rw [hturns] at hfits
      obtain ⟨hr, -, heq, -⟩ := Session.finish_of_accepts hk (hfits m (List.mem_singleton.mpr rfl)) h
      refine ⟨(m.turn host).sent, ?_, by rw [hserve, Turn.map_payload_sent]; exact heq⟩
      rw [hserve]
      by_cases hf : ∃ payload, m.arrival host = .ok (.frame payload)
      · obtain ⟨payload, hp⟩ := hf
        rw [m.cut_of_continues hp]
        have hfollows := m.session.turn_follows host payload
        rw [← hp] at hfollows
        exact hfollows.ends hr.symm
      · have hn : ∀ payload, m.arrival host ≠ .ok (.frame payload) :=
          fun payload hp => hf ⟨payload, hp⟩
        obtain ⟨hreason, hd⟩ := m.session.turn_over host hn
        rw [m.cut_of_not_frame hn]
        have he : reason = Dialogue.lastReason (m.arrival host) :=
          Option.some.inj (hr.trans hreason)
        rw [he]
        exact hd
  | continues m next h ih =>
      intro hk hfits
      obtain ⟨hserve, hturns⟩ := serve_of_continues h
      rw [hturns] at hfits
      obtain ⟨hr, hacc, heq, hphase, hawaited⟩ :=
        Session.finish_of_accepts hk (hfits m (List.mem_cons_self ..)) h
      obtain ⟨sent, hd, hout⟩ := ih hacc fun m' hm => hfits m' (List.mem_cons_of_mem _ hm)
      obtain ⟨payload, hp⟩ := m.arrival_of_continues h
      have hfollows := m.session.turn_follows host payload
      rw [← hp] at hfollows
      refine ⟨(m.turn host).sent ++ sent, ?_, ?_⟩
      · rw [hserve, m.cut_of_continues hp]
        simp only [hphase, hawaited] at hd
        exact hfollows.goesOn hr.symm hd
      · rw [hserve, hout, heq, List.map_append, Turn.map_payload_sent, Frame.encodeAll_append,
          ByteArray.append_assoc]
        rfl

/-- **Every run is a dialogue.** Into a sink that takes everything, and with answers that fit into
frames, a worker writes exactly the frames of a dialogue over the frames of its stream, and stops
for the reason of that dialogue. -/
theorem run_dialogue (host : Host ε δ κ) (s : Session ε κ) (source : Source)
    (ha : s.awaited = none) (hk : s.sink.Accepts)
    (hfits : ∀ m ∈ turns host s source, (m.turn host).Fits) :
    ∃ sent, Dialogue none s.phase (source.stream.cut host.settings.maxFrame).1
        (Dialogue.lastReason (source.stream.cut host.settings.maxFrame).2) sent
        (run host s source).1
      ∧ (run host s source).2.1.sink.accepted
        = s.sink.accepted ++ Frame.encodeAll (sent.map Sent.payload) := by
  obtain ⟨sent, hd, hout⟩ := serve_dialogue host ⟨s, source⟩ hk hfits
  simp only [ha, Option.map_none] at hd
  exact ⟨sent, hd, hout⟩

/-- A source with one frame, which holds an empty list. -/
def listSource : Source := .ofOctets ⟨#[2, 0, 0, 0, 91, 93]⟩

/-- A worker that is sent a list, and then nothing. -/
theorem run_dialogue_of_list :
    (Session.fresh {}).sink.Accepts
      ∧ (∀ m ∈ turns .scripted (.fresh {}) listSource, (m.turn .scripted).Fits)
      ∧ ∃ sent, Dialogue none .uninitialized (listSource.stream.cut Limits.frame).1
          (Dialogue.lastReason (listSource.stream.cut Limits.frame).2) sent
          (run .scripted (.fresh {}) listSource).1
        ∧ (run .scripted (.fresh {}) listSource).2.1.sink.accepted
          = .empty ++ Frame.encodeAll (sent.map Sent.payload) := by
  let first : Moment ScriptedEngine ScriptedCapture := ⟨.fresh {}, listSource⟩
  let second : Moment ScriptedEngine ScriptedCapture :=
    ⟨(first.turn .scripted).finish.2, first.rest .scripted⟩
  have h₁ : (first.turn .scripted).finish = (none, (first.turn .scripted).finish.2) := by
    have hreason : (first.turn .scripted).finish.1 = none := by decide +kernel
    rw [← hreason]
  have h₂ : (second.turn .scripted).finish
      = (some .endOfInput, (second.turn .scripted).finish.2) := by
    have hreason : (second.turn .scripted).finish.1 = some .endOfInput := by decide +kernel
    rw [← hreason]
  have hfits : ∀ m ∈ turns .scripted (.fresh {}) listSource, (m.turn .scripted).Fits := by
    have hturns : turns .scripted (.fresh {}) listSource = [first, second] := by
      rw [(serve_of_continues h₁).2, (serve_of_stops h₂).2]
    rw [hturns]
    intro m hm response hr
    simp only [List.mem_cons, List.not_mem_nil, or_false] at hm
    rcases hm with rfl | rfl
    · have hanswer : (first.turn .scripted).response = some (.error "Invalid JSON message") := by
        decide +kernel
      rw [hanswer] at hr
      cases hr
      decide +kernel
    · have hanswer : (second.turn .scripted).response = none := by decide +kernel
      rw [hanswer] at hr
      cases hr
  exact ⟨Sink.accepts_default .empty, hfits,
    run_dialogue .scripted (.fresh {}) listSource rfl (Sink.accepts_default .empty) hfits⟩

end Worker

end PdfWorker
