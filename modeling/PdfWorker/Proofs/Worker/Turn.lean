import PdfWorker.Proofs.Stream.Sink
import PdfWorker.Proofs.Worker.Answers
set_option autoImplicit false

/-! # Turns

A turn of a worker first decides everything and then writes. `Session.turn` is the first half: the
answer and the PDF that are due, the reason to stop, and the session with nothing written yet.
`Turn.finish` is the second half: the frames that are due go out one after the other, and the first
that cannot be written ends the worker. `Session.take_eq` says that a turn is the two halves, and
`Session.decides_turn` which kinds of turns there are.
-/

namespace PdfWorker

/-- What a turn comes to, before anything is written. -/
structure Turn (ε κ : Type) where
  /-- The answer that is due. -/
  response : Option Response := none
  /-- The PDF that is due behind it. -/
  pdf : Option ByteArray := none
  /-- The reason to stop, once all that is due is written. -/
  reason : Option ExitReason := none
  session : Session ε κ

namespace Session

variable {ε δ κ : Type}

/-! ## Deciding -/

/-- The turn of a request. -/
def answerTurn (host : Host ε δ κ) (request : Request) (s : Session ε κ) : Turn ε κ :=
  match request with
  | .init request =>
    match Worker.startEngine host request s.phase s.world with
    | (some response, phase, world) => { response, session := { s with phase, world } }
    | (none, phase, world) => { reason := some .aborted, session := { s with phase, world } }
  | .convert request =>
    let (reply, world) := Worker.convert host request s.phase s.world
    { response := some (.result reply), session := { s with world } }
  | .convertBuffer request => { session := { s with awaited := some request } }
  | .quit => { reason := some .quit, session := s }

/-- The turn of a control frame. -/
def messageTurn (host : Host ε δ κ) (payload : ByteArray) (s : Session ε κ) : Turn ε κ :=
  match Request.decode payload with
  | .ok (.request request) => s.answerTurn host request
  | .ok (.ignored _) => { session := s }
  | .error _ => { response := some (.error "Invalid JSON message"), session := s }

/-- The turn of a document, or of its absence. -/
def documentTurn (host : Host ε δ κ) (request : BufferRequest) (document : Option ByteArray)
    (reason : Option ExitReason) (s : Session ε κ) : Turn ε κ :=
  let ((reply, pdf), world) := Worker.convertDocument host request document s.phase s.world
  { response := some (.bufferResult reply), pdf, reason,
    session := { s with world, awaited := none } }

/-- **The first half of a turn**: what arrives where a frame is expected is answered, and nothing
is written. -/
def turn (host : Host ε δ κ) (arrival : Except Fault Frame.Arrival) (s : Session ε κ) :
    Turn ε κ :=
  let (reason, payload) := ending arrival
  match s.awaited, payload with
  | some request, document => s.documentTurn host request document reason
  | none, some payload => s.messageTurn host payload
  | none, none => { reason, session := s }

/-! ## Writing -/

/-- Writes frames one after the other, up to the first that cannot be written. -/
def sendAll : List ByteArray → Session ε κ → Option ExitReason × Session ε κ
  | [], s => (none, s)
  | payload :: rest, s =>
    match s.send payload with
    | (none, s) => sendAll rest s
    | (some reason, s) => (some reason, s)

theorem sendAll_singleton (payload : ByteArray) (s : Session ε κ) :
    s.sendAll [payload] = s.send payload := by
  rw [sendAll]
  split
  · rename_i s' h
    rw [h]; rfl
  · rename_i h
    rw [h]

theorem sendBoth_eq (payload : ByteArray) (more : Option ByteArray) (s : Session ε κ) :
    s.sendBoth payload more = s.sendAll (payload :: more.toList) := by
  unfold sendBoth
  rw [sendAll]
  rcases s.send payload with ⟨_ | reason, next⟩
  · cases more with
    | none => rfl
    | some frame => exact (sendAll_singleton frame next).symm
  · cases more <;> rfl

end Session

namespace Turn

variable {ε δ κ : Type}

/-- The frames that are due, in order. -/
def frames (t : Turn ε κ) : List ByteArray :=
  t.response.toList.map Response.encode ++ t.pdf.toList

/-- The answer that is due fits into a frame. -/
def Fits (t : Turn ε κ) : Prop := ∀ response ∈ t.response, response.encode.size ≤ Limits.frame

/-- **The second half of a turn**: what is due is written. -/
def finish (t : Turn ε κ) : Option ExitReason × Session ε κ :=
  let (failed, s) := t.session.sendAll t.frames
  (failed.or t.reason, s)

end Turn

namespace Session

variable {ε δ κ : Type}

theorem answer_eq (host : Host ε δ κ) (request : Request) (s : Session ε κ) :
    s.answer host request = (s.answerTurn host request).finish := by
  cases request with
  | init request =>
      simp only [answer, answerTurn]
      rcases Worker.startEngine host request s.phase s.world with ⟨_ | response, phase, world⟩
      · rfl
      · simp only [Turn.finish, Turn.frames, Option.toList_some, Option.toList_none,
          List.map_cons, List.map_nil, List.append_nil, sendAll_singleton, Option.or_none]
  | convert request =>
      simp only [answer, answerTurn, Turn.finish, Turn.frames, Option.toList_some,
        Option.toList_none, List.map_cons, List.map_nil, List.append_nil, sendAll_singleton,
        Option.or_none]
  | convertBuffer request => rfl
  | quit => rfl

theorem takeMessage_eq (host : Host ε δ κ) (payload : ByteArray) (s : Session ε κ) :
    s.takeMessage host payload = (s.messageTurn host payload).finish := by
  unfold takeMessage messageTurn
  rcases Request.decode payload with e | (request | kind)
  · simp only [Turn.finish, Turn.frames, Option.toList_some, Option.toList_none, List.map_cons,
      List.map_nil, List.append_nil, sendAll_singleton, Option.or_none]
  · exact answer_eq host request s
  · rfl

theorem takeDocument_eq (host : Host ε δ κ) (request : BufferRequest)
    (document : Option ByteArray) (reason : Option ExitReason) (s : Session ε κ) :
    ((s.takeDocument host request document).1.or reason,
      (s.takeDocument host request document).2)
      = (s.documentTurn host request document reason).finish := by
  unfold takeDocument documentTurn
  simp only [sendBoth_eq, Turn.finish, Turn.frames, Option.toList_some, List.map_cons,
    List.map_nil, List.singleton_append]

/-- **A turn is its two halves.** -/
theorem take_eq (host : Host ε δ κ) (arrival : Except Fault Frame.Arrival) (s : Session ε κ) :
    s.take host arrival = (s.turn host arrival).finish := by
  unfold take turn
  rcases ending arrival with ⟨reason, payload⟩
  cases hs : s.awaited with
  | some request =>
      simp only
      exact takeDocument_eq host request payload reason s
  | none =>
      cases payload with
      | some payload => exact takeMessage_eq host payload s
      | none => simp only [Turn.finish, Turn.frames, Option.toList_none, List.map_nil,
          List.append_nil, sendAll, Option.none_or]

end Session

namespace Session

variable {ε δ κ : Type}

/-! ## Kinds of turns -/

/-- **What a session may decide**, whatever arrives. -/
inductive Decides (host : Host ε δ κ) (s : Session ε κ) : Turn ε κ → Prop where
  /-- Nothing is due. -/
  | quiet {reason} : reason ≠ some .outputFailed → Decides host s { reason, session := s }
  /-- A message that is no object is told. -/
  | noObject :
      Decides host s { response := some (.error "Invalid JSON message"), session := s }
  /-- A request to start the engine is answered. -/
  | started {request response phase world} :
      Worker.startEngine host request s.phase s.world = (some response, phase, world) →
      Decides host s { response := some response, session := { s with phase, world } }
  /-- A request to start the engine breaks the worker off. -/
  | broken {request phase world} :
      Worker.startEngine host request s.phase s.world = (none, phase, world) →
      Decides host s { reason := some .aborted, session := { s with phase, world } }
  /-- A request to convert a file is answered. -/
  | file {request reply world} : Worker.convert host request s.phase s.world = (reply, world) →
      Decides host s { response := some (.result reply), session := { s with world } }
  /-- The next frame is to be a document. -/
  | waiting {request} : Decides host s { session := { s with awaited := some request } }
  /-- A document, or its absence, is answered. -/
  | document {request document reason reply pdf world} :
      Worker.convertDocument host request document s.phase s.world = ((reply, pdf), world) →
      reason ≠ some .outputFailed →
      Decides host s ⟨some (.bufferResult reply), pdf, reason,
        { s with world, awaited := none }⟩

theorem decides_answerTurn (host : Host ε δ κ) (request : Request) (s : Session ε κ) :
    s.Decides host (s.answerTurn host request) := by
  cases request with
  | init request =>
      simp only [answerTurn]
      rcases h : Worker.startEngine host request s.phase s.world with
        ⟨_ | response, phase, world⟩
      · exact .broken h
      · exact .started h
  | convert request => exact .file rfl
  | convertBuffer request => exact .waiting
  | quit => exact .quiet (by simp)

/-- **Every turn is of one of these kinds.** -/
theorem decides_turn (host : Host ε δ κ) (arrival : Except Fault Frame.Arrival)
    (s : Session ε κ) : s.Decides host (s.turn host arrival) := by
  have hending : (ending arrival).1 ≠ some .outputFailed := by
    unfold ending
    split <;> simp
  unfold turn
  revert hending
  rcases ending arrival with ⟨reason, payload⟩
  intro hending
  cases s.awaited with
  | some request => exact .document rfl hending
  | none =>
      cases payload with
      | none => exact .quiet hending
      | some payload =>
          simp only [messageTurn]
          rcases Request.decode payload with e | (request | kind)
          · exact .noObject
          · exact decides_answerTurn host request s
          · exact .quiet (by simp)

/-- What is decided leaves the sink as it was. -/
theorem sink_turn (host : Host ε δ κ) (arrival : Except Fault Frame.Arrival) (s : Session ε κ) :
    (s.turn host arrival).session.sink = s.sink := by
  have h := s.decides_turn host arrival
  generalize s.turn host arrival = t at h
  cases h <;> rfl

/-- No turn is decided to end as if writing had failed. -/
theorem reason_turn_ne (host : Host ε δ κ) (arrival : Except Fault Frame.Arrival)
    (s : Session ε κ) : (s.turn host arrival).reason ≠ some .outputFailed := by
  have h := s.decides_turn host arrival
  generalize s.turn host arrival = t at h
  cases h with
  | quiet hreason => exact hreason
  | document _ hreason => exact hreason
  | noObject | started | broken | file | waiting => simp

/-- The PDF that is due fits into a frame. -/
theorem pdf_turn_le (host : Host ε δ κ) (arrival : Except Fault Frame.Arrival) (s : Session ε κ) :
    ∀ octets ∈ (s.turn host arrival).pdf, octets.size ≤ Limits.frame := by
  have h := s.decides_turn host arrival
  generalize s.turn host arrival = t at h
  cases h with
  | @document request document _ _ _ _ hd _ =>
      have hsize :=
        (Worker.convertDocument_announces host request document s.phase s.world).2.2.1
      rw [hd] at hsize
      exact hsize
  | quiet | noObject | started | broken | file | waiting => simp

/-! ## Writing what is due -/

/-- Writing changes the sink and the log. -/
theorem sendAll_session (frames : List ByteArray) (s : Session ε κ) :
    ∃ sink log, (s.sendAll frames).2 = { s with sink, world := { s.world with log } } := by
  induction frames generalizing s with
  | nil => exact ⟨s.sink, s.world.log, rfl⟩
  | cons payload rest ih =>
      rw [sendAll, send]
      rcases Frame.write payload s.sink with ⟨e | u, sink⟩
      · exact ⟨sink, s.world.log, rfl⟩
      · exact ih _

/-- Where everything is taken, it stays so, whatever is written. -/
theorem accepts_sendAll (frames : List ByteArray) {s : Session ε κ} (h : s.sink.Accepts) :
    (s.sendAll frames).2.sink.Accepts := by
  induction frames generalizing s with
  | nil => exact h
  | cons payload rest ih =>
      have hwritten := Frame.accepts_write h payload
      rw [sendAll, send]
      rcases hw : Frame.write payload s.sink with ⟨e | u, sink⟩
      all_goals rw [hw] at hwritten
      · exact hwritten
      · exact ih hwritten

/-- Where everything is taken, all frames within the limit are written. -/
theorem sendAll_of_accepts {frames : List ByteArray} {s : Session ε κ} (h : s.sink.Accepts)
    (hs : ∀ payload ∈ frames, payload.size ≤ Limits.frame) :
    (s.sendAll frames).1 = none ∧ (s.sendAll frames).2.sink.Accepts
      ∧ (s.sendAll frames).2.sink.accepted = s.sink.accepted ++ Frame.encodeAll frames := by
  induction frames generalizing s with
  | nil => exact ⟨rfl, h, ByteArray.append_empty.symm⟩
  | cons payload rest ih =>
      obtain ⟨sink, hw, hk⟩ := Frame.write_of_accepts h (hs payload (List.mem_cons_self ..))
      obtain ⟨hnone, hacc, heq⟩ := ih (s := { s with
        sink, world := s.world.record (.sent (Frame.encode payload)) }) hk
        fun p hp => hs p (List.mem_cons_of_mem _ hp)
      rw [sendAll, send, hw]
      refine ⟨hnone, hacc, ?_⟩
      rw [heq, (Frame.write_ok hw).2.1, Frame.encodeAll, ByteArray.append_assoc]

/-- Where everything is taken and the answer fits, a turn ends as it was decided. -/
theorem finish_of_accepts {host : Host ε δ κ} {arrival : Except Fault Frame.Arrival}
    {s : Session ε κ} (hk : s.sink.Accepts) (hfits : (s.turn host arrival).Fits)
    {reason : Option ExitReason} {next : Session ε κ}
    (h : (s.turn host arrival).finish = (reason, next)) :
    reason = (s.turn host arrival).reason ∧ next.sink.Accepts
      ∧ next.sink.accepted = s.sink.accepted ++ Frame.encodeAll (s.turn host arrival).frames
      ∧ next.phase = (s.turn host arrival).session.phase
      ∧ next.awaited = (s.turn host arrival).session.awaited := by
  -- the frames that are due are the answer and the PDF, and both fit
  have hsink : (s.turn host arrival).session.sink = s.sink := sink_turn ..
  have hsize : ∀ payload ∈ (s.turn host arrival).frames, payload.size ≤ Limits.frame := by
    intro payload hp
    simp only [Turn.frames, List.mem_append, List.mem_map, Option.mem_toList] at hp
    rcases hp with ⟨response, hr, rfl⟩ | hp
    · exact hfits response hr
    · exact s.pdf_turn_le host arrival payload hp
  obtain ⟨hnone, hacc, heq⟩ := sendAll_of_accepts (hsink ▸ hk) hsize
  obtain ⟨sink, log, hs⟩ :=
    sendAll_session (s.turn host arrival).frames (s.turn host arrival).session
  simp only [Turn.finish, Prod.mk.injEq] at h
  obtain ⟨rfl, rfl⟩ := h
  rw [hsink] at heq
  exact ⟨by rw [hnone, Option.none_or], hacc, heq, by rw [hs], by rw [hs]⟩

end Session

end PdfWorker
