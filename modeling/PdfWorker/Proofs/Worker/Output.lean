import PdfWorker.Proofs.Worker.Serve
set_option autoImplicit false

/-! # What a worker writes

A worker whose sink fails writes the beginning of what it would have written. The run is compared
with the run of the same worker on a sink that takes everything: up to the turn in which a frame
cannot be written the two are the same but for the sink, and behind that turn there is nothing
(`Moment.Stuck`). `run_output` puts this together for whole runs.
-/

namespace PdfWorker

open Relation (ReflTransGen)

namespace Sink

/-! ## What is taken stays taken -/

/-- The sink `next` holds what `sink` holds, and perhaps more. -/
def Extends (sink next : Sink) : Prop := ∃ more, next.accepted = sink.accepted ++ more

theorem Extends.refl (sink : Sink) : Extends sink sink := ⟨.empty, ByteArray.append_empty.symm⟩

theorem Extends.trans {sink mid next : Sink} (h₁ : Extends sink mid) (h₂ : Extends mid next) :
    Extends sink next := by
  obtain ⟨more₁, he₁⟩ := h₁
  obtain ⟨more₂, he₂⟩ := h₂
  exact ⟨more₁ ++ more₂, by rw [he₂, he₁, ByteArray.append_assoc]⟩

theorem Works.extends {sink next : Sink} (h : Works sink next) : Extends sink next := by
  cases h with
  | took h => exact ⟨_, accepted_of_took h⟩
  | interrupted h => exact ⟨.empty, by rw [accepted_of_interrupted h, ByteArray.append_empty]⟩
  | flushed h => exact ⟨.empty, by rw [accepted_of_flush h, ByteArray.append_empty]⟩

theorem extends_of_works {sink next : Sink} (h : ReflTransGen Works sink next) :
    Extends sink next := by
  induction h with
  | refl => exact .refl sink
  | tail _ hw ih => exact ih.trans hw.extends

theorem Halts.extends {sink next : Sink} (h : Halts sink next) : Extends sink next := by
  obtain ⟨mid, hw, hf⟩ := h
  obtain ⟨more, he⟩ := extends_of_works hw
  exact ⟨more, by rw [hf.accepted, he]⟩

end Sink

variable {ε δ κ : Type}

namespace Session

/-! ## Writing in one turn -/

/-- The session with another sink. -/
def into (sink : Sink) (s : Session ε κ) : Session ε κ := { s with sink }

/-- **Where writing stops.** Of the frames that are due, one cannot be written, and the session is
the last one with what the sink was left at. -/
inductive Stuck : List ByteArray → Session ε κ → Session ε κ → Prop where
  | here {payload rest e sink} {s : Session ε κ} :
      Frame.write payload s.sink = (.error e, sink) → Stuck (payload :: rest) s (s.into sink)
  | later {payload rest} {s next last : Session ε κ} :
      s.send payload = (none, next) → Stuck rest next last → Stuck (payload :: rest) s last

theorem send_eq_none {payload : ByteArray} {s next : Session ε κ}
    (h : s.send payload = (none, next)) : Frame.write payload s.sink = (.ok (), next.sink)
      ∧ next = { s with
          sink := next.sink, world := s.world.record (.sent (Frame.encode payload)) } := by
  unfold send at h
  split at h
  · rename_i sink hw
    cases h
    exact ⟨hw, rfl⟩
  · cases h

/-- Frames are written until one cannot be. -/
theorem stuck_of_sendAll {frames : List ByteArray} {s last : Session ε κ} {reason : ExitReason}
    (h : s.sendAll frames = (some reason, last)) :
    reason = .outputFailed ∧ Stuck frames s last := by
  induction frames generalizing s with
  | nil => cases h
  | cons payload rest ih =>
      rw [sendAll] at h
      -- either this frame is written and the rest is not, or this one is not
      split at h
      · rename_i next hn
        obtain ⟨hr, hs⟩ := ih h
        exact ⟨hr, .later hn hs⟩
      · rename_i failed next hn
        cases h
        rw [send] at hn
        split at hn
        · cases hn
        · rename_i e sink hw
          cases hn
          exact ⟨rfl, .here hw⟩

/-- A frame that cannot be written ends the writing. -/
theorem Stuck.sendAll_eq {frames : List ByteArray} {s last : Session ε κ}
    (h : Stuck frames s last) : s.sendAll frames = (some .outputFailed, last) := by
  induction h with
  | here hw => rw [sendAll, send, hw]; rfl
  | later hn _ ih => rw [sendAll, hn]; exact ih

theorem works_of_sendAll {frames : List ByteArray} {s next : Session ε κ}
    (h : s.sendAll frames = (none, next)) : ReflTransGen Sink.Works s.sink next.sink := by
  induction frames generalizing s with
  | nil =>
      cases h
      exact .refl
  | cons payload rest ih =>
      rw [sendAll] at h
      split at h
      · rename_i mid hn
        exact (Frame.write_ok (send_eq_none hn).1).2.2.trans (ih h)
      · cases h

/-- Writing stops at the first call that fails, or at a frame that is too large to be tried. -/
theorem Stuck.halts {frames : List ByteArray} {s last : Session ε κ} (h : Stuck frames s last) :
    Sink.Halts s.sink last.sink ∨
      (∃ payload ∈ frames, Limits.frame < payload.size)
        ∧ ReflTransGen Sink.Works s.sink last.sink := by
  induction h with
  | here hw =>
      rcases Frame.write_error hw with ⟨hsize, rfl⟩ | ⟨-, hh, -⟩
      · exact .inr ⟨⟨_, List.mem_cons_self .., hsize⟩, .refl⟩
      · exact .inl hh
  | later hn _ ih =>
      have hw := (Frame.write_ok (send_eq_none hn).1).2.2
      rcases ih with hh | ⟨⟨payload, hp, hsize⟩, hr⟩
      · exact .inl (hh.trans hw)
      · exact .inr ⟨⟨payload, List.mem_cons_of_mem _ hp, hsize⟩, hw.trans hr⟩

/-- Writing only adds to what the sink holds. -/
theorem extends_sendAll (frames : List ByteArray) (s : Session ε κ) :
    s.sink.Extends (s.sendAll frames).2.sink := by
  rcases h : s.sendAll frames with ⟨_ | reason, next⟩
  · exact Sink.extends_of_works (works_of_sendAll h)
  · rcases (stuck_of_sendAll h).2.halts with hh | ⟨-, hr⟩
    · exact hh.extends
    · exact Sink.extends_of_works hr

/-! ## Two sinks -/

/-- What is written into one sink is written into one that takes everything. -/
theorem sendAll_into {frames : List ByteArray} {s next : Session ε κ} {sink : Sink}
    (h : s.sendAll frames = (none, next)) (hk : sink.Accepts)
    (he : sink.accepted = s.sink.accepted) :
    ∃ sink', (s.into sink).sendAll frames = (none, next.into sink') ∧ sink'.Accepts
      ∧ sink'.accepted = next.sink.accepted := by
  induction frames generalizing s sink with
  | nil =>
      cases h
      exact ⟨sink, rfl, hk, he⟩
  | cons payload rest ih =>
      rw [sendAll] at h
      split at h
      · rename_i mid hn
        obtain ⟨hw, hmid⟩ := send_eq_none hn
        obtain ⟨hsize, hacc, -⟩ := Frame.write_ok hw
        obtain ⟨k, hwk, hk'⟩ := Frame.write_of_accepts hk hsize
        have hek : k.accepted = mid.sink.accepted := by
          rw [(Frame.write_ok hwk).2.1, hacc, he]
        obtain ⟨sink', hrest, hsink'⟩ := ih h hk' hek
        refine ⟨sink', ?_, hsink'⟩
        have hsend : (s.into sink).send payload = (none, mid.into k) := by
          rw [send, into, hwk, hmid]
          rfl
        rw [sendAll, hsend]
        exact hrest
      · cases h

/-- Where writing stops, the sink holds a beginning of what is written into one that takes
everything. -/
theorem Stuck.extends {frames : List ByteArray} {s last : Session ε κ} (h : Stuck frames s last)
    {sink : Sink} (hk : sink.Accepts) (he : sink.accepted = s.sink.accepted) :
    last.sink.Extends ((s.into sink).sendAll frames).2.sink := by
  induction h generalizing sink with
  | @here payload rest e k s hw =>
      rcases Frame.write_error hw with ⟨hsize, rfl⟩ | ⟨hsize, -, more, hmore⟩
      · -- a frame that is too large is written into neither
        obtain ⟨more, hm⟩ := extends_sendAll (payload :: rest) (s.into sink)
        exact ⟨more, by rw [hm]; exact congrArg (· ++ more) he⟩
      · obtain ⟨k', hwk, -⟩ := Frame.write_of_accepts hk hsize
        have hacc : k'.accepted = sink.accepted ++ Frame.encode payload :=
          (Frame.write_ok hwk).2.1
        have hfirst : Sink.Extends k k' := ⟨more, by rw [hacc, he, hmore]⟩
        refine hfirst.trans ?_
        rw [sendAll, send]
        simp only [into, hwk]
        exact extends_sendAll rest _
  | @later payload rest s next last hn _ ih =>
      -- this frame is written into both sinks, and they hold the same behind it
      have hone : s.sendAll [payload] = (none, next) := by rw [sendAll_singleton]; exact hn
      obtain ⟨k, hk₁, hk', hek⟩ := sendAll_into hone hk he
      rw [sendAll_singleton] at hk₁
      rw [sendAll, hk₁]
      exact ih hk' hek

/-- Writing that stops changes the sink and the log. -/
theorem Stuck.world {frames : List ByteArray} {s last : Session ε κ} (h : Stuck frames s last) :
    ∃ log, last = { s with sink := last.sink, world := { s.world with log } } := by
  obtain ⟨sink, log, hs⟩ := sendAll_session frames s
  rw [h.sendAll_eq] at hs
  simp only at hs
  exact ⟨log, by rw [hs]⟩

end Session

/-! ## One turn -/

/-- The turn with another sink. -/
def Turn.into (sink : Sink) (t : Turn ε κ) : Turn ε κ := { t with session := t.session.into sink }

namespace Session

theorem answerTurn_into (host : Host ε δ κ) (request : Request) (sink : Sink) (s : Session ε κ) :
    (s.into sink).answerTurn host request = (s.answerTurn host request).into sink := by
  cases request with
  | init request =>
      simp only [answerTurn, into]
      rcases Worker.startEngine host request s.phase s.world with
        ⟨_ | response, phase, world⟩ <;> rfl
  | convert request => rfl
  | convertBuffer request => rfl
  | quit => rfl

/-- What is decided does not depend on the sink. -/
theorem turn_into (host : Host ε δ κ) (arrival : Except Fault Frame.Arrival) (sink : Sink)
    (s : Session ε κ) : (s.into sink).turn host arrival = (s.turn host arrival).into sink := by
  have ha : (s.into sink).awaited = s.awaited := rfl
  unfold turn
  rw [ha]
  rcases ending arrival with ⟨reason, payload⟩
  cases s.awaited with
  | some request => rfl
  | none =>
      cases payload with
      | none => rfl
      | some payload =>
          simp only [messageTurn]
          rcases Request.decode payload with e | (request | kind)
          · rfl
          · exact answerTurn_into host request sink s
          · rfl

end Session

namespace Moment

/-- Writing stops in this turn. -/
def Stuck (host : Host ε δ κ) (m : Moment ε κ) (last : Session ε κ) : Prop :=
  Session.Stuck (m.turn host).frames (m.turn host).session last

/-- The moment with another sink. -/
def into (sink : Sink) (m : Moment ε κ) : Moment ε κ := ⟨m.session.into sink, m.source⟩

theorem turn_into (host : Host ε δ κ) (sink : Sink) (m : Moment ε κ) :
    (m.into sink).turn host = (m.turn host).into sink :=
  Session.turn_into host (m.arrival host) sink m.session

/-- **How a turn ends**: everything that is due is written and it ends as it was decided, or
writing stops. -/
theorem finish_cases {host : Host ε δ κ} {m : Moment ε κ} {reason : Option ExitReason}
    {next : Session ε κ} (h : (m.turn host).finish = (reason, next)) :
    (reason = (m.turn host).reason
      ∧ (m.turn host).session.sendAll (m.turn host).frames = (none, next)) ∨
    (reason = some .outputFailed ∧ m.Stuck host next) := by
  rw [Turn.finish] at h
  rcases hs : (m.turn host).session.sendAll (m.turn host).frames with ⟨_ | failed, last⟩
  · rw [hs] at h
    cases h
    exact .inl ⟨rfl, rfl⟩
  · rw [hs] at h
    cases h
    obtain ⟨rfl, hstuck⟩ := Session.stuck_of_sendAll hs
    exact .inr ⟨rfl, hstuck⟩

/-- A turn in which everything is written ends alike on a sink that takes everything. -/
theorem finish_into {host : Host ε δ κ} {m : Moment ε κ} {next : Session ε κ}
    (hs : (m.turn host).session.sendAll (m.turn host).frames = (none, next)) {sink : Sink}
    (hk : sink.Accepts) (he : sink.accepted = m.session.sink.accepted) :
    ∃ sink', ((m.into sink).turn host).finish = ((m.turn host).reason, next.into sink')
      ∧ sink'.Accepts ∧ sink'.accepted = next.sink.accepted := by
  have hsink : (m.turn host).session.sink = m.session.sink := Session.sink_turn ..
  rw [← hsink] at he
  obtain ⟨sink', hs', hk', he'⟩ := Session.sendAll_into hs hk he
  refine ⟨sink', ?_, hk', he'⟩
  rw [m.turn_into, Turn.finish]
  simp only [Turn.into, Turn.frames] at hs' ⊢
  rw [hs']
  rfl

/-- A turn only adds to what the sink holds. -/
theorem extends_finish (host : Host ε δ κ) (m : Moment ε κ) :
    m.session.sink.Extends (m.turn host).finish.2.sink := by
  have h := Session.extends_sendAll (m.turn host).frames (m.turn host).session
  have hsink : (m.turn host).session.sink = m.session.sink := Session.sink_turn ..
  rw [hsink] at h
  exact h

end Moment

namespace Worker

/-! ## Whole runs -/

/-- Serving only adds to what the sink holds after its first turn. -/
theorem extends_serve (host : Host ε δ κ) (m : Moment ε κ) :
    (m.turn host).finish.2.sink.Extends (serve host m.session m.source).2.1.sink := by
  induction m using serve_induction host with
  | stops m reason next h =>
      rw [(serve_of_stops h).1, h]
      exact .refl _
  | continues m next h ih =>
      rw [(serve_of_continues h).1, h]
      exact (Moment.extends_finish host ⟨next, m.rest host⟩).trans ih

/-- **How serving ends**: no call to the sink has failed, or writing has stopped in one of the
turns and that was all. -/
theorem serve_cases (host : Host ε δ κ) (m : Moment ε κ) :
    ((serve host m.session m.source).1 ≠ .outputFailed
      ∧ ReflTransGen Sink.Works m.session.sink (serve host m.session m.source).2.1.sink) ∨
    ∃ m' ∈ turns host m.session m.source, ∃ last, m'.Stuck host last
      ∧ serve host m.session m.source = (.outputFailed, last, m'.rest host)
      ∧ (Sink.Halts m.session.sink last.sink ∨
        (∃ payload ∈ (m'.turn host).frames, Limits.frame < payload.size)
          ∧ ReflTransGen Sink.Works m.session.sink last.sink) := by
  induction m using serve_induction host with
  | stops m reason next h =>
      have hsink : (m.turn host).session.sink = m.session.sink := Session.sink_turn ..
      obtain ⟨hserve, hturns⟩ := serve_of_stops h
      rw [hserve, hturns]
      rcases m.finish_cases h with ⟨hr, hs⟩ | ⟨hr, hstuck⟩
      · refine .inl ⟨?_, hsink ▸ Session.works_of_sendAll hs⟩
        rintro rfl
        exact Session.reason_turn_ne host (m.arrival host) m.session hr.symm
      · cases hr
        refine .inr ⟨m, List.mem_cons_self .., next, hstuck, rfl, ?_⟩
        rw [← hsink]
        exact Session.Stuck.halts hstuck
  | continues m next h ih =>
      have hsink : (m.turn host).session.sink = m.session.sink := Session.sink_turn ..
      obtain ⟨hserve, hturns⟩ := serve_of_continues h
      rw [hserve, hturns]
      rcases m.finish_cases h with ⟨-, hs⟩ | ⟨hr, -⟩
      -- the calls of this turn all worked, so the first that fails comes later
      · have hw : ReflTransGen Sink.Works m.session.sink next.sink :=
          hsink ▸ Session.works_of_sendAll hs
        rcases ih with ⟨hr, hrest⟩ | ⟨m', hm, last, hstuck, he, hlast⟩
        · exact .inl ⟨hr, hw.trans hrest⟩
        · refine .inr ⟨m', List.mem_cons_of_mem _ hm, last, hstuck, he, ?_⟩
          rcases hlast with hh | ⟨hsize, hrest⟩
          · exact .inl (hh.trans hw)
          · exact .inr ⟨hsize, hw.trans hrest⟩
      · cases hr

/-- **Two runs**: into a sink that takes everything, a worker does the same until its own sink
fails. -/
theorem serve_into (host : Host ε δ κ) (m : Moment ε κ) : ∀ sink : Sink, sink.Accepts →
    sink.accepted = m.session.sink.accepted →
    ((serve host m.session m.source).1 ≠ .outputFailed →
      ∃ sink', serve host (m.session.into sink) m.source
          = ((serve host m.session m.source).1, (serve host m.session m.source).2.1.into sink',
            (serve host m.session m.source).2.2)
        ∧ sink'.accepted = (serve host m.session m.source).2.1.sink.accepted)
    ∧ (serve host m.session m.source).2.1.sink.Extends
        (serve host (m.session.into sink) m.source).2.1.sink := by
  induction m using serve_induction host with
  | stops m reason next h =>
      intro sink hk he
      rw [(serve_of_stops h).1]
      rcases m.finish_cases h with ⟨hr, hs⟩ | ⟨hr, hstuck⟩
      · -- everything is written into both sinks
        obtain ⟨sink', hfinish, -, he'⟩ := m.finish_into hs hk he
        rw [← hr] at hfinish
        have hother := (serve_of_stops hfinish).1
        simp only [Moment.into] at hother
        rw [hother]
        exact ⟨fun _ => ⟨sink', rfl, he'⟩, .empty, by rw [ByteArray.append_empty]; exact he'⟩
      · -- writing stops, and the other sink may hold more
        cases hr
        refine ⟨fun hne => absurd rfl hne, ?_⟩
        have hsink : (m.turn host).session.sink = m.session.sink := Session.sink_turn ..
        have hext := Session.Stuck.extends hstuck hk (hsink ▸ he)
        have hmore := extends_serve host (m.into sink)
        rw [m.turn_into] at hmore
        exact hext.trans hmore
  | continues m next h ih =>
      intro sink hk he
      rw [(serve_of_continues h).1]
      rcases m.finish_cases h with ⟨hr, hs⟩ | ⟨hr, -⟩
      · obtain ⟨sink', hfinish, hk', he'⟩ := m.finish_into hs hk he
        rw [← hr] at hfinish
        have hother := (serve_of_continues hfinish).1
        simp only [Moment.into] at hother
        rw [hother]
        exact ih sink' hk' he'
      · cases hr

/-- **What a worker writes.** What its sink takes is a beginning of what a sink takes that takes
everything, and all of it unless writing has failed. When it fails, in whatever turn, the failed
call was the last one to the sink (or a frame was too large to be tried), the input is left where
that turn left it, the world is as that turn decided, and the engine is released. -/
theorem run_output (host : Host ε δ κ) (s : Session ε κ) (source : Source) :
    (run host s source).2.1.sink.Extends
        (run host (s.into { accepted := s.sink.accepted }) source).2.1.sink
      ∧ (((run host s source).1 ≠ .outputFailed
          ∧ ReflTransGen Sink.Works s.sink (run host s source).2.1.sink
          ∧ ∃ sink, run host (s.into { accepted := s.sink.accepted }) source
              = ((run host s source).1, (run host s source).2.1.into sink,
                (run host s source).2.2)
            ∧ sink.accepted = (run host s source).2.1.sink.accepted) ∨
        ∃ m ∈ turns host s source, ∃ last, m.Stuck host last
          ∧ run host s source = (.outputFailed, last.close host, m.rest host)
          ∧ (∃ log, last.world = { (m.turn host).session.world with log })
          ∧ (Sink.Halts s.sink last.sink ∨
            (∃ payload ∈ (m.turn host).frames, Limits.frame < payload.size)
              ∧ ReflTransGen Sink.Works s.sink last.sink)) := by
  obtain ⟨hsame, hext⟩ := serve_into host ⟨s, source⟩ { accepted := s.sink.accepted }
    (Sink.accepts_default _) rfl
  refine ⟨hext, ?_⟩
  rcases serve_cases host ⟨s, source⟩ with ⟨hne, hw⟩ | ⟨m, hm, last, hstuck, he, hlast⟩
  · obtain ⟨sink, hrun, hacc⟩ := hsame hne
    refine .inl ⟨hne, hw, sink, ?_, hacc⟩
    simp only [run]
    simp only at hrun
    rw [hrun]
    rfl
  · obtain ⟨log, hlog⟩ := Session.Stuck.world hstuck
    refine .inr ⟨m, hm, last, hstuck, ?_, ⟨log, by rw [hlog]⟩, hlast⟩
    simp only at he
    simp only [run, he]

end Worker

end PdfWorker
