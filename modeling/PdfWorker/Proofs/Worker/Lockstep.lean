import PdfWorker.Proofs.Stream.RoundTrip
import PdfWorker.Proofs.Worker.CaptureCalls
import PdfWorker.Proofs.Worker.Dialogue
import PdfWorker.Proofs.Worker.Output
set_option autoImplicit false

/-! # One step at a time

A supervisor that waits for each answer before it sends more must not be kept waiting. So a worker
never looks at an octet behind the frame that it is about to answer, and what it has written is
flushed before it looks for the next frame. `run_lockstep` says this of every run that begins with
given frames, whatever comes behind them, and `consumed_of_quit` says where a run that is told to
stop has stopped reading.
-/

namespace PdfWorker

namespace Session

variable {ε δ κ : Type}

/-! ## Flushing -/

/-- Where frames are written, everything is flushed. -/
theorem flushed_of_sendAll {frames : List ByteArray} {s next : Session ε κ}
    (h : s.sendAll frames = (none, next)) :
    (frames = [] ∧ next.sink = s.sink) ∨ next.sink.Flushed := by
  induction frames generalizing s with
  | nil =>
      cases h
      exact .inl ⟨rfl, rfl⟩
  | cons payload rest ih =>
      rw [sendAll, send] at h
      rcases hw : Frame.write payload s.sink with ⟨e | u, sink⟩
      · rw [hw] at h
        cases h
      · rw [hw] at h
        rcases ih h with ⟨-, hsink⟩ | hflushed
        · exact .inr (hsink ▸ Frame.flushed_of_write hw)
        · exact .inr hflushed

/-! ## Requests that end a run -/

/-- **Why a turn may be the last** where a frame arrives: it holds the request to stop, or a request
to start the engine that the environment cannot take. -/
theorem reason_turn_cases (host : Host ε δ κ) (payload : ByteArray) (s : Session ε κ) :
    ((s.turn host (.ok (.frame payload))).reason = none
      ∧ s.request? (.ok (.frame payload)) ≠ some .quit
      ∧ ∀ request, s.request? (.ok (.frame payload)) = some (.init request) →
        ¬ Worker.Breaks s.phase request) ∨
    ((s.turn host (.ok (.frame payload))).reason = some .quit
      ∧ s.request? (.ok (.frame payload)) = some .quit) ∨
    ((s.turn host (.ok (.frame payload))).reason = some .aborted
      ∧ ∃ request, s.request? (.ok (.frame payload)) = some (.init request)
        ∧ Worker.Breaks s.phase request) := by
  cases hr : s.request? (.ok (.frame payload)) with
  | none =>
      refine .inl ⟨?_, by simp, by simp⟩
      unfold request? at hr
      unfold turn
      cases ha : s.awaited with
      | some request => rfl
      | none =>
          rw [ha] at hr
          simp only [ending, messageTurn] at hr ⊢
          rcases hdecode : Request.decode payload with e | (request | kind)
          · rfl
          · rw [hdecode] at hr
            cases hr
          · rfl
  | some request =>
      rw [turn_of_request host hr]
      cases request with
      | init request =>
          simp only [answerTurn]
          rcases Worker.startEngine_cases host request s.phase s.world with
            ⟨hb, h⟩ | ⟨hb, -, version, world, h⟩ | ⟨hb, message, world, h⟩
          all_goals rw [h]
          · exact .inr (.inr ⟨rfl, request, rfl, hb⟩)
          · exact .inl ⟨rfl, by simp, fun _ he => by cases he; exact hb⟩
          · exact .inl ⟨rfl, by simp, fun _ he => by cases he; exact hb⟩
      | convert request => exact .inl ⟨rfl, by simp, by simp⟩
      | convertBuffer request => exact .inl ⟨rfl, by simp, by simp⟩
      | quit => exact .inr (.inl ⟨rfl, rfl⟩)

/-! ## Frames that a worker goes through -/

/-- The session behind these frames, one turn for each. -/
def after (host : Host ε δ κ) (s : Session ε κ) : List ByteArray → Session ε κ
  | [] => s
  | payload :: rest => after host (s.turn host (.ok (.frame payload))).finish.2 rest

/-- The frames that are due to these, in order. -/
def due (host : Host ε δ κ) (s : Session ε κ) : List ByteArray → List ByteArray
  | [] => []
  | payload :: rest =>
    (s.turn host (.ok (.frame payload))).frames
      ++ due host (s.turn host (.ok (.frame payload))).finish.2 rest

/-- **The worker can go through these frames**: each is within the ceiling, none that is read as a
message asks it to stop or breaks it off, and the answers fit. -/
def GoesThrough (host : Host ε δ κ) (s : Session ε κ) : List ByteArray → Prop
  | [] => True
  | payload :: rest =>
    payload.size ≤ host.settings.maxFrame ∧ payload.size < UInt32.size
      ∧ s.request? (.ok (.frame payload)) ≠ some .quit
      ∧ (∀ request, s.request? (.ok (.frame payload)) = some (.init request) →
        ¬ Worker.Breaks s.phase request)
      ∧ (s.turn host (.ok (.frame payload))).Fits
      ∧ GoesThrough host (s.turn host (.ok (.frame payload))).finish.2 rest

/-- The turn of such a frame writes all that is due and goes on. -/
theorem finish_of_goesThrough {host : Host ε δ κ} {s : Session ε κ} {payload : ByteArray}
    {rest : List ByteArray} (h : s.GoesThrough host (payload :: rest)) (hk : s.sink.Accepts) :
    (s.turn host (.ok (.frame payload))).finish
      = (none, (s.turn host (.ok (.frame payload))).finish.2) := by
  obtain ⟨-, -, hquit, hbreaks, hfits, -⟩ := h
  obtain ⟨hreason, -⟩ := finish_of_accepts hk hfits (Prod.eta _).symm
  refine Prod.ext (hreason.trans ?_) rfl
  rcases s.reason_turn_cases host payload with ⟨hnone, -⟩ | ⟨-, hq⟩ | ⟨-, request, hr, hb⟩
  · exact hnone
  · exact absurd hq hquit
  · exact absurd hb (hbreaks request hr)

/-- **All that is due is written and flushed** behind these frames. -/
theorem GoesThrough.written {host : Host ε δ κ} {s : Session ε κ} {frames : List ByteArray}
    (h : s.GoesThrough host frames) (hk : s.sink.Accepts) :
    (s.after host frames).sink.accepted = s.sink.accepted ++ Frame.encodeAll (s.due host frames)
      ∧ ((s.due host frames = [] ∧ (s.after host frames).sink = s.sink)
        ∨ (s.after host frames).sink.Flushed) := by
  induction frames generalizing s with
  | nil => exact ⟨ByteArray.append_empty.symm, .inl ⟨rfl, rfl⟩⟩
  | cons payload rest ih =>
      have hfinish := finish_of_goesThrough h hk
      obtain ⟨-, -, -, -, hfits, hrest⟩ := h
      obtain ⟨-, hk', haccepted, -⟩ := finish_of_accepts hk hfits hfinish
      obtain ⟨hlast, hflushed⟩ := ih hrest hk'
      refine ⟨?_, ?_⟩
      · rw [after, due, hlast, haccepted, Frame.encodeAll_append, ByteArray.append_assoc]
      · rw [after, due]
        -- either the later turns write something, or this one does, or nothing is due at all
        rcases hflushed with ⟨hnone, hsame⟩ | hflushed
        · rw [hnone, hsame, List.append_nil]
          have hsend : (s.turn host (.ok (.frame payload))).session.sendAll
              (s.turn host (.ok (.frame payload))).frames
              = (none, (s.turn host (.ok (.frame payload))).finish.2) :=
            Prod.ext (Option.or_eq_none_iff.mp (congrArg Prod.fst hfinish)).1 rfl
          rw [← s.sink_turn host (.ok (.frame payload))]
          exact flushed_of_sendAll hsend
        · exact .inr hflushed

end Session

namespace Moment

variable {ε δ κ : Type} {host : Host ε δ κ} {m : Moment ε κ}

/-- A frame at the front arrives, and no octet behind it is taken. -/
theorem rest_of_encode {payload : ByteArray} (hmax : payload.size ≤ host.settings.maxFrame)
    (hlt : payload.size < UInt32.size) {more : List UInt8}
    (hs : m.source.stream.octets = (Frame.encode payload).data.toList ++ more) :
    m.arrival host = .ok (.frame payload)
      ∧ (m.rest host).stream = m.source.stream.drop (Frame.encode payload).size
      ∧ (m.rest host).consumed = m.source.consumed + (Frame.encode payload).size := by
  obtain ⟨hread, hrest⟩ := Frame.read_eq host.settings.maxFrame m.source
  have hnext := (Stream.next_of_encode hmax hlt hs).1
  rw [Frame.encode, ByteArray.size_append, Frame.size_header]
  exact ⟨hread.trans hnext, hrest payload hnext⟩

/-- A frame that arrives is at the front, and no octet behind it is taken. -/
theorem encode_of_arrival {payload : ByteArray} (h : m.arrival host = .ok (.frame payload)) :
    m.source.stream.octets = (Frame.encode payload).data.toList ++ (m.rest host).stream.octets
      ∧ (m.rest host).consumed = m.source.consumed + (Frame.encode payload).size := by
  obtain ⟨hread, hrest⟩ := Frame.read_eq host.settings.maxFrame m.source
  have hnext : m.source.stream.next host.settings.maxFrame = .ok (.frame payload) :=
    hread.symm.trans h
  obtain ⟨hstream, hconsumed⟩ := hrest payload hnext
  rw [rest, hstream, hconsumed, Frame.encode, ByteArray.size_append, Frame.size_header]
  exact ⟨Stream.octets_of_next hnext, rfl⟩

/-- A request is what makes a turn end in quitting or break off. -/
theorem request?_of_finish {reason : ExitReason} (hwhy : reason = .quit ∨ reason = .aborted)
    (h : (m.turn host).finish.1 = some reason) :
    (reason = .quit ∧ m.request? host = some .quit) ∨
    (reason = .aborted ∧ ∃ request, m.request? host = some (.init request)
      ∧ Worker.Breaks m.session.phase request) := by
  have hreason : (m.turn host).reason = some reason := by
    rcases m.finish_cases (Prod.ext h rfl) with ⟨hr, -⟩ | ⟨hr, -⟩
    · exact hr.symm
    · cases hr
      rcases hwhy with heq | heq <;> cases heq
  by_cases hf : ∃ payload, m.arrival host = .ok (.frame payload)
  · obtain ⟨payload, hp⟩ := hf
    rw [request?, hp]
    rw [turn, hp] at hreason
    rcases m.session.reason_turn_cases host payload with ⟨hn, -⟩ | ⟨hn, hq⟩ | ⟨hn, ha⟩
    · cases hn.symm.trans hreason
    · cases hn.symm.trans hreason
      exact .inl ⟨rfl, hq⟩
    · cases hn.symm.trans hreason
      exact .inr ⟨rfl, ha⟩
  · -- behind the last frame there are other reasons
    have hover := (m.session.turn_over host fun payload hp => hf ⟨payload, hp⟩).1
    rw [turn, hover] at hreason
    cases hreason
    unfold Dialogue.lastReason at hwhy
    split at hwhy <;> rcases hwhy with heq | heq <;> cases heq

/-- A turn that ends in quitting has read the request to do so. -/
theorem quit_of_finish {next : Session ε κ} (h : (m.turn host).finish = (some .quit, next)) :
    ∃ payload, m.arrival host = .ok (.frame payload)
      ∧ Request.decode payload = .ok (.request .quit) := by
  rcases request?_of_finish (.inl rfl) (congrArg Prod.fst h) with ⟨-, hquit⟩ | ⟨heq, -⟩
  · exact Session.request?_eq_some hquit
  · cases heq

end Moment

namespace Worker

variable {ε δ κ : Type}

/-! ## Whole runs -/

/-- A worker that reads frames that it can go through takes one turn for each, and reads no further
in them. -/
theorem turns_goesThrough {host : Host ε δ κ} {s : Session ε κ} {frames : List ByteArray}
    (h : s.GoesThrough host frames) (hk : s.sink.Accepts) {source : Source} {more : List UInt8}
    (hs : source.stream.octets = (Frame.encodeAll frames).data.toList ++ more) :
    ∃ front rest, turns host s source = front ++ turns host (s.after host frames) rest
      ∧ front.map (Moment.arrival host) = Frame.arrivals frames
      ∧ front.flatMap (fun m => (m.turn host).frames) = s.due host frames
      ∧ (∀ m ∈ front,
        (m.rest host).consumed ≤ source.consumed + (Frame.encodeAll frames).size)
      ∧ rest.consumed = source.consumed + (Frame.encodeAll frames).size
      ∧ rest.stream = source.stream.drop (Frame.encodeAll frames).size := by
  induction frames generalizing s source with
  | nil => exact ⟨[], source, rfl, rfl, rfl, by simp, rfl, rfl⟩
  | cons payload frames ih =>
      have hfinish := Session.finish_of_goesThrough h hk
      obtain ⟨hmax, hlt, -, -, hfits, hgoes⟩ := h
      obtain ⟨-, hk', -⟩ := Session.finish_of_accepts hk hfits hfinish
      rw [Frame.toList_encodeAll_cons, List.append_assoc] at hs
      let m : Moment ε κ := ⟨s, source⟩
      obtain ⟨harrival, hstream, hconsumed⟩ : m.arrival host = .ok (.frame payload)
          ∧ (m.rest host).stream = source.stream.drop (Frame.encode payload).size
          ∧ (m.rest host).consumed = source.consumed + (Frame.encode payload).size :=
        m.rest_of_encode hmax hlt hs
      have hturn : m.turn host = s.turn host (.ok (.frame payload)) := by
        rw [Moment.turn, harrival]
      have hgoesOn : (m.turn host).finish
          = (none, (s.turn host (.ok (.frame payload))).finish.2) := by
        rw [hturn]
        exact hfinish
      have hbehind : (m.rest host).stream.octets
          = (Frame.encodeAll frames).data.toList ++ more := by
        rw [hstream, Stream.octets_drop, hs]
        exact List.drop_left' rfl
      obtain ⟨front, rest, hturns, hfront, hdue, hwithin, hlast, hleft⟩ := ih hgoes hk' hbehind
      have hsize : (Frame.encodeAll (payload :: frames)).size
          = (Frame.encode payload).size + (Frame.encodeAll frames).size := by
        rw [Frame.encodeAll, ByteArray.size_append]
      refine ⟨m :: front, rest, ?_, ?_, ?_, ?_, ?_, ?_⟩
      · rw [(serve_of_continues hgoesOn).2, hturns]
        rfl
      · rw [List.map_cons, harrival, hfront]
        rfl
      · rw [List.flatMap_cons, hturn, hdue]
        rfl
      · refine List.forall_mem_cons.mpr ⟨?_, fun m' hm' => ?_⟩
        · omega
        · have := hwithin m' hm'
          omega
      · omega
      · rw [hleft, hstream, hsize]
        simp only [Stream.drop, List.drop_drop]

/-- A worker that is told to stop has read the frames of its turns, the last of which tells it, and
no octet behind them. -/
theorem consumed_of_quit (host : Host ε δ κ) (m : Moment ε κ) :
    (serve host m.session m.source).1 = .quit →
    ∃ frames payload more,
      m.source.stream.octets = (Frame.encodeAll (frames ++ [payload])).data.toList ++ more
        ∧ (turns host m.session m.source).map (Moment.arrival host)
          = Frame.arrivals (frames ++ [payload])
        ∧ Request.decode payload = .ok (.request .quit)
        ∧ (serve host m.session m.source).2.2.consumed
          = m.source.consumed + (Frame.encodeAll (frames ++ [payload])).size := by
  induction m using serve_induction host with
  | stops m reason next h =>
      obtain ⟨hserve, hturns⟩ := serve_of_stops h
      rw [hserve, hturns]
      rintro rfl
      obtain ⟨payload, harrival, hdecode⟩ := m.quit_of_finish h
      obtain ⟨hoctets, hconsumed⟩ := m.encode_of_arrival harrival
      refine ⟨[], payload, (m.rest host).stream.octets, ?_, ?_, hdecode, ?_⟩
      · rw [List.nil_append, Frame.encodeAll_singleton]
        exact hoctets
      · rw [List.map_singleton, harrival]
        rfl
      · rw [List.nil_append, Frame.encodeAll_singleton]
        exact hconsumed
  | continues m next h ih =>
      obtain ⟨hserve, hturns⟩ := serve_of_continues h
      rw [hserve, hturns]
      intro hquit
      obtain ⟨payload, harrival⟩ := m.arrival_of_continues h
      obtain ⟨hoctets, hconsumed⟩ := m.encode_of_arrival harrival
      obtain ⟨frames, last, more, hlater, harrivals, hdecode, htotal⟩ := ih hquit
      refine ⟨payload :: frames, last, more, ?_, ?_, hdecode, ?_⟩
      · rw [hoctets, List.cons_append, Frame.toList_encodeAll_cons, List.append_assoc, hlater]
      · rw [List.map_cons, harrival, harrivals]
        rfl
      · rw [List.cons_append, Frame.encodeAll, ByteArray.size_append, htotal, hconsumed,
          Nat.add_assoc]

/-- **A worker takes one step at a time.** Behind frames that it can go through, all that is due to
them is written, and all that was ever written is flushed, while no octet of what follows was read;
and all that has happened is the same whatever follows. A run that is told to stop has read to the
end of the frame that tells it, and no further. -/
theorem run_lockstep (host : Host ε δ κ) :
    (∀ (s : Session ε κ) (frames : List ByteArray), s.GoesThrough host frames →
      s.sink.Accepts →
      (s.after host frames).sink.accepted
          = s.sink.accepted ++ Frame.encodeAll (s.due host frames)
        ∧ (s.sink.Flushed ∨ s.due host frames ≠ [] → (s.after host frames).sink.Flushed)
        ∧ ∀ (source : Source) (more : List UInt8),
          source.stream.octets = (Frame.encodeAll frames).data.toList ++ more →
          ∃ front rest back, turns host s source = front ++ ⟨s.after host frames, rest⟩ :: back
            ∧ front.map (Moment.arrival host) = Frame.arrivals frames
            ∧ front.flatMap (fun m => (m.turn host).frames) = s.due host frames
            ∧ (∀ m ∈ front,
              (m.rest host).consumed ≤ source.consumed + (Frame.encodeAll frames).size)
            ∧ rest.consumed = source.consumed + (Frame.encodeAll frames).size
            ∧ rest.stream.octets = more)
      ∧ ∀ (s : Session ε κ) (source : Source), (run host s source).1 = .quit →
        ∃ frames payload more,
          source.stream.octets = (Frame.encodeAll (frames ++ [payload])).data.toList ++ more
            ∧ (turns host s source).map (Moment.arrival host)
              = Frame.arrivals (frames ++ [payload])
            ∧ Request.decode payload = .ok (.request .quit)
            ∧ (run host s source).2.2.consumed
              = source.consumed + (Frame.encodeAll (frames ++ [payload])).size := by
  refine ⟨fun s frames h hk => ?_, fun s source => consumed_of_quit host ⟨s, source⟩⟩
  obtain ⟨haccepted, hflushed⟩ := h.written hk
  refine ⟨haccepted, ?_, ?_⟩
  · rintro (hbefore | hdue)
    · rcases hflushed with ⟨-, hsame⟩ | hflushed
      · rw [hsame]
        exact hbefore
      · exact hflushed
    · exact hflushed.resolve_left fun hnone => hdue hnone.1
  intro source more hs
  obtain ⟨front, rest, hturns, hfront, hdue, hwithin, hconsumed, hstream⟩ :=
    turns_goesThrough h hk hs
  have hmore : rest.stream.octets = more := by
    rw [hstream, Stream.octets_drop, hs]
    exact List.drop_left' rfl
  obtain ⟨back, hback⟩ := List.head?_eq_some_iff.mp (head?_turns host ⟨s.after host frames, rest⟩)
  rw [hback] at hturns
  exact ⟨front, rest, back, hturns, hfront, hdue, hwithin, hconsumed, hmore⟩

/-- An empty list as a text. -/
def emptyList : ByteArray := ⟨#[91, 93]⟩

/-- A worker that is sent a list and the beginning of something else has answered the list before it
looks at that, and one that is told to stop has read that. -/
theorem run_lockstep_of_list :
    (Session.fresh {}).GoesThrough .scripted [emptyList] ∧ (Session.fresh {}).sink.Accepts
      ∧ ((Session.fresh {}).after .scripted [emptyList]).sink.accepted
        = .empty ++ Frame.encodeAll ((Session.fresh {}).due .scripted [emptyList])
      ∧ ((Session.fresh {}).after .scripted [emptyList]).sink.Flushed
      ∧ (∃ front rest back,
        turns .scripted (.fresh {}) (.ofOctets ⟨#[2, 0, 0, 0, 91, 93, 7]⟩)
            = front ++ ⟨(Session.fresh {}).after .scripted [emptyList], rest⟩ :: back
          ∧ rest.consumed = 6 ∧ rest.stream.octets = [7])
      ∧ (run .scripted (.fresh {}) (.ofOctets (Frame.encode Request.quit.encode))).1 = .quit
      ∧ ∃ frames payload more,
        (Source.ofOctets (Frame.encode Request.quit.encode)).stream.octets
            = (Frame.encodeAll (frames ++ [payload])).data.toList ++ more
          ∧ (run .scripted (.fresh {}) (.ofOctets (Frame.encode Request.quit.encode))).2.2.consumed
            = (Frame.encodeAll (frames ++ [payload])).size := by
  have hrequest : (Session.fresh {}).request? (.ok (.frame emptyList)) = none :=
    Option.isNone_iff_eq_none.mp (by decide +kernel)
  have hfits : ((Session.fresh {}).turn .scripted (.ok (.frame emptyList))).Fits := by
    have hanswer : ((Session.fresh {}).turn .scripted (.ok (.frame emptyList))).response
        = some (.error "Invalid JSON message") := by decide +kernel
    intro response hr
    rw [hanswer] at hr
    cases hr
    decide +kernel
  have hgoes : (Session.fresh {}).GoesThrough .scripted [emptyList] :=
    ⟨by decide, by decide, by rw [hrequest]; simp, by rw [hrequest]; simp, hfits, trivial⟩
  have haccepts : (Session.fresh {}).sink.Accepts := Sink.accepts_default .empty
  have hquit : (run .scripted (.fresh {}) (.ofOctets (Frame.encode Request.quit.encode))).1
      = .quit := by
    have hstops : ((Session.fresh {}).turn .scripted (.ok (.frame Request.quit.encode))).finish
        = (some .quit, .fresh {}) := by
      have hdecode : Request.decode Request.quit.encode = .ok (.request .quit) :=
        Request.decode_encode .quit
      show ((Session.fresh {}).messageTurn .scripted Request.quit.encode).finish = _
      rw [Session.messageTurn, hdecode]
      rfl
    have hoctets : (Source.ofOctets (Frame.encode Request.quit.encode)).stream.octets
        = (Frame.encodeAll ([] ++ [Request.quit.encode])).data.toList ++ [] := by
      rw [Source.octets_stream_ofOctets, List.nil_append, Frame.encodeAll_singleton,
        List.append_nil]
    exact (Session.Takes.run_eq rfl .nil (by decide +kernel) hstops hoctets).1
  obtain ⟨hlockstep, hstopped⟩ := run_lockstep Host.scripted
  obtain ⟨haccepted, hflushed, hturns⟩ := hlockstep (.fresh {}) [emptyList] hgoes haccepts
  obtain ⟨front, rest, back, hfront, -, -, -, hconsumed, hmore⟩ :=
    hturns (.ofOctets ⟨#[2, 0, 0, 0, 91, 93, 7]⟩) [7] (by decide +kernel)
  obtain ⟨frames, payload, more, hoctets, -, -, htotal⟩ := hstopped _ _ hquit
  exact ⟨hgoes, haccepts, haccepted, hflushed (.inl rfl),
    ⟨front, rest, back, hfront, hconsumed, hmore⟩, hquit, frames, payload, more, hoctets,
    htotal.trans (Nat.zero_add _)⟩

end Worker

end PdfWorker
