import PdfWorker.Proofs.Response
import PdfWorker.Proofs.Worker.Serve
import PdfWorker.Supervisor.LiveWorker
set_option autoImplicit false

/-! # The link to a live worker

`Supervisor.Unread` says how a supervisor and its worker stand: both are up, and the worker has
written some frames that the supervisor has not read. `Supervisor.sendFrame_live` sends a frame to
a worker of which nothing is unread, and `Supervisor.readPayload_live` reads the first of the frames
that are. What they leave is said in full, so that the links above them need not open the worker.
The last section puts reading a frame and reading an answer together.
-/

namespace PdfWorker

namespace Frame

/-- The frame behind `front` is found where `front` ends. -/
theorem at?_append (front back : ByteArray) {payload : ByteArray}
    (h : payload.size ≤ Limits.frame) :
    at? (front ++ (encode payload ++ back)) front.size
      = some (payload, front.size + (encode payload).size) := by
  have hframe : Limits.frame < UInt32.size := by decide
  have hheader : (header payload.size).size = Limits.header := size_header _
  have hencode : (encode payload).size = Limits.header + payload.size := by
    rw [encode, ByteArray.size_append, hheader]
  have hassoc : encode payload ++ back = header payload.size ++ (payload ++ back) := by
    rw [encode, ByteArray.append_assoc]
  have htold : (front ++ (encode payload ++ back)).extract front.size
      (front.size + Limits.header) = header payload.size := by
    calc (front ++ (encode payload ++ back)).extract (front.size + 0) (front.size + Limits.header)
        = (encode payload ++ back).extract 0 Limits.header := ByteArray.extract_append_size_add
      _ = header payload.size := by rw [hassoc, ByteArray.extract_append_eq_left hheader.symm]
  have hpayload : (front ++ (encode payload ++ back)).extract (front.size + Limits.header)
      (front.size + Limits.header + payload.size) = payload := by
    calc (front ++ (encode payload ++ back)).extract (front.size + Limits.header)
          (front.size + Limits.header + payload.size)
        = (encode payload ++ back).extract Limits.header (Limits.header + payload.size) := by
          rw [Nat.add_assoc, ByteArray.extract_append_size_add]
      _ = (payload ++ back).extract 0 payload.size := by
          rw [hassoc]
          exact ByteArray.extract_append_size_add' (i := 0) hheader.symm
      _ = payload := ByteArray.extract_append_eq_left rfl
  have hsize : (front ++ (encode payload ++ back)).size
      = front.size + (Limits.header + payload.size + back.size) := by
    rw [ByteArray.size_append, ByteArray.size_append, hencode]
  rw [at?]
  simp only [htold, littleEndian_header (Nat.lt_of_le_of_lt h hframe), hpayload]
  rw [if_pos (by omega), hencode, Nat.add_assoc]

/-- No frame is found where the octets end. -/
theorem at?_size (octets : ByteArray) : at? octets octets.size = none := by
  have hpos : 0 < Limits.header := by decide
  rw [at?]
  exact if_neg fun h => absurd h.1 (by omega)

end Frame

variable {ε δ κ : Type}

/-- **Both ends are up**, and these frames are written and not yet read. -/
structure Supervisor.Unread (s : Supervisor (LiveWorker ε κ)) (frames : List ByteArray) :
    Prop where
  connected : s.connected = true
  finished : s.finished = false
  running : s.process.status = none
  accepts : s.process.session.sink.Accepts
  written : ∃ front, s.process.session.sink.accepted = front ++ Frame.encodeAll frames
    ∧ s.process.read = front.size
  fits : ∀ payload ∈ frames, payload.size ≤ Limits.frame

namespace LiveWorker

/-! ## The worker's end -/

theorem take_of_continues {host : Host ε δ κ} {arrival : Except Fault Frame.Arrival}
    {w : LiveWorker ε κ} (hw : w.status = none) {next : Session ε κ}
    (h : (w.session.turn host arrival).finish = (none, next)) :
    w.take host arrival = { w with session := next } := by
  rw [take, if_neg (by simp [hw]), Session.take_eq, h]

theorem take_of_stops {host : Host ε δ κ} {arrival : Except Fault Frame.Arrival}
    {w : LiveWorker ε κ} (hw : w.status = none) {reason : ExitReason} {next : Session ε κ}
    (h : (w.session.turn host arrival).finish = (some reason, next)) :
    w.take host arrival
      = { w with session := next.close host, status := some (some reason.exitCode) } := by
  rw [take, if_neg (by simp [hw]), Session.take_eq, h]

/-- A worker with the usual ceiling takes what its supervisor may send. -/
theorem send_live {host : Host ε δ κ} (hmax : host.settings.maxFrame = Limits.frame)
    {payload : ByteArray} (hs : payload.size ≤ Limits.frame) {w : LiveWorker ε κ}
    (hw : w.status = none) :
    w.send host payload = (.ok (), w.take host (.ok (.frame payload))) := by
  have harrival : arrival host payload = .ok (.frame payload) := by
    rw [arrival, hmax, if_neg (Nat.not_lt.mpr hs)]
  rw [send, if_neg (Nat.not_lt.mpr hs), if_neg (by simp [hw]), harrival]

end LiveWorker

namespace Supervisor

variable {host : Host ε δ κ} {s : Supervisor (LiveWorker ε κ)}

/-! ## The supervisor's end -/

/-- The supervisor whose worker has taken a turn. -/
def withSession (s : Supervisor (LiveWorker ε κ)) (session : Session ε κ) :
    Supervisor (LiveWorker ε κ) :=
  { s with process := { s.process with session } }

/-- The supervisor that has read so many octets. -/
def withRead (s : Supervisor (LiveWorker ε κ)) (read : Nat) : Supervisor (LiveWorker ε κ) :=
  { s with process := { s.process with read } }

/-- A frame above the ceiling is not sent, and nothing changes. -/
theorem sendFrame_oversized (hs : s.connected = true) {payload : ByteArray}
    (h : Limits.frame < payload.size) :
    s.sendFrame (LiveWorker.link host) payload
      = (.error (.frameTooLarge payload.size Limits.frame), s) := by
  have hsend : (LiveWorker.link host).send payload s.process
      = (.error (.frameTooLarge payload.size Limits.frame), s.process) := if_pos h
  rw [sendFrame, if_pos hs, hsend]
  rfl

/-- **A frame that is sent** is taken by the worker, whose turn it is, and what the turn writes is
unread. -/
theorem sendFrame_live (hmax : host.settings.maxFrame = Limits.frame) (hs : s.Unread [])
    {payload : ByteArray} (hsize : payload.size ≤ Limits.frame) {t : Turn ε κ}
    (ht : s.process.session.turn host (.ok (.frame payload)) = t) (hfits : t.Fits)
    (hreason : t.reason = none) :
    ∃ next, t.finish = (none, next) ∧ next.awaited = t.session.awaited
      ∧ s.sendFrame (LiveWorker.link host) payload = (.ok (), s.withSession next)
      ∧ (s.withSession next).Unread t.frames := by
  subst ht
  -- the worker takes the turn while the frame is sent
  rcases hfinish : (s.process.session.turn host (.ok (.frame payload))).finish with ⟨reason, next⟩
  obtain ⟨hr, hacc, hwritten, -, hawaited⟩ :=
    Session.finish_of_accepts hs.accepts hfits hfinish
  rw [hreason] at hr
  subst hr
  have hsend : (LiveWorker.link host).send payload s.process
      = (.ok (), { s.process with session := next }) := by
    show LiveWorker.send host payload s.process = _
    rw [LiveWorker.send_live hmax hsize hs.running, LiveWorker.take_of_continues hs.running hfinish]
  refine ⟨next, rfl, hawaited, ?_, ?_⟩
  · rw [sendFrame, if_pos hs.connected, hsend]
    rfl
  · obtain ⟨front, hfront, hread⟩ := hs.written
    refine ⟨hs.connected, hs.finished, hs.running, hacc, ⟨front, ?_, hread⟩, ?_⟩
    · show next.sink.accepted = _
      rw [hwritten, hfront, Frame.encodeAll, ByteArray.append_empty]
    · intro frame hf
      simp only [Turn.frames, List.mem_append, List.mem_map, Option.mem_toList] at hf
      rcases hf with ⟨response, hr, rfl⟩ | hf
      · exact hfits response hr
      · exact Session.pdf_turn_le host _ _ frame hf

/-- **The next frame that is unread** is what the supervisor reads. -/
theorem readPayload_live (host : Host ε δ κ) {payload : ByteArray} {rest : List ByteArray}
    (hs : s.Unread (payload :: rest)) :
    ∃ read, s.readPayload (LiveWorker.link host)
        = (.ok payload, s.withRead read)
      ∧ (s.withRead read).Unread rest := by
  obtain ⟨front, hfront, hread⟩ := hs.written
  -- the supervisor has read up to where the frame begins
  rw [Frame.encodeAll] at hfront
  have hreceive : (LiveWorker.link host).receive s.timeout s.process
      = (.arrived (.ok (.frame payload)),
        { s.process with read := front.size + (Frame.encode payload).size }) := by
    show LiveWorker.receive s.process = _
    rw [LiveWorker.receive, hfront, hread,
      Frame.at?_append front _ (hs.fits payload (List.mem_cons_self ..))]
  refine ⟨front.size + (Frame.encode payload).size, ?_, ?_⟩
  · rw [readPayload, hreceive]
    rfl
  · refine ⟨hs.connected, hs.finished, hs.running, hs.accepts, ?_, ?_⟩
    · refine ⟨front ++ Frame.encode payload, ?_, ?_⟩
      · show s.process.session.sink.accepted = _
        rw [hfront, ByteArray.append_assoc]
      · show front.size + (Frame.encode payload).size = _
        rw [ByteArray.size_append]
    · exact fun frame hf => hs.fits frame (List.mem_cons_of_mem _ hf)

theorem readResponse_live (host : Host ε δ κ) {response : Response} {rest : List ByteArray}
    (hs : s.Unread (response.encode :: rest)) :
    ∃ read, s.readResponse (LiveWorker.link host)
        = (.ok response, s.withRead read)
      ∧ (s.withRead read).Unread rest := by
  obtain ⟨read, hr, hnext⟩ := readPayload_live host hs
  refine ⟨read, ?_, hnext⟩
  rw [readResponse, hr]
  simp only [Response.decode_encode]

/-! ## What an answer tells -/

/-- **Answers are understood as they were sent.** Every answer is read as it was written, so no two
answers are written alike; and a supervisor whose worker has written an answer that it has not read
yet reads this answer next, and what was written behind it stays unread. -/
theorem answers_understood :
    (∀ r : Response, Response.decode r.encode = .ok r)
      ∧ Function.Injective Response.encode
      ∧ ∀ (host : Host ε δ κ) (s : Supervisor (LiveWorker ε κ)) (r : Response)
          (rest : List ByteArray), s.Unread (r.encode :: rest) →
          ∃ read, s.readResponse (LiveWorker.link host) = (.ok r, s.withRead read)
            ∧ (s.withRead read).Unread rest := by
  refine ⟨Response.decode_encode, ?_, fun host s r rest hs => readResponse_live host hs⟩
  intro r r' h
  have hread : Response.decode r.encode = .ok r' := by
    rw [h]
    exact r'.decode_encode
  have hsame : (Except.ok r : Except LinkError Response) = .ok r' :=
    r.decode_encode.symm.trans hread
  exact Except.ok.inj hsame

/-- What a worker has written: its engine has started, and a conversion has failed, for which an
unusual font was put in another's place. -/
def writtenAnswers : List Response :=
  [.ready "24.8.0", .result (.failed (-1) (.loadFailed "no \"such\" filter\n")
    [⟨.warning, .font, "substituted", some "Calibri", none⟩])]

/-- The supervisor of a worker that has written these answers. -/
def withAnswers : Supervisor (LiveWorker ScriptedEngine ScriptedCapture) :=
  { process := { session := { Session.fresh {} with
      sink := { accepted := Frame.encodeAll (writtenAnswers.map Response.encode) } } } }

/-- The first answer is read, and then the second. -/
theorem answers_understood_in_order : ∃ read : Nat,
    withAnswers.Unread (writtenAnswers.map Response.encode)
      ∧ withAnswers.readResponse (LiveWorker.link .scripted)
        = (.ok (.ready "24.8.0"), withAnswers.withRead read)
      ∧ (withAnswers.withRead read).Unread ((writtenAnswers.drop 1).map Response.encode) := by
  have hsizes : ∀ r ∈ writtenAnswers, r.encode.size ≤ Limits.frame := by
    intro r hr
    rcases List.mem_cons.mp hr with rfl | hr
    · exact Nat.le_trans (Response.size_encode_ready_le _) (by decide)
    · obtain rfl := List.mem_singleton.mp hr
      exact Nat.le_trans (Response.size_encode_result_le _) (by decide)
  have hunread : withAnswers.Unread (writtenAnswers.map Response.encode) := by
    refine ⟨rfl, rfl, rfl, Sink.accepts_default _, ⟨.empty, ByteArray.empty_append.symm, rfl⟩, ?_⟩
    intro payload hp
    obtain ⟨r, hr, rfl⟩ := List.mem_map.mp hp
    exact hsizes r hr
  obtain ⟨read, hread, hrest⟩ := answers_understood.2.2 Host.scripted withAnswers _ _ hunread
  exact ⟨read, hunread, hread, hrest⟩

end Supervisor

end PdfWorker
