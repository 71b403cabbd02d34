import PdfWorker.Proofs.Supervisor.Call
import PdfWorker.Proofs.Worker.Serve
set_option autoImplicit false

/-! # Exchanges

`Exchanged` says what one call comes to: the answer that the worker makes for that very request, in
the session in which the call finds it, or a refusal to send what is too large, or the end of a
worker that was broken off. There is one lemma for each kind of call, and `call_exchanged` puts them
together.
-/

namespace PdfWorker

namespace Supervisor

variable {ε δ κ : Type}

/-- Both ends are up, nothing is unread, and the worker expects a request. -/
structure InStep (s : Supervisor (LiveWorker ε κ)) : Prop where
  unread : s.Unread []
  awaited : s.process.session.awaited = none

/-- What goes out for a call. -/
def sent (c : Call) (s : Supervisor (LiveWorker ε κ)) : List ByteArray :=
  if (c.frames (s.idFor c)).all (·.size ≤ Limits.frame) then c.frames (s.idFor c) else []

/-- The answer to the call fits into a frame, if the call gets as far as that. -/
def Fits (host : Host ε δ κ) (c : Call) (s : Supervisor (LiveWorker ε κ)) : Prop :=
  s.connected = true → c.Sendable (s.idFor c) →
    (c.turn host (s.idFor c) s.process.session).Fits

/-- The worker was broken off, and the supervisor knows it. -/
structure Gone (s : Supervisor (LiveWorker ε κ)) : Prop where
  connected : s.connected = false
  finished : s.finished = true
  status : s.process.status = some abortedStatus

end Supervisor

variable {ε δ κ : Type}

/-- The answer fits the call that went out with this number. -/
inductive Answers (host : Host ε δ κ) (id : Int64) (world : World ε κ) :
    Call → Except LinkError Answer → Prop where
  | started {request version} : Answers host id world (.start request) (.ok (.version version))
  | notStarted {request message} :
      Answers host id world (.start request) (.error (.initFailed message))
  | conversion {request reply} : reply.id = id →
      Answers host id world (.convert request) (.ok (.conversion reply))
  /-- The PDF is there if and only if the conversion succeeded, it is what the conversion of the
  document gave, and the answer tells its size. -/
  | document {request document reply pdf} : reply.id = id → reply.Announces pdf →
      (∀ octets ∈ pdf, (Conversion.convertDocument host document request.format
        request.options.normal (world.startCapture host).2).1 = .ok octets) →
      Answers host id world (.convertDocument request document) (.ok (.document ⟨reply, pdf⟩))

/-- No font path of the call holds a NUL character. -/
def Call.Harmless (c : Call) : Prop :=
  ∀ request, c = .start request → ∀ path ∈ request.fontPaths, '\x00' ∉ path.toList

/-- **What one call comes to.** -/
inductive Exchanged (host : Host ε δ κ) (c : Call) : Supervisor (LiveWorker ε κ) →
    Except LinkError Answer → Supervisor (LiveWorker ε κ) → Prop where
  /-- The worker takes the turn of the call, and its answer is the result. -/
  | answered {s s' next} : s.InStep → c.Sendable (s.idFor c) →
      (c.turn host (s.idFor c) s.process.session).finish = (none, next) →
      Answers host (s.idFor c) s.process.session.world c
        (c.turn host (s.idFor c) s.process.session).result →
      s'.process.session = next → s'.InStep →
      Exchanged host c s (c.turn host (s.idFor c) s.process.session).result s'
  /-- A frame is too large. Nothing of the call is sent. -/
  | refused {s s' payload} : s.InStep → payload ∈ c.frames (s.idFor c) →
      Limits.frame < payload.size → s'.process = s.process → s'.InStep →
      Exchanged host c s (.error (.frameTooLarge payload.size Limits.frame)) s'
  /-- The environment cannot take the font paths, and that breaks the worker off. -/
  | broken {s s' request} : s.InStep → c.Sendable (s.idFor c) → c = .start request →
      Worker.Breaks s.process.session.phase request → s'.Gone →
      Exchanged host c s (.error (.workerExited abortedStatus)) s'
  /-- The worker has been broken off by an earlier call. -/
  | gone {s s'} : s.Gone → s'.Gone → (∀ document ∈ c.document?, document.size ≤ Limits.frame) →
      Exchanged host c s (.error (.workerExited abortedStatus)) s'
  /-- That a document is too large is told even then. -/
  | goneRefused {s document} : s.Gone → document ∈ c.document? → Limits.frame < document.size →
      Exchanged host c s (.error (.frameTooLarge document.size Limits.frame)) s

namespace Session

/-- A request that is sent is answered as it was written. -/
theorem turn_encode (host : Host ε δ κ) {s : Session ε κ} (h : s.awaited = none) (r : Request) :
    s.turn host (.ok (.frame r.encode)) = s.answerTurn host r.normal := by
  rw [turn]
  simp only [ending, h]
  rw [messageTurn, Request.decode_encode]

end Session

/-- A worker that goes on has taken the frames of the call. -/
theorem Call.takes {host : Host ε δ κ} {c : Call} {id : Int64} {s next : Session ε κ}
    (ha : s.awaited = none) (hsend : c.Sendable id)
    (h : (c.turn host id s).finish = (none, next)) : s.Takes host (c.frames id) next := by
  have hsize : (c.request id).encode.size ≤ Limits.frame := hsend _ (List.mem_cons_self ..)
  cases c with
  | start request =>
      refine .cons hsize ?_ .nil
      rw [s.turn_encode host ha]
      exact h
  | convert request =>
      refine .cons hsize ?_ .nil
      rw [s.turn_encode host ha]
      exact h
  | convertDocument request document =>
      have hdocument : document.size ≤ Limits.frame := hsend _ (by simp [frames, document?])
      -- the first frame makes the worker wait for the second
      let waiting : Session ε κ := { s with awaited := some (BufferRequest.normal
        { request with id, dataSize := some (UInt64.ofNat document.size) }) }
      have hwaiting : (s.turn host (.ok (.frame
          ((Call.convertDocument request document).request id).encode))).finish
            = (none, waiting) := by
        rw [s.turn_encode host ha]
        rfl
      exact .cons hsize hwaiting (.cons hdocument h .nil)

namespace Supervisor

variable {host : Host ε δ κ} {s : Supervisor (LiveWorker ε κ)}

/-! ## Asking -/

theorem InStep.number (h : s.InStep) (id : Int64) : (s.number id).2.InStep := by
  rw [Supervisor.number]
  split
  · exact ⟨⟨h.unread.connected, h.unread.finished, h.unread.running, h.unread.accepts,
      h.unread.written, h.unread.fits⟩, h.awaited⟩
  · exact h

theorem number_process (id : Int64) : (s.number id).2.process = s.process := by
  rw [Supervisor.number]
  split <;> rfl

theorem InStep.withVersion (h : s.InStep) (version : Option String) :
    InStep { s with version } :=
  ⟨⟨h.unread.connected, h.unread.finished, h.unread.running, h.unread.accepts,
    h.unread.written, h.unread.fits⟩, h.awaited⟩

/-- A request that is too large is not sent. -/
theorem ask_oversized (hs : s.InStep) {r : Request} (h : Limits.frame < r.encode.size) :
    s.ask (LiveWorker.link host) r
      = (.error (.frameTooLarge r.encode.size Limits.frame), s) := by
  rw [ask, send, sendFrame_oversized hs.unread.connected h]

/-- **A request with one answer** gets that answer, and both ends are in step again. -/
theorem ask_live (hmax : host.settings.maxFrame = Limits.frame) (hs : s.InStep) {r : Request}
    (hsize : r.encode.size ≤ Limits.frame) {t : Turn ε κ}
    (ht : s.process.session.answerTurn host r.normal = t) {response : Response}
    (hresponse : t.response = some response) (hpdf : t.pdf = none) (hreason : t.reason = none)
    (hawaited : t.session.awaited = none) (hfits : t.Fits) :
    ∃ next read, t.finish = (none, next)
      ∧ s.ask (LiveWorker.link host) r = (.ok response, (s.withSession next).withRead read)
      ∧ ((s.withSession next).withRead read).InStep := by
  -- the worker takes its turn, and one frame is unread behind it
  have hturn := (s.process.session.turn_encode host hs.awaited r).trans ht
  obtain ⟨next, hfinish, hnext, hsend, hunread⟩ :=
    sendFrame_live hmax hs.unread hsize hturn hfits hreason
  have hframes : t.frames = [response.encode] := by
    rw [Turn.frames, hresponse, hpdf]
    rfl
  rw [hframes] at hunread
  obtain ⟨read, hread, hdone⟩ := readResponse_live host hunread
  refine ⟨next, read, hfinish, ?_, hdone, hnext.trans hawaited⟩
  rw [ask, send, hsend]
  exact hread

/-- A request that breaks the worker off gets no answer. -/
theorem ask_broken (hmax : host.settings.maxFrame = Limits.frame) (hs : s.InStep) {r : Request}
    (hsize : r.encode.size ≤ Limits.frame) {t : Turn ε κ}
    (ht : s.process.session.answerTurn host r.normal = t) (hresponse : t.response = none)
    (hpdf : t.pdf = none) (hreason : t.reason = some .aborted)
    (hsink : t.session.sink = s.process.session.sink) :
    ∃ s', s.ask (LiveWorker.link host) r = (.error (.workerExited abortedStatus), s')
      ∧ s'.Gone := by
  have hturn := (s.process.session.turn_encode host hs.awaited r).trans ht
  have hfinish : (s.process.session.turn host (.ok (.frame r.encode))).finish
      = (some .aborted, t.session) := by
    rw [hturn, Turn.finish, Turn.frames, hresponse, hpdf, hreason]
    rfl
  -- the request is taken, and the worker ends with nothing written
  let w : LiveWorker ε κ :=
    { s.process with session := t.session.close host, status := some abortedStatus }
  have hsend : (LiveWorker.link host).send r.encode s.process = (.ok (), w) := by
    show LiveWorker.send host r.encode s.process = _
    rw [LiveWorker.send_live hmax hsize hs.unread.running,
      LiveWorker.take_of_stops hs.unread.running hfinish]
    rfl
  -- so the supervisor meets the end of the stream
  have hreceive : (LiveWorker.link host).receive s.timeout w = (.arrived (.ok .ended), w) := by
    obtain ⟨front, hfront, hread⟩ := hs.unread.written
    have haccepted : w.session.sink.accepted = front := by
      show t.session.sink.accepted = front
      rw [hsink, hfront, Frame.encodeAll, ByteArray.append_empty]
    show LiveWorker.receive w = _
    rw [LiveWorker.receive, haccepted, show w.read = front.size from hread, Frame.at?_size]
    rfl
  let last : Except LinkError Response × Supervisor (LiveWorker ε κ) :=
    exited (LiveWorker.link host) { s with process := w }
  refine ⟨last.2, ?_, ?_⟩
  · rw [ask, send, sendFrame, if_pos hs.unread.connected, hsend]
    simp only
    rw [readResponse, readPayload, hreceive]
    rfl
  · show Gone (abandon _ _)
    rw [abandon, if_neg (by simp [hs.unread.finished])]
    exact ⟨rfl, rfl, rfl⟩

/-! ## One call -/

theorem exchanged_of_turn {c : Call} {t : Turn ε κ} {next : Session ε κ}
    {s' : Supervisor (LiveWorker ε κ)} (hs : s.InStep) (hsend : c.Sendable (s.idFor c))
    (ht : c.turn host (s.idFor c) s.process.session = t) (hfinish : t.finish = (none, next))
    (hanswers : Answers host (s.idFor c) s.process.session.world c t.result) (hnext : s'.process.session = next)
    (hs' : s'.InStep) : Exchanged host c s t.result s' := by
  subst ht
  exact .answered hs hsend hfinish hanswers hnext hs'

theorem call_start (hmax : host.settings.maxFrame = Limits.frame) (hs : s.InStep)
    (request : InitRequest)
    (hfits : s.Fits host (.start request)) :
    Exchanged host (.start request) s (s.call (LiveWorker.link host) (.start request)).1
      (s.call (LiveWorker.link host) (.start request)).2 := by
  by_cases hsize : Limits.frame < (Request.init request).encode.size
  · -- the request is too large
    rw [call_start_of_error (ask_oversized hs hsize)]
    exact .refused hs (List.mem_cons_self ..) hsize rfl hs
  · rw [Nat.not_lt] at hsize
    have hsend : (Call.start request).Sendable (s.idFor (.start request)) :=
      List.forall_mem_singleton.mpr hsize
    have hfits := hfits hs.unread.connected hsend
    rcases Worker.startEngine_cases host request s.process.session.phase s.process.session.world
      with ⟨hb, h⟩ | ⟨-, -, version, world, h⟩ | ⟨-, message, world, h⟩
    · -- the environment cannot take the font paths
      obtain ⟨s', hask, hgone⟩ := ask_broken (r := .init request) hmax hs hsize
        (t := ⟨none, none, some .aborted, s.process.session⟩)
        (by simp only [Request.normal, Session.answerTurn, h]) rfl rfl rfl rfl
      rw [call_start_of_error hask]
      exact .broken hs hsend rfl hb hgone
    · have hturn : (Call.start request).turn host (s.idFor (.start request)) s.process.session
          = ⟨some (.ready version), none, none,
            { s.process.session with phase := .ready, world }⟩ := by
        simp only [Call.turn, Session.answerTurn, h]
      rw [hturn] at hfits
      obtain ⟨next, read, hfinish, hask, hdone⟩ := ask_live (r := .init request) hmax hs hsize
        hturn rfl rfl rfl hs.awaited hfits
      rw [call_start_of_ready hask]
      exact exchanged_of_turn hs hsend hturn hfinish .started rfl (hdone.withVersion _)
    · have hturn : (Call.start request).turn host (s.idFor (.start request)) s.process.session
          = ⟨some (.error message), none, none, { s.process.session with world }⟩ := by
        simp only [Call.turn, Session.answerTurn, h]
      rw [hturn] at hfits
      obtain ⟨next, read, hfinish, hask, hdone⟩ := ask_live (r := .init request) hmax hs hsize
        hturn rfl rfl rfl hs.awaited hfits
      rw [call_start_of_refusal hask]
      exact exchanged_of_turn hs hsend hturn hfinish .notStarted rfl hdone

theorem call_convert (hmax : host.settings.maxFrame = Limits.frame) (hs : s.InStep)
    (request : FileRequest)
    (hfits : s.Fits host (.convert request)) :
    Exchanged host (.convert request) s (s.call (LiveWorker.link host) (.convert request)).1
      (s.call (LiveWorker.link host) (.convert request)).2 := by
  -- the supervisor that has taken a number stands as before
  have hs₁ := hs.number request.id
  have hprocess : (s.number request.id).2.process = s.process := number_process request.id
  let r : Request := .convert { request with id := (s.number request.id).1 }
  by_cases hsize : Limits.frame < r.encode.size
  · rw [call_convert_of_error (ask_oversized hs₁ hsize)]
    exact .refused hs (List.mem_cons_self ..) hsize hprocess hs₁
  · rw [Nat.not_lt] at hsize
    have hsend : (Call.convert request).Sendable (s.idFor (.convert request)) :=
      List.forall_mem_singleton.mpr hsize
    have hfits := hfits hs.unread.connected hsend
    obtain ⟨reply, world, h⟩ : ∃ reply world, Worker.convert host
        (FileRequest.normal { request with id := s.idFor (.convert request) })
        s.process.session.phase s.process.session.world = (reply, world) := ⟨_, _, rfl⟩
    have hid : reply.id = s.idFor (.convert request) := by
      have hr := Worker.convert_id host
        (FileRequest.normal { request with id := s.idFor (.convert request) })
        s.process.session.phase s.process.session.world
      rw [h] at hr
      exact hr
    have hturn : (Call.convert request).turn host (s.idFor (.convert request)) s.process.session
        = ⟨some (.result reply), none, none, { s.process.session with world }⟩ := by
      simp only [Call.turn, Session.answerTurn, h]
    rw [hturn] at hfits
    obtain ⟨next, read, hfinish, hask, hdone⟩ := ask_live (r := r) hmax hs₁ hsize
      (hprocess ▸ hturn) rfl rfl rfl hs.awaited hfits
    rw [call_convert_of_reply hask]
    exact exchanged_of_turn hs hsend hturn hfinish (.conversion hid) rfl hdone

/-- An answer to a document is read with the PDF that it announces. -/
theorem readConversion_live (host : Host ε δ κ) {reply : BufferReply} {pdf : Option ByteArray}
    (hs : s.Unread ((Response.bufferResult reply).encode :: pdf.toList))
    (hsuccess : reply.success = pdf.isSome) :
    ∃ read, s.readConversion (LiveWorker.link host) = (.ok ⟨reply, pdf⟩, s.withRead read)
      ∧ (s.withRead read).Unread [] := by
  obtain ⟨read, hreply, hrest⟩ := readResponse_live host hs
  cases pdf with
  | none =>
      refine ⟨read, ?_, hrest⟩
      rw [readConversion, hreply]
      simp only [hsuccess, Option.isSome_none, Bool.false_eq_true, if_false]
  | some octets =>
      obtain ⟨read', hpdf, hdone⟩ := readPayload_live host hrest
      refine ⟨read', ?_, hdone⟩
      rw [readConversion, hreply]
      simp only [hsuccess, Option.isSome_some, if_true, hpdf]
      rfl

/-- **A request and its document** get the answer of the document's turn, and both ends are in step
again. -/
theorem ask_document_live (hmax : host.settings.maxFrame = Limits.frame) (hs : s.InStep)
    {r : BufferRequest} (hsize : (Request.convertBuffer r).encode.size ≤ Limits.frame)
    {document : ByteArray} (hdocument : document.size ≤ Limits.frame) {reply : BufferReply}
    {pdf : Option ByteArray} {session : Session ε κ}
    (ht : s.process.session.documentTurn host r.normal (some document) none
      = ⟨some (.bufferResult reply), pdf, none, session⟩)
    (hannounces : reply.success = pdf.isSome) (hawaited : session.awaited = none)
    (hfits : (Response.bufferResult reply).encode.size ≤ Limits.frame) :
    ∃ next s₁ s₂ read, Turn.finish ⟨some (.bufferResult reply), pdf, none, session⟩ = (none, next)
      ∧ s.send (LiveWorker.link host) (.convertBuffer r) = (.ok (), s₁)
      ∧ s₁.sendFrame (LiveWorker.link host) document = (.ok (), s₂)
      ∧ s₂.readConversion (LiveWorker.link host)
          = (.ok ⟨reply, pdf⟩, (s.withSession next).withRead read)
      ∧ ((s.withSession next).withRead read).InStep := by
  -- the request goes out, and the worker waits for the document
  obtain ⟨waiting, hwaiting, -, hsent, hs₁⟩ := sendFrame_live hmax hs.unread hsize
    (s.process.session.turn_encode host hs.awaited (.convertBuffer r))
    (fun _ h => nomatch h) rfl
  obtain rfl : { s.process.session with awaited := some r.normal } = waiting :=
    (Prod.mk.inj hwaiting).2
  -- the document goes out, and the worker answers
  obtain ⟨next, hfinish, hnext, hsent', hs₂⟩ := sendFrame_live hmax hs₁ hdocument ht
    (by rintro _ ⟨rfl⟩; exact hfits) rfl
  obtain ⟨read, hread, hdone⟩ := readConversion_live host hs₂ hannounces
  exact ⟨next, _, _, read, hfinish, hsent, hsent', hread, hdone, hnext.trans hawaited⟩

theorem call_convertDocument (hmax : host.settings.maxFrame = Limits.frame) (hs : s.InStep)
    (request : BufferRequest) (document : ByteArray)
    (hfits : s.Fits host (.convertDocument request document)) :
    Exchanged host (.convertDocument request document) s
      (s.call (LiveWorker.link host) (.convertDocument request document)).1
      (s.call (LiveWorker.link host) (.convertDocument request document)).2 := by
  by_cases hlarge : Limits.frame < document.size
  · rw [call_document_of_large _ _ hlarge]
    exact .refused hs (by simp [Call.frames, Call.document?]) hlarge rfl hs
  rw [Nat.not_lt] at hlarge
  have hs₁ := hs.number request.id
  have hprocess : (s.number request.id).2.process = s.process := number_process request.id
  let r : BufferRequest := { request with
    id := (s.number request.id).1, dataSize := some (UInt64.ofNat document.size) }
  by_cases hsize : Limits.frame < (Request.convertBuffer r).encode.size
  · rw [call_document_of_error hlarge (sendFrame_oversized hs₁.unread.connected hsize)]
    exact .refused hs (List.mem_cons_self ..) hsize hprocess hs₁
  rw [Nat.not_lt] at hsize
  have hsend : (Call.convertDocument request document).Sendable
      (s.idFor (.convertDocument request document)) :=
    List.forall_mem_cons.mpr ⟨hsize, List.forall_mem_singleton.mpr hlarge⟩
  have hfits := hfits hs.unread.connected hsend
  -- what the worker decides once the document is there
  obtain ⟨⟨reply, pdf⟩, world, h⟩ : ∃ reply world, Worker.convertDocument host r.normal
      (some document) s.process.session.phase s.process.session.world = (reply, world) :=
    ⟨_, _, rfl⟩
  obtain ⟨hid, hannounces, -⟩ := Worker.convertDocument_announces host r.normal (some document)
    s.process.session.phase s.process.session.world
  have hpdf := Worker.convertDocument_pdf host r.normal document s.process.session.phase
    s.process.session.world
  rw [h] at hid hannounces hpdf
  have hturn : (Call.convertDocument request document).turn host
      (s.idFor (.convertDocument request document)) s.process.session
        = ⟨some (.bufferResult reply), pdf, none,
          { s.process.session with world, awaited := none }⟩ := by
    show s.process.session.documentTurn host r.normal (some document) none = _
    rw [Session.documentTurn, h]
  have hturn₁ : (s.number request.id).2.process.session.documentTurn host r.normal (some document)
      none = ⟨some (.bufferResult reply), pdf, none,
        { s.process.session with world, awaited := none }⟩ := by
    rw [hprocess]
    exact hturn
  rw [hturn] at hfits
  obtain ⟨next, s₂, s₃, read, hfinish, hsent, hsent', hread, hdone⟩ := ask_document_live hmax hs₁
    hsize hlarge hturn₁ hannounces.success rfl (hfits _ rfl)
  rw [call_document_of_reply hlarge hsent hsent' hread]
  exact exchanged_of_turn hs hsend hturn hfinish (.document hid hannounces hpdf) rfl hdone

/-! ## A worker that is gone -/

theorem Gone.number (h : s.Gone) (id : Int64) : (s.number id).2.Gone := by
  rw [Supervisor.number]
  split
  · exact ⟨h.connected, h.finished, h.status⟩
  · exact h

theorem Gone.send (h : s.Gone) (r : Request) :
    s.send (LiveWorker.link host) r = (.error (.workerExited abortedStatus), s) := by
  have hstatus : s.exitCode? (LiveWorker.link host) = abortedStatus := by
    show s.process.status.join = _
    rw [h.status, Option.join_some]
  rw [Supervisor.send, sendFrame, if_neg (by simp [h.connected]), exited, hstatus, abandon,
    if_pos h.finished]

theorem Gone.ask (h : s.Gone) (r : Request) :
    s.ask (LiveWorker.link host) r = (.error (.workerExited abortedStatus), s) := by
  rw [Supervisor.ask, h.send]

/-- Every call reports that the worker has been broken off. -/
theorem Gone.call (h : s.Gone) (c : Call) :
    Exchanged host c s (s.call (LiveWorker.link host) c).1
      (s.call (LiveWorker.link host) c).2 := by
  cases c with
  | start request =>
      rw [call_start_of_error (h.ask _)]
      exact .gone h h (by simp [Call.document?])
  | convert request =>
      have h₁ := h.number request.id
      rw [call_convert_of_error (h₁.ask _)]
      exact .gone h h₁ (by simp [Call.document?])
  | convertDocument request document =>
      by_cases hlarge : Limits.frame < document.size
      · rw [call_document_of_large _ _ hlarge]
        exact .goneRefused h rfl hlarge
      · rw [Nat.not_lt] at hlarge
        have h₁ := h.number request.id
        rw [call_document_of_error hlarge (h₁.send _)]
        refine .gone h h₁ ?_
        rintro _ ⟨rfl⟩
        exact hlarge

/-! ## Every call -/

theorem InStep.call (hmax : host.settings.maxFrame = Limits.frame) (hs : s.InStep) {c : Call}
    (hfits : s.Fits host c) :
    Exchanged host c s (s.call (LiveWorker.link host) c).1
      (s.call (LiveWorker.link host) c).2 := by
  cases c with
  | start request => exact call_start hmax hs request hfits
  | convert request => exact call_convert hmax hs request hfits
  | convertDocument request document => exact call_convertDocument hmax hs request document hfits

/-- **One call**, from a supervisor of either kind. -/
theorem call_exchanged (hmax : host.settings.maxFrame = Limits.frame) (hs : s.InStep ∨ s.Gone)
    {c : Call} (hfits : s.Fits host c) :
    Exchanged host c s (s.call (LiveWorker.link host) c).1
      (s.call (LiveWorker.link host) c).2 := by
  rcases hs with hs | hs
  · exact hs.call hmax hfits
  · exact hs.call c

theorem not_gone_of_inStep (hs : s.InStep) : ¬ s.Gone := by
  intro h
  have hup := hs.unread.connected
  rw [h.connected] at hup
  cases hup

end Supervisor

namespace Exchanged

variable {host : Host ε δ κ} {c : Call} {s s' : Supervisor (LiveWorker ε κ)}
  {result : Except LinkError Answer}

/-- After an exchange both ends are in step, or the worker was broken off. -/
theorem stands (h : Exchanged host c s result s') : s'.InStep ∨ s'.Gone := by
  cases h with
  | answered _ _ _ _ _ h => exact .inl h
  | refused _ _ _ _ h => exact .inl h
  | broken _ _ _ _ h => exact .inr h
  | gone _ h _ => exact .inr h
  | goneRefused h _ _ => exact .inr h

/-- Nothing revives a worker that was broken off. -/
theorem gone_of_gone (h : Exchanged host c s result s') (hs : s.Gone) : s'.Gone := by
  cases h with
  | answered hin _ _ _ _ _ => exact absurd hs (Supervisor.not_gone_of_inStep hin)
  | refused hin _ _ _ _ => exact absurd hs (Supervisor.not_gone_of_inStep hin)
  | broken hin _ _ _ _ => exact absurd hs (Supervisor.not_gone_of_inStep hin)
  | gone _ h _ => exact h
  | goneRefused h _ _ => exact h

/-- Only a request with a NUL character breaks the worker off. -/
theorem inStep_of_harmless (h : Exchanged host c s result s') (hs : s.InStep)
    (hc : c.Harmless) : s'.InStep := by
  cases h with
  | answered _ _ _ _ _ h => exact h
  | refused _ _ _ _ h => exact h
  | broken _ _ hstart hb _ =>
      obtain ⟨-, -, path, hp, hnul⟩ := hb
      exact absurd hnul (hc _ hstart path hp)
  | gone h _ _ => exact absurd h (Supervisor.not_gone_of_inStep hs)
  | goneRefused h _ _ => exact absurd h (Supervisor.not_gone_of_inStep hs)

/-- The worker has taken the frames of the call, or none if one of them is too large. -/
theorem takes (h : Exchanged host c s result s') (hs' : s'.InStep) :
    s.process.session.Takes host (s.sent c) s'.process.session := by
  cases h with
  | answered hs hsend hfinish _ hnext _ =>
      rw [Supervisor.sent, if_pos (by simpa [Call.Sendable] using hsend), hnext]
      exact c.takes hs.awaited hsend hfinish
  | refused hs hmem hlarge hprocess _ =>
      rw [Supervisor.sent, if_neg, hprocess]
      · exact .nil
      · intro hall
        have hle := List.all_eq_true.mp hall _ hmem
        simp only [decide_eq_true_eq] at hle
        omega
  | broken _ _ _ _ h => exact absurd h (Supervisor.not_gone_of_inStep hs')
  | gone _ h _ => exact absurd h (Supervisor.not_gone_of_inStep hs')
  | goneRefused h _ _ => exact absurd h (Supervisor.not_gone_of_inStep hs')

end Exchanged

end PdfWorker
