import PdfWorker.Proofs.Supervisor.Overheard
set_option autoImplicit false

/-! # Giving up

A supervisor that cannot trust its link any more gives the worker up, and what is asked of it from
then on fails without a frame being sent. `Supervisor.Ends` says what every operation does about
this, and `Supervisor.steps_keep` what follows for a whole session.
-/

namespace PdfWorker

variable {π : Type}

/-- A frame has come. -/
def Awaited.IsFrame (awaited : Awaited) : Prop :=
  ∃ payload, awaited = .arrived (.ok (.frame payload))

/-- The frame went out. -/
abbrev LinkEvent.out (payload : ByteArray) : LinkEvent := .sent payload (.ok ())

/-- The frame came in. -/
abbrev LinkEvent.came (payload : ByteArray) : LinkEvent :=
  .received (.arrived (.ok (.frame payload)))

/-- What ends all trust in a link: a frame that is waited for does not come, or writing fails for
good. -/
inductive LinkEvent.IsTrouble : LinkEvent → Prop where
  | received {awaited} : ¬ awaited.IsFrame → IsTrouble (.received awaited)
  | sent {payload e} : e.isFatal = true → IsTrouble (.sent payload (.error e))

/-- The failure of a call, if it fails. -/
def failure? {α : Type} : Except LinkError α → Option LinkError
  | .error e => some e
  | .ok _ => none

/-- What came in was not understood: it is no answer, or not one to the request. -/
def LinkError.IsMisunderstanding (e : LinkError) : Prop :=
  e = .json ∨ ∃ message, e = .protocol message

namespace Supervisor

/-- The supervisor has given up its stream to the worker exactly if it has given up the worker. -/
def Sound (s : Supervisor π) : Prop := s.finished = true ↔ s.connected = false

/-- **How something ends** that a supervisor does: this is heard meanwhile, and after trouble or a
fatal failure the worker is given up. -/
structure Ends (s : Supervisor (Overheard π)) (events : List LinkEvent) (failure : Option LinkError)
    (s' : Supervisor (Overheard π)) : Prop where
  heard : s'.process.events = s.process.events ++ events
  sound : s.Sound → s'.Sound
  stays : s.finished = true → s'.finished = true
  trouble : ∀ event ∈ events, event.IsTrouble → s'.finished = true
  fatal : ∀ e ∈ failure, e.isFatal = true → s'.finished = true

theorem Sound.connected {s : Supervisor π} (h : s.Sound) (hf : s.finished ≠ true) :
    s.connected = true := by
  rcases hc : s.connected with _ | _
  · exact absurd (h.mpr hc) hf
  · rfl

namespace Ends

variable {s mid s' : Supervisor (Overheard π)} {front back : List LinkEvent}
  {failure : Option LinkError}

/-- Nothing passes. -/
theorem quiet (hp : s'.process.events = s.process.events) (hc : s'.connected = s.connected)
    (hf : s'.finished = s.finished) : Ends s [] none s' where
  heard := by rw [hp, List.append_nil]
  sound h := by rw [Sound, hf, hc]; exact h
  stays h := by rw [hf]; exact h
  trouble _ h := absurd h List.not_mem_nil
  fatal _ h := by cases h

/-- One thing is done after the other. -/
theorem trans {e : Option LinkError} (h : Ends s front e mid) (hback : Ends mid back failure s') :
    Ends s (front ++ back) failure s' where
  heard := by rw [hback.heard, h.heard, List.append_assoc]
  sound hs := hback.sound (h.sound hs)
  stays hs := hback.stays (h.stays hs)
  trouble event hevent htrouble := by
    rcases List.mem_append.mp hevent with hfront | hbehind
    · exact hback.stays (h.trouble event hfront htrouble)
    · exact hback.trouble event hbehind htrouble
  fatal := hback.fatal

/-- A worker that was given up may be reported as gone. -/
theorem refused (h : s.finished = true) (failure : Option LinkError) : Ends s [] failure s where
  heard := by rw [List.append_nil]
  sound h := h
  stays h := h
  trouble _ _ _ := h
  fatal _ _ _ := h

/-- Whatever has passed, and whatever is reported: the worker is given up behind it. -/
theorem finished (hp : s'.process.events = s.process.events ++ back) (hf : s'.finished = true)
    (hc : s'.connected = false) (failure : Option LinkError) : Ends s back failure s' where
  heard := hp
  sound _ := ⟨fun _ => hc, fun _ => hf⟩
  stays _ := hf
  trouble _ _ _ := hf
  fatal _ _ _ := hf

theorem eq_of_heard (h : Ends s back failure s') {events : List LinkEvent}
    (hevents : s'.process.events = s.process.events ++ events) : events = back := by
  rw [h.heard, List.append_cancel_left_eq] at hevents
  exact hevents.symm

/-- A failure that is not fatal may be reported where there was none. -/
theorem report (h : Ends s back none s') {e : LinkError} (he : e.isFatal = false) :
    Ends s back (some e) s' where
  heard := h.heard
  sound := h.sound
  stays := h.stays
  trouble := h.trouble
  fatal e' he' hfatal := by
    cases he'
    rw [he] at hfatal
    cases hfatal

end Ends

/-! ## Giving the worker up -/

section

variable (link : Link π) {s : Supervisor (Overheard π)}

theorem finished_abandon (s : Supervisor π) : (s.abandon link).finished = true := by
  unfold abandon
  split
  · assumption
  · rfl

theorem Sound.abandon {s : Supervisor π} (h : s.Sound) : (s.abandon link).Sound := by
  unfold Supervisor.abandon
  split
  · exact h
  · exact ⟨fun _ => rfl, fun _ => rfl⟩

/-- A worker that was given up stays as it is. -/
theorem abandon_of_finished {s : Supervisor π} (h : s.finished = true) : s.abandon link = s := by
  rw [abandon, if_pos h]

theorem events_abandon (s : Supervisor (Overheard π)) :
    (s.abandon link.overheard).process.events = s.process.events := by
  unfold abandon
  split <;> rfl

/-- Abandoning the worker is the right end for everything. -/
theorem ends_abandon (mid : Supervisor (Overheard π)) {events : List LinkEvent}
    (hp : mid.process.events = s.process.events ++ events) (hc : mid.connected = s.connected)
    (hf : mid.finished = s.finished) (failure : Option LinkError) :
    Ends s events failure (mid.abandon link.overheard) where
  heard := by rw [events_abandon, hp]
  sound h := by
    have hmid : mid.Sound := by rw [Sound, hf, hc]; exact h
    exact hmid.abandon link.overheard
  stays _ := finished_abandon link.overheard mid
  trouble _ _ _ := finished_abandon link.overheard mid
  fatal _ _ _ := finished_abandon link.overheard mid

/-- Something passes that is no trouble. -/
theorem ends_of_event {mid : Supervisor (Overheard π)} {event : LinkEvent}
    (hp : mid.process.events = s.process.events ++ [event]) (hc : mid.connected = s.connected)
    (hf : mid.finished = s.finished) (hevent : ¬ event.IsTrouble) :
    Ends s [event] none mid where
  heard := hp
  sound h := by rw [Sound, hf, hc]; exact h
  stays h := by rw [hf]; exact h
  trouble e he htrouble := by
    rw [List.mem_singleton.mp he] at htrouble
    exact absurd htrouble hevent
  fatal _ h := by cases h

/-! ## One frame -/

/-- What comes of sending a frame. -/
inductive Sending (s : Supervisor (Overheard π)) (payload : ByteArray) :
    Except LinkError Unit × Supervisor (Overheard π) → Prop where
  /-- The worker was given up, and nothing is done. -/
  | refused {status} : s.finished = true → Sending s payload (.error (.workerExited status), s)
  | failed {e e' s'} : Ends s [.sent payload (.error e)] (some e') s' →
      Sending s payload (.error e', s')
  | out {s'} : Ends s [.out payload] none s' → Sending s payload (.ok (), s')

/-- A worker that was given up is not sent anything. -/
theorem sendFrame_of_finished {s : Supervisor π} (hs : s.Sound) (h : s.finished = true)
    (payload : ByteArray) :
    s.sendFrame link payload = (.error (.workerExited (s.exitCode? link)), s) := by
  rw [sendFrame, if_neg (by simp [hs.mp h]), exited, abandon_of_finished link h]

theorem sendFrame_cases (hs : s.Sound) (payload : ByteArray) :
    Sending s payload (s.sendFrame link.overheard payload) := by
  by_cases hfinished : s.finished = true
  · rw [sendFrame_of_finished link.overheard hs hfinished]
    exact .refused hfinished
  · have hsend : link.overheard.send payload s.process
        = ((link.send payload s.process.process).1, ⟨(link.send payload s.process.process).2,
          s.process.events ++ [.sent payload (link.send payload s.process.process).1]⟩) := rfl
    rw [sendFrame, if_pos (hs.connected hfinished), hsend]
    rcases link.send payload s.process.process with ⟨e | u, process⟩
    · let mid : Supervisor (Overheard π) :=
        { s with process := ⟨process, s.process.events ++ [.sent payload (.error e)]⟩ }
      have hgiven : ∀ e', Sending s payload (.error e', mid.abandon link.overheard) :=
        fun e' => .failed (ends_abandon link mid rfl rfl rfl (some e'))
      have hkept : e.isFatal = false → Sending s payload (.error e, mid) := by
        intro he
        have hmid : Ends s [.sent payload (.error e)] none mid := by
          refine ends_of_event rfl rfl rfl ?_
          rintro (_ | hfatal)
          rw [he] at hfatal
          cases hfatal
        exact .failed (hmid.report he)
      -- only what is not fatal leaves the worker as it is
      cases e with
      | io fault =>
          show Sending s payload (if fault.kind = .brokenPipe then _ else _)
          split
          · exact hgiven _
          · exact hgiven _
      | workerExited | timeout => exact hgiven _
      | json | frameTooLarge | protocol | initFailed | executableNotFound => exact hkept rfl
    · exact .out (ends_of_event rfl rfl rfl (by rintro ⟨⟩))

/-- What comes of waiting for a frame. -/
inductive Reading (s : Supervisor (Overheard π)) :
    Except LinkError ByteArray × Supervisor (Overheard π) → Prop where
  | failed {awaited e s'} : ¬ awaited.IsFrame → Ends s [.received awaited] (some e) s' →
      Reading s (.error e, s')
  | came {payload s'} : Ends s [.came payload] none s' →
      Reading s (.ok payload, s')

theorem readPayload_cases (s : Supervisor (Overheard π)) :
    Reading s (s.readPayload link.overheard) := by
  have hreceive : link.overheard.receive s.timeout s.process
      = ((link.receive s.timeout s.process.process).1,
        ⟨(link.receive s.timeout s.process.process).2,
          s.process.events ++ [.received (link.receive s.timeout s.process.process).1]⟩) := rfl
  unfold readPayload
  rw [hreceive]
  rcases link.receive s.timeout s.process.process with ⟨awaited, process⟩
  let mid : Supervisor (Overheard π) :=
    { s with process := ⟨process, s.process.events ++ [.received awaited]⟩ }
  have hgiven : ¬ awaited.IsFrame → ∀ e, Reading s (.error e, mid.abandon link.overheard) :=
    fun hnone e => .failed hnone (ends_abandon link mid rfl rfl rfl (some e))
  rcases awaited with (fault | (payload | _ | size)) | _
  · exact hgiven (by rintro ⟨_, ⟨⟩⟩) _
  · refine .came (ends_of_event rfl rfl rfl ?_)
    rintro ⟨hnone⟩
    exact hnone ⟨payload, rfl⟩
  · exact hgiven (by rintro ⟨_, ⟨⟩⟩) _
  · exact hgiven (by rintro ⟨_, ⟨⟩⟩) _
  · exact hgiven (by rintro ⟨_, ⟨⟩⟩) _

/-! ## Answers -/

/-- Reading an answer fails because of what comes. -/
theorem decode_error {payload : ByteArray} {e : LinkError}
    (h : Response.decode payload = .error e) : e = .json := by
  unfold Response.decode at h
  split at h
  · cases h
  · cases h
    rfl

/-- What comes of waiting for an answer. -/
inductive Awaiting (s : Supervisor (Overheard π)) :
    Except LinkError Response × Supervisor (Overheard π) → Prop where
  | failed {awaited e s'} : ¬ awaited.IsFrame → Ends s [.received awaited] (some e) s' →
      Awaiting s (.error e, s')
  | came {payload s'} : Ends s [.came payload] none s' → Awaiting s (Response.decode payload, s')

theorem readResponse_cases (s : Supervisor (Overheard π)) :
    Awaiting s (s.readResponse link.overheard) := by
  have hread := readPayload_cases link s
  unfold readResponse
  generalize s.readPayload link.overheard = r at hread
  cases hread with
  | failed hnone hends => exact .failed hnone hends
  | came hends => exact .came hends

/-- What comes of sending a request and waiting for the answer. -/
inductive Asking (s : Supervisor (Overheard π)) (request : Request) :
    Except LinkError Response × Supervisor (Overheard π) → Prop where
  | refused {status} : s.finished = true → Asking s request (.error (.workerExited status), s)
  | unsent {e e' s'} : Ends s [.sent request.encode (.error e)] (some e') s' →
      Asking s request (.error e', s')
  | unanswered {awaited e s'} : ¬ awaited.IsFrame →
      Ends s [.out request.encode, .received awaited] (some e) s' → Asking s request (.error e, s')
  | came {payload s'} : Ends s [.out request.encode, .came payload] none s' →
      Asking s request (Response.decode payload, s')

/-- The answer is the first frame that comes in once the request is out. -/
theorem ask_cases (hs : s.Sound) (request : Request) :
    Asking s request (s.ask link.overheard request) := by
  have hsend := sendFrame_cases link hs request.encode
  unfold ask send
  generalize s.sendFrame link.overheard request.encode = r at hsend
  cases hsend with
  | refused hfinished => exact .refused hfinished
  | failed hends => exact .unsent hends
  | @out mid hends =>
      have hread := readResponse_cases link mid
      dsimp only
      generalize mid.readResponse link.overheard = r at hread
      cases hread with
      | failed hnone hlast => exact .unanswered hnone (hends.trans hlast)
      | came hlast => exact .came (hends.trans hlast)

/-! ## Requests -/

theorem ends_number (id : Int64) (s : Supervisor (Overheard π)) :
    Ends s [] none (s.number id).2 := by
  unfold number
  split <;> exact .quiet rfl rfl rfl

/-- Nothing but the request goes out to start the engine. -/
theorem startEngine_cases (hs : s.Sound) (request : Request) :
    ∃ events, Ends s events (failure? (s.startEngine link.overheard request).1)
        (s.startEngine link.overheard request).2
      ∧ ∀ payload, .out payload ∈ events → payload = request.encode := by
  have hask := ask_cases link hs request
  unfold startEngine
  generalize s.ask link.overheard request = r at hask
  cases hask with
  | refused hfinished => exact ⟨[], .refused hfinished _, by simp⟩
  | unsent hends => exact ⟨_, hends, by simp⟩
  | unanswered _ hends => exact ⟨_, hends, by simp⟩
  | @came payload next hends =>
      refine ⟨[.out request.encode, .came payload], ?_, by simp⟩
      rcases hdecode : Response.decode payload with e | (version | message | reply | reply)
      · rw [decode_error hdecode]
        exact hends.report rfl
      · have hversion : Ends next [] none { next with version := some version } :=
          .quiet rfl rfl rfl
        exact hends.trans hversion
      · exact hends.report rfl
      · exact hends.report rfl
      · exact hends.report rfl

/-- What comes of a conversion for which these frames are to go out, where `Tells` says what the
events behind them have to be for the value that is given. -/
inductive Hearing {α : Type} (s : Supervisor (Overheard π)) (frames : List ByteArray)
    (Tells : List LinkEvent → α → Prop) :
    Except LinkError α × Supervisor (Overheard π) → Prop where
  /-- The worker is given up. -/
  | lost {events e s'} : Ends s events (some e) s' → s'.finished = true →
      Hearing s frames Tells (.error e, s')
  /-- What comes in is not understood. -/
  | misunderstood {payload e s'} : Ends s (frames.map .out ++ [.came payload]) (some e) s' →
      e.IsMisunderstanding → Hearing s frames Tells (.error e, s')
  | done {events value s'} : Ends s (frames.map .out ++ events) none s' → Tells events value →
      Hearing s frames Tells (.ok value, s')

/-- **What comes of a conversion**: nothing goes out for it, or as `Hearing` says. -/
inductive Converting {α : Type} (s : Supervisor (Overheard π)) (frames : List ByteArray)
    (Tells : List LinkEvent → α → Prop) :
    Except LinkError α × Supervisor (Overheard π) → Prop where
  | unsent {events e s'} : Ends s events (some e) s' → (∀ payload, .out payload ∉ events) →
      Converting s frames Tells (.error e, s')
  | sent {result} : Hearing s frames Tells result → Converting s frames Tells result

/-- The first frame that comes in is this answer. -/
def TellsReply (events : List LinkEvent) (reply : ConversionReply) : Prop :=
  ∃ payload, Response.decode payload = .ok (.result reply) ∧ events = [.came payload]

/-- The first frame that comes in is this answer, and the next one is the PDF, if there is one. -/
def TellsConversion (events : List LinkEvent) (conversion : BufferConversion) : Prop :=
  ∃ payload, Response.decode payload = .ok (.bufferResult conversion.reply)
    ∧ events = .came payload :: conversion.pdf.toList.map .came

theorem convert_cases (hs : s.Sound) (request : FileRequest) :
    Converting s [(Request.convert { request with id := (s.number request.id).1 }).encode]
      TellsReply (s.convert link.overheard request) := by
  have hnumber := ends_number request.id s
  unfold convert
  generalize s.number request.id = r at hnumber ⊢
  rcases r with ⟨id, next⟩
  have hask := ask_cases link (hnumber.sound hs) (.convert { request with id })
  dsimp only at hnumber hask ⊢
  generalize next.ask link.overheard (.convert { request with id }) = r at hask
  cases hask with
  | refused hfinished => exact .unsent (hnumber.trans (.refused hfinished _)) (by simp)
  | unsent hends => exact .unsent (hnumber.trans hends) (by simp)
  | unanswered hnone hends =>
      exact .sent (.lost (hnumber.trans hends) (hends.trouble _ (by simp) (.received hnone)))
  | @came payload last hends =>
      have hcame := hnumber.trans hends
      rcases hdecode : Response.decode payload with e | (version | message | reply | reply)
      · rw [decode_error hdecode]
        exact .sent (.misunderstood (hcame.report rfl) (.inl rfl))
      · exact .sent (.misunderstood (hcame.report rfl) (.inr ⟨_, rfl⟩))
      · exact .sent (.misunderstood (hcame.report rfl) (.inr ⟨_, rfl⟩))
      · exact .sent (.done hcame ⟨payload, hdecode, rfl⟩)
      · exact .sent (.misunderstood (hcame.report rfl) (.inr ⟨_, rfl⟩))

theorem readConversion_cases (s : Supervisor (Overheard π)) :
    Hearing s [] TellsConversion (s.readConversion link.overheard) := by
  have hread := readResponse_cases link s
  unfold readConversion
  generalize s.readResponse link.overheard = r at hread
  cases hread with
  | failed hnone hends => exact .lost hends (hends.trouble _ (by simp) (.received hnone))
  | @came payload next hends =>
      rcases hdecode : Response.decode payload with e | (version | message | reply | reply)
      · rw [decode_error hdecode]
        exact .misunderstood (hends.report rfl) (.inl rfl)
      · exact .misunderstood (hends.report rfl) (.inr ⟨_, rfl⟩)
      · exact .misunderstood (hends.report rfl) (.inr ⟨_, rfl⟩)
      · exact .misunderstood (hends.report rfl) (.inr ⟨_, rfl⟩)
      · dsimp only
        split
        · -- the PDF is the next frame
          have hpdf := readPayload_cases link next
          generalize next.readPayload link.overheard = r at hpdf
          cases hpdf with
          | failed hnone hlast =>
              exact .lost (hends.trans hlast) (hlast.trouble _ (by simp) (.received hnone))
          | came hlast => exact .done (hends.trans hlast) ⟨payload, hdecode, rfl⟩
        · exact .done hends ⟨payload, hdecode, rfl⟩

/-- A document is sent behind its request, and if it does not go out, the worker is given up. -/
theorem convertDocument_cases (hs : s.Sound) (request : BufferRequest) (document : ByteArray) :
    Converting s [(Request.convertBuffer { request with
        id := (s.number request.id).1, dataSize := some (UInt64.ofNat document.size) }).encode,
        document]
      TellsConversion (s.convertDocument link.overheard request document) := by
  have hnumber := ends_number request.id s
  unfold convertDocument
  split
  · have hquiet : Ends s [] none s := .quiet rfl rfl rfl
    exact .unsent (hquiet.report rfl) (by simp)
  · generalize s.number request.id = r at hnumber ⊢
    rcases r with ⟨id, next⟩
    have hsend := sendFrame_cases link (hnumber.sound hs) (Request.convertBuffer { request with
      id, dataSize := some (UInt64.ofNat document.size) }).encode
    dsimp only [send] at hnumber hsend ⊢
    generalize next.sendFrame link.overheard (Request.convertBuffer { request with
      id, dataSize := some (UInt64.ofNat document.size) }).encode = r at hsend
    cases hsend with
    | refused hfinished => exact .unsent (hnumber.trans (.refused hfinished _)) (by simp)
    | failed hends => exact .unsent (hnumber.trans hends) (by simp)
    | @out sent hends =>
        have hout := hnumber.trans hends
        have hdocument := sendFrame_cases link (hout.sound hs) document
        dsimp only
        generalize sent.sendFrame link.overheard document = r at hdocument
        cases hdocument with
        | @refused status hfinished =>
            have hgiven := ends_abandon link sent (List.append_nil _).symm rfl rfl
              (some (.workerExited status))
            exact .sent (.lost (hout.trans hgiven) (finished_abandon link.overheard sent))
        | @failed e e' last hfailed =>
            have hgiven := ends_abandon link last (List.append_nil _).symm rfl rfl (some e')
            have hends := (hout.trans hfailed).trans hgiven
            exact .sent (.lost hends (finished_abandon link.overheard last))
        | @out last hlast =>
            have hsent := hout.trans hlast
            have hread := readConversion_cases link last
            dsimp only
            generalize last.readConversion link.overheard = r at hread
            cases hread with
            | lost hnext hgiven => exact .sent (.lost (hsent.trans hnext) hgiven)
            | misunderstood hnext he => exact .sent (.misunderstood (hsent.trans hnext) he)
            | done hnext htells => exact .sent (.done (hsent.trans hnext) htells)

/-! ## Operations -/

theorem hangUp_finishes (s : Supervisor (Overheard π)) :
    ∃ events, (s.hangUp link.overheard).process.events = s.process.events ++ events
      ∧ (s.hangUp link.overheard).finished = true
      ∧ (s.hangUp link.overheard).connected = false := by
  unfold hangUp
  split
  · exact ⟨_, rfl, rfl, rfl⟩
  · rename_i hconnected
    exact ⟨[], (List.append_nil _).symm, rfl, eq_false_of_ne_true hconnected⟩

/-- Behind a shutdown the worker counts as given up. -/
theorem shutdownWithin_cases (s : Supervisor (Overheard π)) (milliseconds : Nat) :
    ∃ events, Ends s events (failure? (s.shutdownWithin link.overheard milliseconds).1)
        (s.shutdownWithin link.overheard milliseconds).2
      ∧ (s.shutdownWithin link.overheard milliseconds).2.finished = true := by
  obtain ⟨events, hheard, hfinished, hconnected⟩ := hangUp_finishes link s
  have houtlast : link.overheard.outlast milliseconds (s.hangUp link.overheard).process
      = ((link.outlast milliseconds (s.hangUp link.overheard).process.process).1,
        ⟨(link.outlast milliseconds (s.hangUp link.overheard).process.process).2,
          (s.hangUp link.overheard).process.events⟩) := rfl
  unfold shutdownWithin
  dsimp only
  rw [houtlast]
  -- however the worker is stopped, nothing more passes and it is given up already
  have hends : ∀ (process : π) (failure : Option LinkError),
      Ends s events failure { s.hangUp link.overheard with
        process := ⟨process, (s.hangUp link.overheard).process.events⟩ } := by
    intro process failure
    refine .finished ?_ ?_ ?_ failure
    · exact hheard
    · exact hfinished
    · exact hconnected
  rcases link.outlast milliseconds (s.hangUp link.overheard).process.process with
    ⟨fault | (_ | status), process⟩
  · exact ⟨events, hends _ _, hfinished⟩
  · simp only [putDown_overheard]
    exact ⟨events, hends _ _, hfinished⟩
  · exact ⟨events, hends _ _, hfinished⟩

theorem failure?_valued {α : Type} (value : α → Operation.Value)
    (result : Except LinkError α × Supervisor (Overheard π)) :
    failure? (valued value result).1 = failure? result.1 := by
  rcases result with ⟨e | v, next⟩ <;> rfl

theorem Converting.ends {α : Type} {frames : List ByteArray} {Tells : List LinkEvent → α → Prop}
    {r : Except LinkError α × Supervisor (Overheard π)} (h : Converting s frames Tells r) :
    ∃ events, Ends s events (failure? r.1) r.2 := by
  cases h with
  | unsent hends => exact ⟨_, hends⟩
  | sent hsent =>
      cases hsent with
      | lost hends => exact ⟨_, hends⟩
      | misunderstood hends => exact ⟨_, hends⟩
      | done hends => exact ⟨_, hends⟩

/-- **How every operation ends.** -/
theorem perform_cases (hs : s.Sound) (op : Operation) :
    ∃ events, Ends s events (failure? (s.perform link.overheard op).1)
      (s.perform link.overheard op).2 := by
  cases op with
  | startEngine request =>
      rw [perform, failure?_valued]
      obtain ⟨events, hends, -⟩ := startEngine_cases link hs request
      exact ⟨events, hends⟩
  | convert request =>
      rw [perform, failure?_valued]
      exact (convert_cases link hs request).ends
  | convertDocument request document =>
      rw [perform, failure?_valued]
      exact (convertDocument_cases link hs request document).ends
  | sendFrame payload =>
      rw [perform, failure?_valued]
      have hsend := sendFrame_cases link hs payload
      dsimp only [valued]
      generalize s.sendFrame link.overheard payload = r at hsend
      cases hsend with
      | refused hfinished => exact ⟨[], .refused hfinished _⟩
      | failed hends => exact ⟨_, hends⟩
      | out hends => exact ⟨_, hends⟩
  | readResponse =>
      rw [perform, failure?_valued]
      have hread := readResponse_cases link s
      dsimp only [valued]
      generalize s.readResponse link.overheard = r at hread
      cases hread with
      | failed _ hends => exact ⟨_, hends⟩
      | @came payload next hends =>
          rcases hdecode : Response.decode payload with e | response
          · rw [decode_error hdecode]
            exact ⟨_, hends.report rfl⟩
          · exact ⟨_, hends⟩
  | shutdownWithin milliseconds =>
      rw [perform, failure?_valued]
      obtain ⟨events, hends, -⟩ := shutdownWithin_cases link s milliseconds
      exact ⟨events, hends⟩

/-- A frame went out first, and no other behind it. -/
def HalfSent (events : List LinkEvent) : Prop :=
  ∃ payload rest, events = .out payload :: rest ∧ ∀ other, .out other ∉ rest

/-- A document that did not follow its request leaves the worker given up. -/
theorem finished_of_halfSent (hs : s.Sound) (request : BufferRequest) (document : ByteArray)
    {events : List LinkEvent}
    (hevents : (s.convertDocument link.overheard request document).2.process.events
      = s.process.events ++ events) (h : HalfSent events) :
    (s.convertDocument link.overheard request document).2.finished = true := by
  have hconvert := convertDocument_cases link hs request document
  generalize s.convertDocument link.overheard request document = r at hconvert hevents
  obtain ⟨payload, rest, rfl, hnone⟩ := h
  cases hconvert with
  | unsent hends hout =>
      cases hends.eq_of_heard hevents
      exact absurd (List.mem_cons_self ..) (hout payload)
  | sent hsent =>
      cases hsent with
      | lost _ hgiven => exact hgiven
      | misunderstood hends =>
          -- the document is out as well
          cases hends.eq_of_heard hevents
          exact absurd (List.mem_cons_self ..) (hnone document)
      | done hends =>
          cases hends.eq_of_heard hevents
          exact absurd (List.mem_cons_self ..) (hnone document)

theorem numbered {s : Supervisor π} (hs : s.Sound) (hf : s.finished = true) (id : Int64) :
    (s.number id).2.Sound ∧ (s.number id).2.finished = true
      ∧ (s.number id).2.process = s.process := by
  unfold number
  split
  · exact ⟨hs, hf, rfl⟩
  · exact ⟨hs, hf, rfl⟩

/-- **A worker that was given up** is not asked for anything. -/
theorem perform_of_finished {s : Supervisor π} (hs : s.Sound) (hf : s.finished = true)
    {op : Operation} (hop : op.NeedsWorker) :
    ∃ status, (s.perform link op).1 = .error (.workerExited status)
      ∧ (s.perform link op).2.process = s.process := by
  cases op with
  | startEngine request =>
      simp only [perform, startEngine, ask, send, sendFrame_of_finished link hs hf]
      exact ⟨_, rfl, rfl⟩
  | convert request =>
      obtain ⟨hs', hf', hp⟩ := numbered hs hf request.id
      simp only [perform, convert, ask, send, sendFrame_of_finished link hs' hf']
      exact ⟨_, rfl, hp⟩
  | convertDocument request document =>
      obtain ⟨hs', hf', hp⟩ := numbered hs hf request.id
      have hsize : ¬ Limits.frame < document.size := Nat.not_lt.mpr hop
      simp only [perform, convertDocument, send, if_neg hsize, sendFrame_of_finished link hs' hf']
      exact ⟨_, rfl, hp⟩
  | sendFrame | readResponse | shutdownWithin => exact hop.elim

end

/-- A supervisor that has just started its worker. -/
def spawned (process : π) (timeout : Nat) : Supervisor π := { process, timeout }

theorem sound_spawned (process : π) (timeout : Nat) : (spawned process timeout).Sound := by
  constructor <;> rintro ⟨⟩

end Supervisor

/-! ## Sessions -/

open Supervisor (HalfSent)

/-- **What every step of a session keeps to.** -/
structure Step.Keeps (step : Step π) : Prop where
  before : step.before.Sound
  after : step.after.Sound
  stays : step.before.finished = true → step.after.finished = true
  /-- After trouble with the link, the worker is given up. -/
  trouble : ∀ event ∈ step.events, event.IsTrouble → step.after.finished = true
  /-- After a fatal failure, the worker is given up. -/
  fatal : ∀ e, step.result = .error e → e.isFatal = true → step.after.finished = true
  /-- After a request whose document did not go out, the worker is given up. -/
  halfSent : ∀ request document, step.operation = .convertDocument request document →
    HalfSent step.events → step.after.finished = true
  /-- A worker that was given up is not asked for anything. -/
  refused : step.before.finished = true → step.operation.NeedsWorker →
    ∃ status, step.result = .error (.workerExited status) ∧ step.events = []
      ∧ step.after.process = step.before.process

namespace Supervisor

variable (link : Link π) {s : Supervisor π}

/-- What is heard during a step is what passes while its operation is done on the overheard link,
and the step ends as the operation does. -/
theorem step_ends {op : Operation} {events : List LinkEvent}
    (h : Ends s.overheard events (failure? (s.overheard.perform link.overheard op).1)
      (s.overheard.perform link.overheard op).2) :
    (s.step link op).events = events
      ∧ (s.step link op).after.finished = (s.overheard.perform link.overheard op).2.finished
      ∧ (s.step link op).after.connected = (s.overheard.perform link.overheard op).2.connected
      ∧ (s.overheard.perform link.overheard op).1 = (s.step link op).result := by
  have hunheard := unheard_step link op s
  have hafter : (s.overheard.perform link.overheard op).2.forget = (s.step link op).after :=
    congrArg Prod.snd hunheard
  exact ⟨h.heard, by rw [← hafter]; rfl, by rw [← hafter]; rfl, congrArg Prod.fst hunheard⟩

theorem keeps_step (hs : s.Sound) (op : Operation) : (s.step link op).Keeps := by
  obtain ⟨events, hends⟩ := perform_cases link (s := s.overheard) hs op
  obtain ⟨hevents, hfinished, hconnected, hresult⟩ := step_ends link hends
  refine ⟨hs, ?_, ?_, ?_, ?_, ?_, ?_⟩
  · rw [Sound, hfinished, hconnected]
    exact hends.sound hs
  · intro h
    rw [hfinished]
    exact hends.stays h
  · rw [hevents, hfinished]
    exact hends.trouble
  · intro e he hfatal
    rw [hfinished]
    rw [hresult, he] at hends
    exact hends.fatal e rfl hfatal
  · rintro request document ⟨⟩ hhalf
    rw [hevents] at hhalf
    rw [hfinished]
    exact finished_of_halfSent link (s := s.overheard) hs request document hends.heard hhalf
  · intro hf hop
    obtain ⟨status, hfailed, hprocess⟩ := perform_of_finished link hs hf hop
    obtain ⟨_, _, hquiet⟩ := perform_of_finished link.overheard (s := s.overheard) hs hf hop
    exact ⟨status, hfailed, congrArg Overheard.events hquiet, hprocess⟩

/-- A worker that is given up before a session is given up before every step of it. -/
theorem finished_of_mem_steps (hs : s.Sound) (hf : s.finished = true) {ops : List Operation} :
    ∀ step ∈ steps link ops s, step.before.finished = true := by
  induction ops generalizing s with
  | nil => exact fun step h => absurd h List.not_mem_nil
  | cons op ops ih =>
      have hkeeps := keeps_step link hs op
      exact List.forall_mem_cons.mpr ⟨hf, ih hkeeps.after (hkeeps.stays hf)⟩

/-- What holds of every step of a sound supervisor holds of all steps of its session. -/
theorem forall_mem_steps {P : Step π → Prop}
    (h : ∀ (s : Supervisor π) (op : Operation), s.Sound → P (s.step link op)) (hs : s.Sound)
    (ops : List Operation) : ∀ step ∈ steps link ops s, P step := by
  induction ops generalizing s with
  | nil => exact fun step h => absurd h List.not_mem_nil
  | cons op ops ih => exact List.forall_mem_cons.mpr ⟨h s op hs, ih (keeps_step link hs op).after⟩

theorem steps_pairwise (hs : s.Sound) (ops : List Operation) :
    (steps link ops s).Pairwise fun earlier later =>
      earlier.after.finished = true → later.before.finished = true := by
  induction ops generalizing s with
  | nil => exact .nil
  | cons op ops ih =>
      have hkeeps := keeps_step link hs op
      refine .cons ?_ (ih hkeeps.after)
      intro later hlater hf
      exact finished_of_mem_steps link hkeeps.after hf later hlater

/-- **A supervisor knows when its worker is gone.** In every session, on every link: the supervisor
has given up the worker exactly if it has given up its stream to it; a step with a fatal failure, a
step that hears trouble, and one whose document did not follow its request leave the worker given
up; and once it is given up it stays so, and what needs it reports that it has exited, with nothing
sent and nothing read. -/
theorem steps_keep (process : π) (timeout : Nat) (ops : List Operation) :
    (∀ step ∈ steps link ops (spawned process timeout), step.Keeps)
      ∧ (steps link ops (spawned process timeout)).Pairwise fun earlier later =>
        earlier.after.finished = true → later.before.finished = true :=
  ⟨forall_mem_steps link (fun _ op hs => keeps_step link hs op) (sound_spawned process timeout) ops,
    steps_pairwise link (sound_spawned process timeout) ops⟩

end Supervisor

end PdfWorker
