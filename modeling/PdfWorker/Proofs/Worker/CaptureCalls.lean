import PdfWorker.Proofs.Worker.FontPath
set_option autoImplicit false

/-! # The calls to the capture

A worker puts calls to the capture around each conversion that it makes, and makes no others.
`Moment.Captures` says of one turn which calls these are and which diagnostics the answer carries,
and `run_captures` that every turn of a run is so and that what the turns add to the log is all that
the run adds to it, but for the release of the engine.
-/

namespace PdfWorker

open Relation (ReflTransGen)

variable {ε δ κ : Type}

/-! ## What a log gains -/

/-- The event is a call to the capture. -/
inductive Event.IsCapture : Event → Prop where
  | started : IsCapture .captureStarted
  | stopped : IsCapture .captureStopped
  | read : IsCapture .captureRead

/-- The event is a use of the engine. -/
inductive Event.IsUse : Event → Prop where
  | loaded (path : String) (password : Option String) (content : Option ByteArray) :
      IsUse (.loaded path password content)
  | exported (output : String) (format : Format) (options : Options) :
      IsUse (.exported output format options)

namespace World

/-- Between two worlds these events have happened. -/
def Gains (world next : World ε κ) (events : List Event) : Prop :=
  next.log.toList = world.log.toList ++ events

theorem Gains.refl (world : World ε κ) : Gains world world [] := (List.append_nil _).symm

theorem Gains.trans {world mid next : World ε κ} {events later : List Event}
    (h : Gains world mid events) (h' : Gains mid next later) :
    Gains world next (events ++ later) := by
  rw [Gains, h', h, List.append_assoc]

theorem Gains.of_event {world next : World ε κ} {event : Event}
    (h : next.log = world.log.push event) : Gains world next [event] := by
  rw [Gains, h, Array.toList_push]

/-- **A conversion uses the engine** and does nothing else that can be seen from outside. -/
theorem gains_of_converts {host : Host ε δ κ} {world next : World ε κ}
    (h : ReflTransGen (Converts host) world next) :
    ∃ uses, Gains world next uses ∧ ∀ e ∈ uses, e.IsUse := by
  induction h with
  | refl => exact ⟨[], .refl world, by simp⟩
  | @tail mid next _ hcall ih =>
      obtain ⟨uses, hgains, huses⟩ := ih
      have hmore : ∃ more, Gains mid next more ∧ ∀ e ∈ more, e.IsUse := by
        cases hcall with
        | load path password =>
            exact ⟨_, .of_event rfl, List.forall_mem_singleton.mpr (.loaded ..)⟩
        | exportPdf document output format options =>
            exact ⟨_, .of_event rfl, List.forall_mem_singleton.mpr (.exported ..)⟩
        | changeFiles files => exact ⟨[], .refl mid, by simp⟩
      obtain ⟨more, hgains', hmore⟩ := hmore
      exact ⟨uses ++ more, hgains.trans hgains', List.forall_mem_append.mpr ⟨huses, hmore⟩⟩

end World

/-! ## Conversions that are made -/

/-- A conversion that a worker makes. -/
inductive Job where
  | file (input output : String) (format : Format) (options : Options)
  | document (octets : ByteArray) (format : Format) (options : Options)

namespace Job

/-- The world behind the conversion alone. -/
def behind (host : Host ε δ κ) (job : Job) (world : World ε κ) : World ε κ :=
  match job with
  | file input output format options =>
    (Conversion.convertFile host input output format options world).2
  | document octets format options =>
    (Conversion.convertDocument host octets format options world).2

/-- The diagnostics of the conversion with the capture around it, and the world behind it. -/
def captured (host : Host ε δ κ) (job : Job) (world : World ε κ) :
    List Diagnostic × World ε κ :=
  match job with
  | file input output format options =>
    (Worker.captured host (Conversion.convertFile host input output format options) world).2
  | document octets format options =>
    (Worker.captured host (Conversion.convertDocument host octets format options) world).2

theorem gains_behind (host : Host ε δ κ) (job : Job) (world : World ε κ) :
    ∃ uses, World.Gains world (job.behind host world) uses ∧ ∀ e ∈ uses, e.IsUse := by
  cases job with
  | file input output format options =>
      exact World.gains_of_converts
        (Conversion.convertFile_acts host input output format options world)
  | document octets format options =>
      exact World.gains_of_converts
        (Conversion.convertDocument_acts host octets format options world)

/-- Behind a capture that starts, the conversion is made, the capture is stopped, and what is read
from it then gives the diagnostics. -/
theorem captured_of_started {host : Host ε δ κ} {world started : World ε κ}
    (h : world.startCapture host = (.ok (), started)) (job : Job) :
    job.captured host world
      = (LogLine.ofOctets (((job.behind host started).stopCapture host).readCapture host).1,
        (((job.behind host started).stopCapture host).readCapture host).2) := by
  cases job <;> simp only [captured, Worker.captured, h, behind]

/-- Behind a capture that does not start, the conversion is made, and there are no diagnostics. -/
theorem captured_of_refused {host : Host ε δ κ} {world refused : World ε κ} {fault : Fault}
    (h : world.startCapture host = (.error fault, refused)) (job : Job) :
    job.captured host world = ([], job.behind host refused) := by
  cases job <;> simp only [captured, Worker.captured, h, behind]

end Job

namespace Session

/-- **The conversion that is made** about what arrives: the engine is running, and a request names
both paths, or a document has the size that its request tells. -/
def job? (arrival : Except Fault Frame.Arrival) (s : Session ε κ) : Option Job :=
  match s.phase, s.awaited, arrival with
  | .ready, some request, .ok (.frame octets) =>
    if request.dataSize.map UInt64.toNat = some octets.size
    then some (.document octets request.format request.options) else none
  | .ready, none, arrival =>
    match s.request? arrival with
    | some (.convert request) =>
      match Worker.given request.input, Worker.given request.output with
      | some input, some output => some (.file input output request.format request.options)
      | _, _ => none
    | _ => none
  | _, _, _ => none

end Session

/-- The diagnostics that an answer carries, if it answers a request to convert. -/
def Turn.diagnostics? (t : Turn ε κ) : Option (List Diagnostic) :=
  match t.response with
  | some (.result reply) => some reply.diagnostics
  | some (.bufferResult reply) => some reply.diagnostics
  | _ => none

namespace Worker

/-! ## Answers -/

theorem pdfReply_diagnostics (id : Int64) (pdf : ByteArray) (diagnostics : List Diagnostic) :
    (pdfReply id pdf diagnostics).1.diagnostics = diagnostics := by
  unfold pdfReply
  split <;> rfl

/-- A document that is converted is answered with what was caught. -/
theorem convertDocument_job (host : Host ε δ κ) {request : BufferRequest} {octets : ByteArray}
    (h : request.dataSize.map UInt64.toNat = some octets.size) (world : World ε κ) :
    (convertDocument host request (some octets) .ready world).1.1.diagnostics
        = ((Job.document octets request.format request.options).captured host world).1
      ∧ (convertDocument host request (some octets) .ready world).2
        = ((Job.document octets request.format request.options).captured host world).2 := by
  obtain ⟨size, hsize, htold⟩ := Option.map_eq_some_iff.mp h
  simp only [convertDocument, hsize, htold, Job.captured, ne_eq, not_true_eq_false, if_false]
  rcases captured host (Conversion.convertDocument host octets request.format request.options)
    world with ⟨e | pdf, diagnostics, next⟩
  · exact ⟨rfl, rfl⟩
  · exact ⟨pdfReply_diagnostics .., rfl⟩

/-- Any other document, or its absence, is answered without diagnostics, and nothing happens. -/
theorem convertDocument_no_job (host : Host ε δ κ) {request : BufferRequest}
    {document : Option ByteArray} {phase : Phase}
    (h : ∀ octets, phase = .ready → document = some octets →
      request.dataSize.map UInt64.toNat ≠ some octets.size) (world : World ε κ) :
    (convertDocument host request document phase world).1.1.diagnostics = []
      ∧ (convertDocument host request document phase world).2 = world := by
  unfold convertDocument
  dsimp only
  split
  · exact ⟨rfl, rfl⟩
  · rename_i hready
    split
    · exact ⟨rfl, rfl⟩
    · exact ⟨rfl, rfl⟩
    · rename_i expected octets hsize
      split
      · exact ⟨rfl, rfl⟩
      · rename_i hequal
        refine absurd ?_ (h octets (not_not.mp hready) rfl)
        rw [hsize, Option.map_some, not_not.mp hequal]

/-- A file that is converted is answered with what was caught. -/
theorem convert_job (host : Host ε δ κ) {request : FileRequest} {input output : String}
    (hinput : given request.input = some input) (houtput : given request.output = some output)
    (world : World ε κ) :
    (convert host request .ready world).1.diagnostics
        = ((Job.file input output request.format request.options).captured host world).1
      ∧ (convert host request .ready world).2
        = ((Job.file input output request.format request.options).captured host world).2 := by
  simp only [convert, hinput, houtput, Job.captured]
  rcases captured host (Conversion.convertFile host input output request.format request.options)
    world with ⟨e | u, diagnostics, next⟩ <;> exact ⟨rfl, rfl⟩

/-- Any other file is answered without diagnostics, and nothing happens. -/
theorem convert_no_job (host : Host ε δ κ) {request : FileRequest} {phase : Phase}
    (h : phase = .ready → given request.input = none ∨ given request.output = none)
    (world : World ε κ) :
    (convert host request phase world).1.diagnostics = []
      ∧ (convert host request phase world).2 = world := by
  unfold convert
  split
  · rename_i hinput houtput
    rcases h rfl with hnone | hnone
    · rw [hnone] at hinput
      cases hinput
    · rw [hnone] at houtput
      cases houtput
  · exact ⟨rfl, rfl⟩
  · exact ⟨rfl, rfl⟩

/-- A start of the engine is no call to the capture. -/
theorem startEngine_gains (host : Host ε δ κ) (request : InitRequest) (phase : Phase)
    (world : World ε κ) :
    ∃ events, World.Gains world (startEngine host request phase world).2.2 events
      ∧ ∀ e ∈ events, ¬ e.IsCapture := by
  rcases startEngine_world host request phase world with ⟨-, hsame⟩ | ⟨-, path, -, -, hlog⟩
  · exact ⟨[], by rw [hsame]; exact .refl world, by simp⟩
  · refine ⟨[launchEvent host request path world], .of_event hlog, ?_⟩
    rw [List.forall_mem_singleton]
    rintro ⟨⟩

end Worker

namespace Session

/-! ## Turns -/

variable (host : Host ε δ κ) {arrival : Except Fault Frame.Arrival} {s : Session ε κ}

/-- Where a document is awaited, the turn is that of what arrives. -/
theorem turn_of_awaited {request : BufferRequest} (h : s.awaited = some request) :
    s.turn host arrival
      = s.documentTurn host request (ending arrival).2 (ending arrival).1 := by
  unfold turn
  rw [h]

theorem turn_of_request {request : Request} (h : s.request? arrival = some request) :
    s.turn host arrival = s.answerTurn host request := by
  rcases s.turn_cases host arrival with ⟨other, hother, hturn⟩ | ⟨hnone, -⟩
  · cases h.symm.trans hother
    exact hturn
  · cases h.symm.trans hnone

/-- What is neither a document nor a request changes nothing, and no answer to it has
diagnostics. -/
theorem turn_of_no_request (ha : s.awaited = none) (h : s.request? arrival = none) :
    (s.turn host arrival).diagnostics? = none ∧ (s.turn host arrival).session = s := by
  unfold request? at h
  unfold turn
  rw [ha] at h ⊢
  rcases arrival with fault | (payload | _ | size)
  · exact ⟨rfl, rfl⟩
  · simp only [ending, messageTurn] at h ⊢
    rcases hdecode : Request.decode payload with e | (request | kind)
    · exact ⟨rfl, rfl⟩
    · rw [hdecode] at h
      cases h
    · exact ⟨rfl, rfl⟩
  · exact ⟨rfl, rfl⟩
  · exact ⟨rfl, rfl⟩

theorem diagnostics?_answerTurn_init (request : InitRequest) (s : Session ε κ) :
    (s.answerTurn host (.init request)).diagnostics? = none := by
  simp only [answerTurn]
  rcases Worker.startEngine_cases host request s.phase s.world with
    ⟨-, h⟩ | ⟨-, -, version, world, h⟩ | ⟨-, message, world, h⟩ <;> rw [h] <;> rfl

/-- **The turn of a conversion** tells what was caught, and leaves the world behind it. -/
theorem turn_of_job {job : Job} (h : s.job? arrival = some job) :
    (s.turn host arrival).diagnostics? = some (job.captured host s.world).1
      ∧ (s.turn host arrival).session.world = (job.captured host s.world).2 := by
  unfold job? at h
  split at h
  · rename_i request octets hphase hawaited
    split at h
    · rename_i hsize
      cases h
      obtain ⟨hdiagnostics, hworld⟩ := Worker.convertDocument_job host hsize s.world
      rw [turn_of_awaited host hawaited]
      simp only [ending, documentTurn, hphase]
      exact ⟨congrArg some hdiagnostics, hworld⟩
    · cases h
  · rename_i hphase hawaited
    split at h
    · rename_i request hrequest
      split at h
      · rename_i input output hinput houtput
        cases h
        obtain ⟨hdiagnostics, hworld⟩ := Worker.convert_job host hinput houtput s.world
        rw [turn_of_request host hrequest]
        simp only [answerTurn, hphase]
        exact ⟨congrArg some hdiagnostics, hworld⟩
      · cases h
    · cases h
  · cases h

/-- The turn of a document that is not converted. -/
theorem documentTurn_of_no_job {request : BufferRequest} (ha : s.awaited = some request)
    (h : s.job? arrival = none) :
    (s.turn host arrival).diagnostics? = some []
      ∧ (s.turn host arrival).session.world = s.world := by
  have hno : ∀ octets, s.phase = .ready → (ending arrival).2 = some octets →
      request.dataSize.map UInt64.toNat ≠ some octets.size := by
    intro octets hphase hpayload hsize
    rcases arrival with fault | (payload | _ | size)
    · cases hpayload
    · cases hpayload
      simp only [job?, hphase, ha, if_pos hsize] at h
      cases h
    · cases hpayload
    · cases hpayload
  obtain ⟨hdiagnostics, hworld⟩ := Worker.convertDocument_no_job host hno s.world
  rw [turn_of_awaited host ha]
  exact ⟨congrArg some hdiagnostics, hworld⟩

/-- The turn of a file that is not converted. -/
theorem answerTurn_of_no_job {request : FileRequest} (ha : s.awaited = none)
    (hr : s.request? arrival = some (.convert request)) (h : s.job? arrival = none) :
    (s.turn host arrival).diagnostics? = some []
      ∧ (s.turn host arrival).session.world = s.world := by
  have hno : s.phase = .ready →
      Worker.given request.input = none ∨ Worker.given request.output = none := by
    intro hphase
    simp only [job?, hphase, ha, hr] at h
    split at h
    · cases h
    · rename_i hnone
      rw [← Option.not_isSome_iff_eq_none, ← Option.not_isSome_iff_eq_none, ← not_and_or]
      rintro ⟨hinput, houtput⟩
      exact hnone _ _ (Option.some_get hinput).symm (Option.some_get houtput).symm
  obtain ⟨hdiagnostics, hworld⟩ := Worker.convert_no_job host hno s.world
  rw [turn_of_request host hr]
  exact ⟨congrArg some hdiagnostics, hworld⟩

/-- **Any other turn** makes no call to the capture and tells no diagnostics. -/
theorem turn_of_no_job (h : s.job? arrival = none) :
    (∀ diagnostics ∈ (s.turn host arrival).diagnostics?, diagnostics = [])
      ∧ ∃ events, World.Gains s.world (s.turn host arrival).session.world events
        ∧ ∀ e ∈ events, ¬ e.IsCapture := by
  have hquiet : (∀ diagnostics ∈ (s.turn host arrival).diagnostics?, diagnostics = []) →
      (s.turn host arrival).session.world = s.world →
      (∀ diagnostics ∈ (s.turn host arrival).diagnostics?, diagnostics = [])
        ∧ ∃ events, World.Gains s.world (s.turn host arrival).session.world events
          ∧ ∀ e ∈ events, ¬ e.IsCapture :=
    fun hnone hworld => ⟨hnone, [], by rw [hworld]; exact .refl _, by simp⟩
  -- only a start of the engine does anything to the world
  cases ha : s.awaited with
  | some request =>
      obtain ⟨hdiagnostics, hworld⟩ := documentTurn_of_no_job host ha h
      exact hquiet (by simp [hdiagnostics]) hworld
  | none =>
      cases hr : s.request? arrival with
      | none =>
          obtain ⟨hdiagnostics, hsession⟩ := turn_of_no_request host ha hr
          exact hquiet (by simp [hdiagnostics]) (by rw [hsession])
      | some request =>
          cases request with
          | init request =>
              have hturn := turn_of_request host hr
              rw [hturn, diagnostics?_answerTurn_init, world_answerTurn_init]
              exact ⟨by simp, Worker.startEngine_gains host request s.phase s.world⟩
          | convert request =>
              obtain ⟨hdiagnostics, hworld⟩ := answerTurn_of_no_job host ha hr h
              exact hquiet (by simp [hdiagnostics]) hworld
          | convertBuffer request =>
              have hturn := turn_of_request host hr
              exact hquiet (by rw [hturn]; simp [answerTurn, Turn.diagnostics?]) (by rw [hturn]; rfl)
          | quit =>
              have hturn := turn_of_request host hr
              exact hquiet (by rw [hturn]; simp [answerTurn, Turn.diagnostics?]) (by rw [hturn]; rfl)

/-- What is written is logged, frame by frame, up to the first that cannot be written. -/
theorem gains_sendAll (frames : List ByteArray) (s : Session ε κ) :
    ∃ sent, sent <+: frames.map (fun payload => Event.sent (Frame.encode payload))
      ∧ World.Gains s.world (s.sendAll frames).2.world sent := by
  induction frames generalizing s with
  | nil => exact ⟨[], List.nil_prefix, .refl _⟩
  | cons payload rest ih =>
      rw [sendAll, send]
      rcases Frame.write payload s.sink with ⟨e | u, sink⟩
      · exact ⟨[], List.nil_prefix, .refl _⟩
      · obtain ⟨sent, hsent, hgains⟩ :=
          ih { s with sink, world := s.world.record (.sent (Frame.encode payload)) }
        have hfirst : World.Gains s.world (s.world.record (.sent (Frame.encode payload)))
            [.sent (Frame.encode payload)] := .of_event rfl
        refine ⟨.sent (Frame.encode payload) :: sent, ?_, hfirst.trans hgains⟩
        rw [List.map_cons, List.cons_prefix_cons]
        exact ⟨rfl, hsent⟩

end Session

namespace Moment

variable {host : Host ε δ κ} {m : Moment ε κ}

/-- The conversion that is made about what arrives. -/
def job? (host : Host ε δ κ) (m : Moment ε κ) : Option Job := m.session.job? (m.arrival host)

/-- The writes of the frames that are due. -/
def writes (host : Host ε δ κ) (m : Moment ε κ) : List Event :=
  (m.turn host).frames.map fun payload => .sent (Frame.encode payload)

/-- **What a turn does about the capture**, and which diagnostics its answer carries. -/
inductive Captures (host : Host ε δ κ) (m : Moment ε κ) : Prop where
  /-- No conversion is made: the capture is not called, and no diagnostics are told. -/
  | idle : m.job? host = none → (∀ e ∈ m.events host, ¬ e.IsCapture) →
      (∀ diagnostics ∈ (m.turn host).diagnostics?, diagnostics = []) → Captures host m
  /-- The capture starts, and is stopped and read behind the conversion. What is read then gives the
  diagnostics. -/
  | caught {job started uses sent} : m.job? host = some job →
      m.session.world.startCapture host = (.ok (), started) →
      World.Gains started (job.behind host started) uses → (∀ e ∈ uses, e.IsUse) →
      sent <+: m.writes host →
      m.events host = .captureStarted :: uses ++ [.captureStopped, .captureRead] ++ sent →
      (m.turn host).diagnostics? = some (LogLine.ofOctets
        (((job.behind host started).stopCapture host).readCapture host).1) → Captures host m
  /-- The capture does not start. The conversion is made all the same. -/
  | refused {job fault refused uses sent} : m.job? host = some job →
      m.session.world.startCapture host = (.error fault, refused) →
      World.Gains refused (job.behind host refused) uses → (∀ e ∈ uses, e.IsUse) →
      sent <+: m.writes host → m.events host = .captureStarted :: uses ++ sent →
      (m.turn host).diagnostics? = some [] → Captures host m

/-- What the turn adds to the log is what its decision adds, and then what is written. -/
theorem events_of_gains {events : List Event}
    (h : World.Gains m.session.world (m.turn host).session.world events) :
    ∃ sent, sent <+: m.writes host ∧ m.events host = events ++ sent := by
  obtain ⟨sent, hsent, hgains⟩ := (m.turn host).session.gains_sendAll (m.turn host).frames
  exact ⟨sent, hsent, m.events_eq (h.trans hgains)⟩

/-- **Every turn** calls the capture around the conversion that it makes, and only there. -/
theorem captures (host : Host ε δ κ) (m : Moment ε κ) : m.Captures host := by
  cases hjob : m.job? host with
  | none =>
      obtain ⟨hdiagnostics, events, hgains, hno⟩ := Session.turn_of_no_job host hjob
      obtain ⟨sent, hsent, hevents⟩ := events_of_gains hgains
      refine .idle hjob ?_ hdiagnostics
      rw [hevents, List.forall_mem_append]
      refine ⟨hno, fun e he => ?_⟩
      obtain ⟨payload, -, rfl⟩ := List.mem_map.mp (hsent.subset he)
      rintro ⟨⟩
  | some job =>
      obtain ⟨hdiagnostics, hworld⟩ := Session.turn_of_job host hjob
      have hstart : World.Gains m.session.world (m.session.world.startCapture host).2
        [.captureStarted] := .of_event rfl
      rcases hresult : m.session.world.startCapture host with ⟨fault | u, behind⟩
      all_goals
        rw [hresult] at hstart
        obtain ⟨uses, huses, hall⟩ := job.gains_behind host behind
      · rw [job.captured_of_refused hresult] at hdiagnostics hworld
        have hbehind : (m.turn host).session.world = job.behind host behind := hworld
        have hgains := hstart.trans huses
        rw [← hbehind] at hgains
        obtain ⟨sent, hsent, hevents⟩ := events_of_gains hgains
        exact .refused hjob hresult huses hall hsent hevents hdiagnostics
      · rw [job.captured_of_started hresult] at hdiagnostics hworld
        have hbehind : (m.turn host).session.world
            = (((job.behind host behind).stopCapture host).readCapture host).2 := hworld
        -- behind the conversion the capture is stopped and read
        have hstop : World.Gains (job.behind host behind) ((job.behind host behind).stopCapture host)
          [.captureStopped] := .of_event rfl
        have hread : World.Gains ((job.behind host behind).stopCapture host)
          (((job.behind host behind).stopCapture host).readCapture host).2 [.captureRead] :=
          .of_event rfl
        have hgains := (hstart.trans huses).trans (hstop.trans hread)
        rw [← hbehind] at hgains
        obtain ⟨sent, hsent, hevents⟩ := events_of_gains hgains
        exact .caught hjob hresult huses hall hsent hevents hdiagnostics

/-- A turn only adds to the log. -/
theorem gains_next (host : Host ε δ κ) (m : Moment ε κ) :
    World.Gains m.session.world (m.next host).world (m.events host) := by
  have hlog : ∃ events, World.Gains m.session.world (m.next host).world events := by
    cases m.sets host with
    | starts _ _ _ _ hlog _ => exact ⟨_, hlog⟩
    | nothing _ hstill =>
        obtain ⟨events, hlog, -⟩ := hstill.log
        exact ⟨events, hlog⟩
  obtain ⟨events, hgains⟩ := hlog
  rw [m.events_eq hgains]
  exact hgains

end Moment

namespace Worker

/-! ## Whole runs -/

theorem gains_serve (host : Host ε δ κ) (m : Moment ε κ) :
    World.Gains m.session.world (serve host m.session m.source).2.1.world
      ((turns host m.session m.source).flatMap (Moment.events host)) := by
  induction m using serve_induction host with
  | stops m reason next h =>
      obtain ⟨hserve, hturns⟩ := serve_of_stops h
      have hnext := m.gains_next host
      rw [Moment.next, h] at hnext
      rw [hserve, hturns, List.flatMap_singleton]
      exact hnext
  | continues m next h ih =>
      obtain ⟨hserve, hturns⟩ := serve_of_continues h
      have hnext := m.gains_next host
      rw [Moment.next, h] at hnext
      rw [hserve, hturns, List.flatMap_cons]
      exact hnext.trans ih

/-- **Diagnostics are of the conversion that they are told about.** In every run, whatever the
engine and the capture do, each turn that makes a conversion starts the capture once; if it starts,
the uses of the engine follow, then one stop and one read, and only then is the answer written, with
the diagnostics of what was read; if it does not start, the engine is used all the same and there
are no diagnostics. No other turn calls the capture or tells diagnostics, and besides what the turns
do only the release of the engine is logged. -/
theorem run_captures (host : Host ε δ κ) (s : Session ε κ) (source : Source) :
    (∀ m ∈ turns host s source, m.Captures host)
      ∧ ∃ closing, (closing = [] ∨ closing = [.released])
        ∧ World.Gains s.world (run host s source).2.1.world
          ((turns host s source).flatMap (Moment.events host) ++ closing) := by
  refine ⟨fun m _ => m.captures host, ?_⟩
  have hserve := gains_serve host ⟨s, source⟩
  by_cases hready : (serve host s source).2.1.phase = .ready
  · refine ⟨[.released], .inr rfl, hserve.trans ?_⟩
    simp only [run, Session.close, hready, if_true]
    exact .of_event rfl
  · refine ⟨[], .inl rfl, hserve.trans ?_⟩
    simp only [run, Session.close, hready, if_false]
    exact .refl _

end Worker

end PdfWorker
