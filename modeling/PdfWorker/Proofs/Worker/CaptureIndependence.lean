import PdfWorker.Proofs.Worker.Dialogue
import PdfWorker.Proofs.Worker.Likeness
import PdfWorker.Proofs.Worker.Overflow
set_option autoImplicit false

/-! # Capturing changes no conversion

Two workers are compared that differ in how they catch the engine's chatter: one capture may fail
where the other does not, and they may catch different octets. `run_withCapture` says that both make
the same calls to the engine, leave the same files, stop for the same reason and send the same
frames, but for the diagnostics in their answers.
-/

namespace PdfWorker

variable {ε δ κ κ' : Type}

/-! ## Worlds but for their captures -/

/-- The event is a call to the engine. -/
def Event.isEngineCall : Event → Bool
  | launched .. | loaded .. | exported .. | released => true
  | captureStarted | captureStopped | captureRead | sent _ => false

/-- The same host, with another capture. -/
def Host.withCapture (host : Host ε δ κ) (capture : Capture κ') : Host ε δ κ' :=
  ⟨host.platform, host.settings, host.engine, capture⟩

namespace World

/-- The same world, with another capture. -/
def withCapture (world : World ε κ) (state : κ') : World ε κ' :=
  ⟨world.files, world.environment, world.engine, state, world.log⟩

/-- The calls to the engine so far, with all that they were told. -/
def engineCalls (world : World ε κ) : List Event := world.log.toList.filter Event.isEngineCall

theorem engineCalls_record (world : World ε κ) (event : Event) :
    (world.record event).engineCalls
      = world.engineCalls ++ if event.isEngineCall then [event] else [] := by
  simp only [engineCalls, record, Array.toList_push, List.filter_append, List.filter_singleton,
    Bool.cond_eq_ite]

/-- **The same world but for the capture**: files, environment, engine and the calls to it. -/
structure SameButCapture (w : World ε κ) (w' : World ε κ') : Prop where
  files : w'.files = w.files
  environment : w'.environment = w.environment
  engine : w'.engine = w.engine
  calls : w'.engineCalls = w.engineCalls

namespace SameButCapture

variable {w : World ε κ} {w' : World ε κ'}

theorem refl (w : World ε κ) : SameButCapture w w := ⟨rfl, rfl, rfl, rfl⟩

theorem symm (h : SameButCapture w w') : SameButCapture w' w :=
  ⟨h.files.symm, h.environment.symm, h.engine.symm, h.calls.symm⟩

theorem trans {κ'' : Type} {w'' : World ε κ''} (h : SameButCapture w w')
    (h' : SameButCapture w' w'') : SameButCapture w w'' :=
  ⟨h'.files.trans h.files, h'.environment.trans h.environment, h'.engine.trans h.engine,
    h'.calls.trans h.calls⟩

theorem record (h : SameButCapture w w') (event : Event) :
    SameButCapture (w.record event) (w'.record event) :=
  ⟨h.files, h.environment, h.engine, by rw [engineCalls_record, engineCalls_record, h.calls]⟩

/-- What is no call to the engine may be recorded on one side. -/
theorem record_other (w : World ε κ) {event : Event} (h : event.isEngineCall = false) :
    SameButCapture w (w.record event) := by
  refine ⟨rfl, rfl, rfl, ?_⟩
  rw [engineCalls_record, h]
  exact List.append_nil _

end SameButCapture

/-! ## Calls -/

variable (host : Host ε δ κ) (capture : Capture κ') {w : World ε κ} {w' : World ε κ'}

theorem launch_same (h : SameButCapture w w') (setup : EngineSetup) (environment : Environment) :
    Agree SameButCapture (launch host setup { w with environment })
      (launch (host.withCapture capture) setup { w' with environment }) := by
  simp only [launch, Host.withCapture, h.files, h.engine]
  exact ⟨rfl, rfl, rfl, rfl, (h.record _).calls⟩

theorem load_same (h : SameButCapture w w') (path : String) (password : Option String) :
    Results Eq (w.load host path password).1 (w'.load (host.withCapture capture) path password).1
      ∧ SameButCapture (w.load host path password).2
        (w'.load (host.withCapture capture) path password).2 := by
  simp only [load, Host.withCapture, h.files, h.engine]
  exact ⟨.refl _, rfl, h.environment, rfl, (h.record _).calls⟩

theorem exportPdf_same (h : SameButCapture w w') (document : δ) (output : String)
    (format : Format) (options : Options) :
    Agree SameButCapture (w.exportPdf host document output format options)
      (w'.exportPdf (host.withCapture capture) document output format options) := by
  simp only [exportPdf, Host.withCapture, h.files, h.engine]
  exact ⟨rfl, rfl, h.environment, rfl, (h.record _).calls⟩

theorem release_same (h : SameButCapture w w') :
    SameButCapture (w.release host) (w'.release (host.withCapture capture)) :=
  ⟨h.files, h.environment, congrArg host.engine.release h.engine, (h.record _).calls⟩

theorem startCapture_same (w : World ε κ) : SameButCapture w (w.startCapture host).2 :=
  .trans (.record_other w rfl) ⟨rfl, rfl, rfl, rfl⟩

theorem stopCapture_same (w : World ε κ) : SameButCapture w (w.stopCapture host) :=
  .trans (.record_other w rfl) ⟨rfl, rfl, rfl, rfl⟩

theorem readCapture_same (w : World ε κ) : SameButCapture w (w.readCapture host).2 :=
  .trans (.record_other w rfl) ⟨rfl, rfl, rfl, rfl⟩

end World

/-- The same session, with another capture. -/
def Session.withCapture (s : Session ε κ) (state : κ') : Session ε κ' :=
  ⟨s.phase, s.awaited, s.world.withCapture state, s.sink⟩

open World (SameButCapture)

/-- **Capturing a call** gives what the call gives behind a start of the capture, and adds nothing
but what concerns the capture. -/
theorem Worker.captured_same {α : Type} (host : Host ε δ κ) (call : World ε κ → α × World ε κ)
    (w : World ε κ) :
    SameButCapture (call (w.startCapture host).2).2 (Worker.captured host call w).2.2 := by
  unfold Worker.captured
  rcases w.startCapture host with ⟨e | u, next⟩
  · exact .refl _
  · exact .trans (World.stopCapture_same host _) (World.readCapture_same host _)

/-- Options that belong together by having the same password are the same. -/
theorem Options.Like.eq {o o' : Options} (h : o.Like Eq o') : o' = o := by
  rw [h.rest, ← h.password]

/-- **Two captures compared**: everything is the same but for what is caught. -/
def Likeness.ofCaptures (host : Host ε δ κ) (capture : Capture κ') :
    Likeness host (host.withCapture capture) where
  worlds := SameButCapture
  documents := Eq
  passwords := Eq
  diagnostics := fun _ _ => True
  no_diagnostics := trivial
  platform := rfl
  settings := rfl
  files h := h.files
  environment h := h.environment
  withFiles h _ := ⟨rfl, h.environment, h.engine, h.calls⟩
  launch h := World.launch_same host capture h
  load h hp path := hp ▸ World.load_same host capture h path _
  exportPdf h hd ho output format := by
    rw [← hd, ho.eq]
    exact World.exportPdf_same host capture h _ output format _
  release h := World.release_same host capture h
  captured := by
    intro α call call' hcalls w w' h
    -- both calls are made behind a start of the capture, in worlds that differ in the capture only
    have hagree := hcalls _ _
      (((World.startCapture_same host w).symm.trans h).trans
        (World.startCapture_same (host.withCapture capture) w'))
    refine ⟨(Worker.captured (host.withCapture capture) call' w').2.1,
      (Worker.captured (host.withCapture capture) call' w').2.2, ?_, trivial, ?_⟩
    · refine Prod.ext ?_ rfl
      rw [Worker.captured_result, Worker.captured_result]
      exact hagree.result
    · exact ((Worker.captured_same host call w).symm.trans hagree.worlds).trans
        (Worker.captured_same (host.withCapture capture) call' w')

/-! ## What is sent -/

/-- An answer without its diagnostics. -/
def Response.bare : Response → Response
  | ready version => .ready version
  | result reply => .result { reply with diagnostics := [] }
  | bufferResult reply => .bufferResult { reply with diagnostics := [] }
  | error message => .error message

/-- What is sent, but for diagnostics. -/
def Sent.bare : Sent → Sent
  | answer response => .answer response.bare
  | pdf octets => .pdf octets

theorem Response.Like.bare {diagnostics : List Diagnostic → List Diagnostic → Prop}
    {r r' : Response} (h : r.Like diagnostics r') : r'.bare = r.bare := by
  cases h with
  | ready version => rfl
  | error message => rfl
  | result h => rw [Response.bare, Response.bare, h.rest]
  | bufferResult h => rw [Response.bare, Response.bare, h.rest]

/-- Turns that belong together have the same due, but for diagnostics. -/
theorem Likeness.Turns.map_bare_sent {ε' δ' : Type} {host : Host ε δ κ} {host' : Host ε' δ' κ'}
    {L : Likeness host host'} {t : Turn ε κ} {t' : Turn ε' κ'} (h : L.Turns t t') :
    t'.sent.map Sent.bare = t.sent.map Sent.bare := by
  have hresponse := h.response
  unfold Turn.sent
  rw [h.pdf]
  revert hresponse
  generalize t.response = response
  generalize t'.response = response'
  rintro (hlike | _)
  · simp only [Option.toList_some, List.map_cons, List.map_append, Sent.bare, hlike.bare]
  · rfl

/-- Writing changes nothing but what has been sent. -/
theorem Session.sendAll_same (frames : List ByteArray) (s : Session ε κ) :
    SameButCapture s.world (s.sendAll frames).2.world := by
  induction frames generalizing s with
  | nil => exact .refl _
  | cons payload rest ih =>
      rw [sendAll, send]
      rcases Frame.write payload s.sink with ⟨e | u, sink⟩
      · exact .refl _
      · exact (SameButCapture.record_other s.world rfl).trans
          (ih { s with sink, world := s.world.record (.sent (Frame.encode payload)) })

namespace Worker

/-- What a worker is due to send, turn by turn. -/
def sent (host : Host ε δ κ) (s : Session ε κ) (source : Source) : List Sent :=
  (turns host s source).flatMap fun m => (m.turn host).sent

/-- Where everything is taken and every answer fits, all that is due is written. -/
theorem accepted_serve (host : Host ε δ κ) (m : Moment ε κ) : m.session.sink.Accepts →
    (∀ m' ∈ turns host m.session m.source, (m'.turn host).Fits) →
    (serve host m.session m.source).2.1.sink.accepted = m.session.sink.accepted
      ++ Frame.encodeAll ((sent host m.session m.source).map Sent.payload) := by
  induction m using serve_induction host with
  | stops m reason next h =>
      intro hk hfits
      obtain ⟨hserve, hturns⟩ := serve_of_stops h
      rw [hturns] at hfits
      obtain ⟨-, -, hout, -⟩ := Session.finish_of_accepts hk (hfits m (List.mem_singleton.mpr rfl)) h
      rw [hserve, sent, hturns, List.flatMap_singleton, Turn.map_payload_sent]
      exact hout
  | continues m next h ih =>
      intro hk hfits
      obtain ⟨hserve, hturns⟩ := serve_of_continues h
      rw [hturns] at hfits
      obtain ⟨hfirst, hlater⟩ := List.forall_mem_cons.mp hfits
      obtain ⟨-, haccepts, hout, -⟩ := Session.finish_of_accepts hk hfirst h
      have hrest := ih haccepts hlater
      simp only at hrest
      rw [hserve, hrest, hout, sent, sent, hturns, List.flatMap_cons, List.map_append,
        Turn.map_payload_sent, Frame.encodeAll_append, ByteArray.append_assoc]
      rfl

/-! ## Whole runs -/

/-- Two workers that differ in their captures, about to take their turns on the same input. Their
sinks take everything, and all answers that they will give fit. -/
structure Paired (host : Host ε δ κ) (capture : Capture κ') (m : Moment ε κ) (m' : Moment ε κ') :
    Prop where
  source : m'.source = m.source
  sessions : (Likeness.ofCaptures host capture).Sessions m.session m'.session
  accepts : m.session.sink.Accepts
  accepts' : m'.session.sink.Accepts
  fits : ∀ later ∈ turns host m.session m.source, (later.turn host).Fits
  fits' : ∀ later ∈ turns (host.withCapture capture) m'.session m'.source,
    (later.turn (host.withCapture capture)).Fits

namespace Paired

variable {host : Host ε δ κ} {capture : Capture κ'} {m : Moment ε κ} {m' : Moment ε κ'}

theorem arrival (h : Paired host capture m m') :
    m'.arrival (host.withCapture capture) = m.arrival host := by
  rw [Moment.arrival, h.source]
  rfl

theorem rest (h : Paired host capture m m') :
    m'.rest (host.withCapture capture) = m.rest host := by
  rw [Moment.rest, h.source]
  rfl

theorem turns_like (h : Paired host capture m m') : (Likeness.ofCaptures host capture).Turns
    (m.turn host) (m'.turn (host.withCapture capture)) := by
  have hpayload : Option.Rel ((Likeness.ofCaptures host capture).Frames m.session.awaited)
      (Session.ending (m.arrival host)).2 (Session.ending (m.arrival host)).2 := by
    cases (Session.ending (m.arrival host)).2 with
    | none => exact .none
    | some payload =>
        refine .some ?_
        cases m.session.awaited with
        | some request => exact .document request payload
        | none => exact .message (Request.DecodedLike.of_same (fun _ => rfl) _)
  rw [Moment.turn, Moment.turn, h.arrival]
  exact Likeness.turn_like _ h.sessions rfl hpayload

/-- Behind their turns, the two are still the same but for their captures and their sinks. -/
theorem behind (h : Paired host capture m m') :
    (m'.turn (host.withCapture capture)).finish.1 = (m.turn host).finish.1
      ∧ (Likeness.ofCaptures host capture).Sessions (m.next host)
        (m'.next (host.withCapture capture))
      ∧ (m.next host).sink.Accepts ∧ (m'.next (host.withCapture capture)).sink.Accepts := by
  have hturns := h.turns_like
  obtain ⟨hreason, haccepts, -, hphase, hawaited⟩ := Session.finish_of_accepts h.accepts
    (h.fits m (mem_turns_self host m)) (Prod.eta _).symm
  obtain ⟨hreason', haccepts', -, hphase', hawaited'⟩ := Session.finish_of_accepts h.accepts'
    (h.fits' m' (mem_turns_self _ m')) (Prod.eta _).symm
  have hnext : (m.next host).awaited = (m.turn host).session.awaited := hawaited
  have hnext' : (m'.next (host.withCapture capture)).awaited
      = (m'.turn (host.withCapture capture)).session.awaited := hawaited'
  refine ⟨hreason'.trans (hturns.reason.trans hreason.symm), ⟨?_, ?_, ?_⟩, haccepts, haccepts'⟩
  · exact hphase'.trans (hturns.session.phase.trans hphase.symm)
  · rw [hnext, hnext']
    exact hturns.session.awaited
  · exact ((Session.sendAll_same _ _).symm.trans hturns.session.worlds).trans
      (Session.sendAll_same _ _)

theorem goesOn (h : Paired host capture m m') (hgoes : (m.turn host).finish.1 = none) :
    Paired host capture (m.behind host) (m'.behind (host.withCapture capture)) := by
  obtain ⟨hreason, hsessions, haccepts, haccepts'⟩ := h.behind
  have hturns := (serve_of_continues (Prod.ext hgoes rfl : _ = (none, m.next host))).2
  have hturns' := (serve_of_continues
    (Prod.ext (hreason.trans hgoes) rfl : _ = (none, m'.next (host.withCapture capture)))).2
  refine ⟨h.rest, hsessions, haccepts, haccepts', fun later hl => h.fits later ?_,
    fun later hl => h.fits' later ?_⟩
  · rw [hturns]
    exact List.mem_cons_of_mem _ hl
  · rw [hturns']
    exact List.mem_cons_of_mem _ hl

end Paired

/-- What a worker behind its last turn, and the input that is left, are but for the capture. -/
def SameEnd (host : Host ε δ κ) (capture : Capture κ') (m : Moment ε κ) (m' : Moment ε κ') : Prop :=
  m'.source = m.source ∧ (Likeness.ofCaptures host capture).Sessions m.session m'.session

theorem Paired.stops {host : Host ε δ κ} {capture : Capture κ'} {m : Moment ε κ}
    {m' : Moment ε κ'} (h : Paired host capture m m') :
    SameEnd host capture (m.behind host) (m'.behind (host.withCapture capture)) :=
  ⟨h.rest, h.behind.2.1⟩

/-- Workers that go side by side are due to send the same, but for diagnostics. -/
theorem map_bare_sent {host : Host ε δ κ} {capture : Capture κ'} {front : List (Moment ε κ)}
    {back : List (Moment ε κ')} (h : List.Forall₂ (Paired host capture) front back) :
    (back.flatMap fun m => (m.turn (host.withCapture capture)).sent).map Sent.bare
      = (front.flatMap fun m => (m.turn host).sent).map Sent.bare := by
  induction h with
  | nil => rfl
  | cons h _ ih =>
      rw [List.flatMap_cons, List.flatMap_cons, List.map_append, List.map_append, ih,
        h.turns_like.map_bare_sent]

/-- **Capturing changes no conversion.** Let two workers differ only in their captures, which may
fail at any start or stop and catch anything, and let all answers fit into frames. Into a sink that
takes everything, they stop for the same reason, in the same phase and with the same input left,
have made the same calls to the engine, have left the same files, environment and engine, and have
sent the same frames but for the diagnostics in their answers. -/
theorem run_withCapture (host : Host ε δ κ) (capture : Capture κ') (state : κ') (s : Session ε κ)
    (source : Source) (hk : s.sink.Accepts)
    (hfits : ∀ m ∈ turns host s source, (m.turn host).Fits)
    (hfits' : ∀ m ∈ turns (host.withCapture capture) (s.withCapture state) source,
      (m.turn (host.withCapture capture)).Fits) :
    (run (host.withCapture capture) (s.withCapture state) source).1 = (run host s source).1
      ∧ (run (host.withCapture capture) (s.withCapture state) source).2.1.phase
        = (run host s source).2.1.phase
      ∧ (run (host.withCapture capture) (s.withCapture state) source).2.2
        = (run host s source).2.2
      ∧ SameButCapture (run host s source).2.1.world
        (run (host.withCapture capture) (s.withCapture state) source).2.1.world
      ∧ (run host s source).2.1.sink.accepted
        = s.sink.accepted ++ Frame.encodeAll ((sent host s source).map Sent.payload)
      ∧ (run (host.withCapture capture) (s.withCapture state) source).2.1.sink.accepted
        = s.sink.accepted ++ Frame.encodeAll
          ((sent (host.withCapture capture) (s.withCapture state) source).map Sent.payload)
      ∧ (sent (host.withCapture capture) (s.withCapture state) source).map Sent.bare
        = (sent host s source).map Sent.bare := by
  have hsessions : (Likeness.ofCaptures host capture).Sessions s (s.withCapture state) := by
    refine ⟨rfl, ?_, rfl, rfl, rfl, rfl⟩
    show Option.Rel (BufferRequest.Like Eq) s.awaited s.awaited
    cases s.awaited with
    | none => exact .none
    | some request => exact .some ⟨rfl, rfl, rfl⟩
  have hpaired : Paired host capture ⟨s, source⟩ ⟨s.withCapture state, source⟩ :=
    ⟨rfl, hsessions, hk, hk, hfits, hfits'⟩
  obtain ⟨hreason, ⟨hrest, hlast⟩, hturns⟩ :=
    serve_related (R := Paired host capture) (Q := SameEnd host capture) (fun h => h.behind.1)
      Paired.goesOn (fun h _ => h.stops) ⟨s, source⟩ ⟨s.withCapture state, source⟩ hpaired
  have hclosed := (Likeness.ofCaptures host capture).close_like hlast
  exact ⟨hreason, hclosed.phase, hrest, hclosed.worlds, accepted_serve host ⟨s, source⟩ hk hfits,
    accepted_serve (host.withCapture capture) ⟨s.withCapture state, source⟩ hk hfits',
    map_bare_sent hturns⟩

/-! ## A capture that never starts -/

/-- On a moderate host with a low ceiling on frames, every answer fits. -/
theorem fits_of_low_ceiling {host : Host ε δ κ} (hm : host.Moderate)
    (hlow : host.settings.maxFrame + 31 * mebibyte ≤ Limits.frame) {s : Session ε κ}
    (hs : s.world.files.Sized) (hk : s.sink.Accepts) (source : Source) :
    ∀ m ∈ turns host s source, (m.turn host).Fits := by
  intro m hm'
  refine ((serve_outputFailed_iff hm ⟨s, source⟩ hs hk).2 m hm' ?_).1
  -- an answer that overflows is to a frame above the ceiling
  rintro ⟨request, input, reply, hlong⟩
  obtain ⟨payload, harrival, hlarge⟩ := hlong.near
  have hsize := size_le_of_arrival harrival
  omega

/-- A host whose engine loads nothing, whose capture has always caught the same warning, and whose
ceiling is low. -/
def warned : Host Unit Empty Unit :=
  { idle with
    settings := { maxFrame := mebibyte }
    capture := { Capture.none with read := fun s => ("warn: no font".toUTF8, s) } }

/-- A capture that never starts. -/
def brokenCapture : Capture Unit :=
  { Capture.none with start := fun s => (.error ⟨.other, "no pipe"⟩, s) }

/-- A worker whose engine has started, and a file that it is asked to convert. -/
def ready : Session Unit Unit :=
  { started with world := { started.world with
      files := { entries := [(["a"], .file .empty)], here := [] } } }

def fileSource : Source :=
  .ofOctets (Frame.encode
    (Request.convert { input := some "/a", output := some "/b" }).encode)

/-- One worker reads the same warning behind each conversion, the other never captures. -/
theorem run_withCapture_of_broken :
    (run (warned.withCapture brokenCapture) (ready.withCapture ()) fileSource).1
        = (run warned ready fileSource).1
      ∧ SameButCapture (run warned ready fileSource).2.1.world
        (run (warned.withCapture brokenCapture) (ready.withCapture ()) fileSource).2.1.world
      ∧ (sent (warned.withCapture brokenCapture) (ready.withCapture ()) fileSource).map Sent.bare
        = (sent warned ready fileSource).map Sent.bare := by
  have hcaught : "warn: no font".toUTF8.size ≤ mebibyte := by decide
  have hmoderate : warned.Moderate := { moderate_idle with caught := hcaught }
  have hbroken : (warned.withCapture brokenCapture).Moderate :=
    { moderate_idle with caught := Nat.zero_le _ }
  have hsized : ready.world.files.Sized := by
    intro place content hmem
    simp only [ready, List.mem_singleton, Prod.mk.injEq, Entry.file.injEq] at hmem
    rw [hmem.2]
    decide
  have haccepts : ready.sink.Accepts := Sink.accepts_default .empty
  have hfits := fits_of_low_ceiling hmoderate (by decide) hsized haccepts fileSource
  have hfits' := fits_of_low_ceiling (s := ready.withCapture ()) hbroken (by decide) hsized
    haccepts fileSource
  obtain ⟨hreason, -, -, hworlds, -, -, hsent⟩ :=
    run_withCapture warned brokenCapture () ready fileSource haccepts hfits hfits'
  exact ⟨hreason, hworlds, hsent⟩

end Worker

end PdfWorker
