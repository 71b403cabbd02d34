import PdfWorker.Proofs.Worker.FontPath
import PdfWorker.Proofs.Worker.Veil
set_option autoImplicit false

/-! # Passwords stay secret

Two runs are compared whose frames are the same but for passwords. The engine may use a password,
but nothing that it does may depend on which one it is given (`Host.Discreet`). `run_of_veiled` says
that then both runs stop for the same reason and in the same phase, write the same octets, leave the
same files and do the same, but for the passwords in the calls to the engine, and that their requests
look the same in logs.
-/

namespace PdfWorker

variable {ε δ κ α : Type}

/-! ## Hosts that keep a secret -/

/-- Two events that are the same but for the password that the engine is given. -/
inductive Event.Veiled : Event → Event → Prop where
  | same (event : Event) : Veiled event event
  | loaded {password password' : Option String} (path : String) (content : Option ByteArray) :
      Password.Veils password password' →
      Veiled (.loaded path password content) (.loaded path password' content)
  | exported {options options' : Options} (output : String) (format : Format) :
      options.Like Password.Veils options' →
      Veiled (.exported output format options) (.exported output format options')

/-- Two outcomes of calls to the engine that cannot be told apart: their results and states belong
together, and they leave the same files and sound alike. -/
structure Outcome.Alike (results : α → α → Prop) (states : ε → ε → Prop)
    (sounds : ByteArray → ByteArray → Prop) (o o' : Outcome ε α) : Prop where
  result : Results results o.result o'.result
  files : o'.files = o.files
  state : states o.state o'.state
  chatter : sounds o.chatter o'.chatter

/-- **A host that keeps a secret**: engines, documents and captures that cannot be told apart stay so
whatever passwords the engine is given, and so nothing that can be seen depends on a password. -/
structure Host.Discreet (host : Host ε δ κ) where
  engines : ε → ε → Prop
  documents : δ → δ → Prop
  captures : κ → κ → Prop
  engines_refl (e : ε) : engines e e
  captures_refl (k : κ) : captures k k
  launch {e e' : ε} : engines e e' → ∀ files environment setup,
    (host.engine.launch e' files environment setup).1
        = (host.engine.launch e files environment setup).1
      ∧ engines (host.engine.launch e files environment setup).2
        (host.engine.launch e' files environment setup).2
  load {e e' : ε} {password password' : Option String} : engines e e' →
    Password.Veils password password' → ∀ files path,
    Outcome.Alike documents engines
      (fun c c' => ∀ {k k'}, captures k k' →
        captures (host.capture.hear k c) (host.capture.hear k' c'))
      (host.engine.load e files path password) (host.engine.load e' files path password')
  exportPdf {e e' : ε} {document document' : δ} {options options' : Options} : engines e e' →
    documents document document' → options.Like Password.Veils options' →
    ∀ files output format,
    Outcome.Alike Eq engines
      (fun c c' => ∀ {k k'}, captures k k' →
        captures (host.capture.hear k c) (host.capture.hear k' c'))
      (host.engine.exportPdf e files document output format options)
      (host.engine.exportPdf e' files document' output format options')
  release {e e' : ε} : engines e e' → engines (host.engine.release e) (host.engine.release e')
  start {k k' : κ} : captures k k' →
    (host.capture.start k').1 = (host.capture.start k).1
      ∧ captures (host.capture.start k).2 (host.capture.start k').2
  stop {k k' : κ} : captures k k' → captures (host.capture.stop k).2 (host.capture.stop k').2
  read {k k' : κ} : captures k k' →
    (host.capture.read k').1 = (host.capture.read k).1
      ∧ captures (host.capture.read k).2 (host.capture.read k').2

namespace Host.Discreet

variable {host : Host ε δ κ} (d : host.Discreet)

/-- **Two worlds that are the same but for passwords**: the same files and environment, engines and
captures that cannot be told apart, and the same log but for the passwords in it. -/
structure Worlds (w w' : World ε κ) : Prop where
  files : w'.files = w.files
  environment : w'.environment = w.environment
  engine : d.engines w.engine w'.engine
  capture : d.captures w.capture w'.capture
  log : List.Forall₂ Event.Veiled w.log.toList w'.log.toList

variable {d} {w w' : World ε κ}

theorem Worlds.record (h : d.Worlds w w') {event event' : Event} (he : event.Veiled event') :
    d.Worlds (w.record event) (w'.record event') := by
  refine ⟨h.files, h.environment, h.engine, h.capture, ?_⟩
  simp only [World.record, Array.toList_push]
  exact List.rel_append h.log (.cons he .nil)

/-! ## Calls -/

theorem launch_alike (h : d.Worlds w w') (setup : EngineSetup) (environment : Environment) :
    Agree d.Worlds (World.launch host setup { w with environment })
      (World.launch host setup { w' with environment }) := by
  obtain ⟨hresult, hengine⟩ := d.launch h.engine w.files environment setup
  simp only [World.launch, h.files]
  exact ⟨hresult, rfl, rfl, hengine, h.capture, (h.record (.same _)).log⟩

theorem load_alike (h : d.Worlds w w') {password password' : Option String}
    (hp : Password.Veils password password') (path : String) :
    Results d.documents (w.load host path password).1 (w'.load host path password').1
      ∧ d.Worlds (w.load host path password).2 (w'.load host path password').2 := by
  have halike := d.load h.engine hp w.files path
  have hlog := (h.record (.loaded path (w.files.read path).toOption hp)).log
  simp only [World.load, h.files]
  exact ⟨halike.result, halike.files, h.environment, halike.state, halike.chatter h.capture, hlog⟩

theorem exportPdf_alike (h : d.Worlds w w') {document document' : δ}
    (hd : d.documents document document') {options options' : Options}
    (ho : options.Like Password.Veils options') (output : String) (format : Format) :
    Agree d.Worlds (w.exportPdf host document output format options)
      (w'.exportPdf host document' output format options') := by
  have halike := d.exportPdf h.engine hd ho w.files output format
  have hlog := (h.record (.exported output format ho)).log
  simp only [World.exportPdf, h.files]
  exact ⟨halike.result.eq, halike.files, h.environment, halike.state, halike.chatter h.capture,
    hlog⟩

theorem release_alike (h : d.Worlds w w') : d.Worlds (w.release host) (w'.release host) :=
  ⟨h.files, h.environment, d.release h.engine, h.capture, (h.record (.same _)).log⟩

theorem startCapture_alike (h : d.Worlds w w') :
    Agree d.Worlds (w.startCapture host) (w'.startCapture host) := by
  obtain ⟨hresult, hcapture⟩ := d.start h.capture
  exact ⟨hresult, h.files, h.environment, h.engine, hcapture, (h.record (.same _)).log⟩

theorem stopCapture_alike (h : d.Worlds w w') :
    d.Worlds (w.stopCapture host) (w'.stopCapture host) :=
  ⟨h.files, h.environment, h.engine, d.stop h.capture, (h.record (.same _)).log⟩

theorem readCapture_alike (h : d.Worlds w w') :
    Agree d.Worlds (w.readCapture host) (w'.readCapture host) := by
  obtain ⟨hresult, hcapture⟩ := d.read h.capture
  exact ⟨hresult, h.files, h.environment, h.engine, hcapture, (h.record (.same _)).log⟩

/-- What is captured around calls that cannot be told apart is the same. -/
theorem captured_alike {call call' : World ε κ → α × World ε κ}
    (hcalls : ∀ w w', d.Worlds w w' → Agree d.Worlds (call w) (call' w')) (h : d.Worlds w w') :
    ∃ caught next, Worker.captured host call' w' = ((Worker.captured host call w).1, caught, next)
      ∧ (Worker.captured host call w).2.1 = caught
      ∧ d.Worlds (Worker.captured host call w).2.2 next := by
  obtain ⟨hresult, hworlds⟩ := startCapture_alike h
  unfold Worker.captured
  revert hresult hworlds
  rcases w.startCapture host with ⟨result, started⟩
  rcases w'.startCapture host with ⟨result', started'⟩
  rintro rfl hworlds
  have hcall := hcalls started started' hworlds
  cases result' with
  | error fault =>
      refine ⟨[], (call' started').2, ?_, rfl, hcall.worlds⟩
      simp only
      rw [hcall.result]
  | ok u =>
      have hread := readCapture_alike (stopCapture_alike hcall.worlds)
      refine ⟨_, _, ?_, congrArg LogLine.ofOctets hread.result.symm, hread.worlds⟩
      simp only
      rw [hcall.result]

variable (d)

/-- **Two runs that are given other passwords, compared**: everything that can be seen is the
same. -/
def likeness : Likeness host host where
  worlds := d.Worlds
  documents := d.documents
  passwords := Password.Veils
  diagnostics := Eq
  no_diagnostics := rfl
  platform := rfl
  settings := rfl
  files h := h.files
  environment h := h.environment
  withFiles h _ := ⟨rfl, h.environment, h.engine, h.capture, h.log⟩
  launch h := launch_alike h
  load h hp path := load_alike h hp path
  exportPdf h hd ho output format := exportPdf_alike h hd ho output format
  release h := release_alike h
  captured hcalls _ _ h := captured_alike hcalls h

/-- A host whose engine does the same whatever password it is given keeps a secret. -/
def ofBlind (host : Host ε δ κ)
    (load : ∀ e files path password password',
      host.engine.load e files path password' = host.engine.load e files path password)
    (exportPdf : ∀ e files document output format options options',
      options.Like Password.Veils options' →
      host.engine.exportPdf e files document output format options'
        = host.engine.exportPdf e files document output format options) : host.Discreet where
  engines := Eq
  documents := Eq
  captures := Eq
  engines_refl _ := rfl
  captures_refl _ := rfl
  launch {e _} h files environment setup := by
    subst h
    exact ⟨rfl, rfl⟩
  load {e _ password password'} h _ files path := by
    subst h
    rw [load e files path password password']
    exact ⟨.refl _, rfl, rfl, fun hk => by rw [hk]⟩
  exportPdf {e _ document _ options options'} h hd ho files output format := by
    subst h hd
    rw [exportPdf e files document output format options options' ho]
    exact ⟨.refl _, rfl, rfl, fun hk => by rw [hk]⟩
  release h := congrArg host.engine.release h
  start h := by
    subst h
    exact ⟨rfl, rfl⟩
  stop h := by rw [h]
  read h := by
    subst h
    exact ⟨rfl, rfl⟩

end Host.Discreet

/-! ## Turns -/

/-- Answers that belong together by having the same diagnostics are the same. -/
theorem Response.Like.eq {r r' : Response} (h : r.Like Eq r') : r' = r := by
  cases h with
  | ready version => rfl
  | error message => rfl
  | result h => rw [h.rest, ← h.diagnostics]
  | bufferResult h => rw [h.rest, ← h.diagnostics]

variable {host : Host ε δ κ} {d : host.Discreet}

/-- Turns that are the same but for passwords have the same due. -/
theorem Turn.frames_eq {t t' : Turn ε κ} (h : d.likeness.Turns t t') : t'.frames = t.frames := by
  have hresponse := h.response
  unfold frames
  rw [h.pdf]
  revert hresponse
  generalize t.response = response
  generalize t'.response = response'
  rintro (hlike | _)
  · rw [hlike.eq]
  · rfl

namespace Session

variable {s s' : Session ε κ}

/-- Two workers that write the same into the same sink stay the same but for passwords. -/
theorem sendAll_like (frames : List ByteArray) (hs : d.likeness.Sessions s s')
    (hk : s'.sink = s.sink) :
    (s'.sendAll frames).1 = (s.sendAll frames).1
      ∧ (s'.sendAll frames).2.sink = (s.sendAll frames).2.sink
      ∧ d.likeness.Sessions (s.sendAll frames).2 (s'.sendAll frames).2 := by
  induction frames generalizing s s' with
  | nil => exact ⟨rfl, hk, hs⟩
  | cons payload rest ih =>
      rw [sendAll, sendAll, send, send, hk]
      rcases Frame.write payload s.sink with ⟨e | u, sink⟩
      · exact ⟨rfl, rfl, hs.phase, hs.awaited, hs.worlds⟩
      · have hnext : d.likeness.Sessions
            { s with sink, world := s.world.record (.sent (Frame.encode payload)) }
            { s' with sink, world := s'.world.record (.sent (Frame.encode payload)) } :=
          ⟨hs.phase, hs.awaited, Host.Discreet.Worlds.record hs.worlds (.same _)⟩
        exact ih hnext rfl

/-- Behind a message a document is awaited if the message announces one. -/
theorem awaited_messageTurn (host : Host ε δ κ) (payload : ByteArray) (ha : s.awaited = none) :
    (s.messageTurn host payload).session.awaited.isSome = Message.announces payload := by
  unfold messageTurn Message.announces
  rcases Request.decode payload with e | (request | kind)
  · simp only [ha, Option.isSome_none]
  · cases request with
    | init request =>
        simp only [answerTurn]
        rcases Worker.startEngine host request s.phase s.world with ⟨_ | response, phase, world⟩
        all_goals simp only [ha, Option.isSome_none]
    | convert request => simp only [answerTurn, ha, Option.isSome_none]
    | convertBuffer request => rfl
    | quit => simp only [answerTurn, ha, Option.isSome_none]
  · simp only [ha, Option.isSome_none]

/-- Where no frame arrives there is no request. -/
theorem request?_of_ending {arrival : Except Fault Frame.Arrival}
    (h : (ending arrival).2 = none) : s.request? arrival = none := by
  unfold request?
  cases s.awaited with
  | some request => rfl
  | none =>
      rcases arrival with fault | (payload | _ | size)
      · rfl
      · cases h
      · rfl
      · rfl

end Session

namespace Moment

/-- Reading cuts a frame off the stream, or there is none. -/
theorem cut_cases (host : Host ε δ κ) (m : Moment ε κ) :
    (∃ payload, m.arrival host = .ok (.frame payload)
      ∧ m.source.stream.cut host.settings.maxFrame
        = (payload :: ((m.rest host).stream.cut host.settings.maxFrame).1,
          ((m.rest host).stream.cut host.settings.maxFrame).2)) ∨
    ((∀ payload, m.arrival host ≠ .ok (.frame payload))
      ∧ m.source.stream.cut host.settings.maxFrame = ([], m.arrival host)) := by
  by_cases h : ∃ payload, m.arrival host = .ok (.frame payload)
  · obtain ⟨payload, hp⟩ := h
    exact .inl ⟨payload, hp, m.cut_of_continues hp⟩
  · have hno : ∀ payload, m.arrival host ≠ .ok (.frame payload) := fun payload hp => h ⟨payload, hp⟩
    exact .inr ⟨hno, m.cut_of_not_frame hno⟩

/-- **Two workers that are the same but for passwords**, about to take their turns on frames that
are the same but for passwords. -/
structure Veiled (d : host.Discreet) (m m' : Moment ε κ) : Prop where
  sessions : d.likeness.Sessions m.session m'.session
  sink : m'.session.sink = m.session.sink
  frames : PdfWorker.Veiled m.session.awaited.isSome
    (m.source.stream.cut host.settings.maxFrame).1 (m'.source.stream.cut host.settings.maxFrame).1
  last : Dialogue.lastReason (m'.source.stream.cut host.settings.maxFrame).2
    = Dialogue.lastReason (m.source.stream.cut host.settings.maxFrame).2

namespace Veiled

variable {m m' : Moment ε κ}

/-- What arrives is the same but for passwords, and so is what comes behind it. -/
theorem arrivals (h : Veiled d m m') :
    (∃ payload payload', m.arrival host = .ok (.frame payload)
      ∧ m'.arrival host = .ok (.frame payload')
      ∧ d.likeness.Frames m.session.awaited payload payload'
      ∧ PdfWorker.Veiled (m.turn host).session.awaited.isSome
        ((m.rest host).stream.cut host.settings.maxFrame).1
        ((m'.rest host).stream.cut host.settings.maxFrame).1
      ∧ Dialogue.lastReason ((m'.rest host).stream.cut host.settings.maxFrame).2
        = Dialogue.lastReason ((m.rest host).stream.cut host.settings.maxFrame).2) ∨
    (∃ reason, Session.ending (m.arrival host) = (some reason, none)
      ∧ Session.ending (m'.arrival host) = (some reason, none)) := by
  have hframes := h.frames
  have hlast := h.last
  rcases m.cut_cases host with ⟨payload, hp, hcut⟩ | ⟨hno, hcut⟩
  all_goals
    rcases m'.cut_cases host with ⟨payload', hp', hcut'⟩ | ⟨hno', hcut'⟩
    all_goals rw [hcut, hcut'] at hframes hlast
  · refine .inl ⟨payload, payload', hp, hp', ?_⟩
    have hturn : m.turn host = m.session.turn host (.ok (.frame payload)) := by rw [Moment.turn, hp]
    rw [hturn]
    cases ha : m.session.awaited with
    | some request =>
        rw [ha] at hframes
        cases hframes with
        | document hrest =>
            refine ⟨.document request payload, ?_, hlast⟩
            rw [Session.turn, ha]
            exact hrest
    | none =>
        rw [ha] at hframes
        cases hframes with
        | message hmessage hrest =>
            refine ⟨.message (Message.decodedLike_of_veiled hmessage), ?_, hlast⟩
            have hawaited := Session.awaited_messageTurn host payload ha
            rw [Session.turn, ha]
            simp only [Session.ending]
            rw [hawaited]
            exact hrest
  -- a frame cannot arrive in one run only: both sequences are equally long
  · generalize m.session.awaited.isSome = awaited at hframes
    cases hframes
  · generalize m.session.awaited.isSome = awaited at hframes
    cases hframes
  · exact .inr ⟨_, Session.ending_of_not_frame hno, hlast ▸ Session.ending_of_not_frame hno'⟩

/-- The two decide alike. -/
theorem turns_like (h : Veiled d m m') : d.likeness.Turns (m.turn host) (m'.turn host) := by
  rcases h.arrivals with ⟨payload, payload', hp, hp', hframes, -⟩ | ⟨reason, he, he'⟩
  · rw [Moment.turn, Moment.turn, hp, hp']
    exact d.likeness.turn_like h.sessions rfl (.some hframes)
  · refine d.likeness.turn_like h.sessions ?_ ?_
    · rw [he, he']
    · rw [he, he']
      exact .none

/-- Behind their turns, the two are the same but for passwords. -/
theorem next_like (h : Veiled d m m') :
    (m'.turn host).finish.1 = (m.turn host).finish.1
      ∧ (m'.next host).sink = (m.next host).sink
      ∧ d.likeness.Sessions (m.next host) (m'.next host) := by
  have hturns := h.turns_like
  have hsink : (m'.turn host).session.sink = (m.turn host).session.sink :=
    (Session.sink_turn ..).trans (h.sink.trans (Session.sink_turn ..).symm)
  obtain ⟨hreason, hsame, hsessions⟩ :=
    Session.sendAll_like (m.turn host).frames hturns.session hsink
  simp only [Moment.next, Turn.finish, Turn.frames_eq hturns, hturns.reason]
  exact ⟨by rw [hreason], hsame, hsessions⟩

theorem goesOn (h : Veiled d m m') (hgoes : (m.turn host).finish.1 = none) :
    Veiled d (m.behind host) (m'.behind host) := by
  obtain ⟨-, hsink, hsessions⟩ := h.next_like
  obtain ⟨payload, hp⟩ := m.arrival_of_continues (Prod.ext hgoes rfl : _ = (none, m.next host))
  rcases h.arrivals with ⟨_, _, -, -, -, hrest, hlast⟩ | ⟨reason, he, -⟩
  · refine ⟨hsessions, hsink, ?_, hlast⟩
    obtain ⟨sink, log, hnext⟩ := m.next_eq host
    have hawaited : (m.next host).awaited = (m.turn host).session.awaited := by rw [hnext]
    show PdfWorker.Veiled (m.next host).awaited.isSome _ _
    rw [hawaited]
    exact hrest
  · rw [hp] at he
    cases he

/-- The requests that arrive look the same in logs. -/
theorem describe_eq (h : Veiled d m m') :
    (m'.request? host).map Request.describe = (m.request? host).map Request.describe := by
  have hawaited := h.sessions.awaited
  unfold Moment.request?
  rcases h.arrivals with ⟨payload, payload', hp, hp', hframes, -⟩ | ⟨reason, he, he'⟩
  · rw [hp, hp']
    unfold Session.request?
    generalize m.session.awaited = awaited at hawaited hframes
    generalize m'.session.awaited = awaited' at hawaited
    cases hframes with
    | document request octets =>
        cases hawaited with
        | some => rfl
    | message hdecoded =>
        cases hawaited with
        | none =>
            revert hdecoded
            simp only
            generalize Request.decode payload = decoded
            generalize Request.decode payload' = decoded'
            rintro (hlike | _ | _)
            · exact congrArg some hlike.describe_eq
            · rfl
            · rfl
  · rw [Session.request?_of_ending (congrArg Prod.snd he),
      Session.request?_of_ending (congrArg Prod.snd he')]

end Veiled

end Moment

/-! ## Runs -/

namespace Worker

/-- What two workers behind their last turns are but for passwords. -/
def Unveiled (d : host.Discreet) (m m' : Moment ε κ) : Prop :=
  m'.session.sink = m.session.sink ∧ d.likeness.Sessions m.session m'.session

theorem map_describe {front back : List (Moment ε κ)}
    (h : List.Forall₂ (Moment.Veiled d) front back) :
    back.map (fun m => (m.request? host).map Request.describe)
      = front.map (fun m => (m.request? host).map Request.describe) := by
  induction h with
  | nil => rfl
  | cons h _ ih => rw [List.map_cons, List.map_cons, ih, h.describe_eq]

/-- **Passwords stay secret.** On a host that keeps a secret, let the frames of two inputs be the
same but for passwords that are given in both, and let the inputs end alike. Then a worker that is
given either of them stops for the same reason and in the same phase, has written the same octets,
leaves the same files and environment, and has done the same, in the same order, but for the
passwords in its calls to the engine; and the requests that it takes look the same in logs. -/
theorem run_of_veiled (d : host.Discreet) (s : Session ε κ) {a b : Source}
    (hframes : Veiled s.awaited.isSome (a.stream.cut host.settings.maxFrame).1
      (b.stream.cut host.settings.maxFrame).1)
    (hlast : Dialogue.lastReason (b.stream.cut host.settings.maxFrame).2
      = Dialogue.lastReason (a.stream.cut host.settings.maxFrame).2) :
    (run host s b).1 = (run host s a).1
      ∧ (run host s b).2.1.phase = (run host s a).2.1.phase
      ∧ (run host s b).2.1.sink = (run host s a).2.1.sink
      ∧ (run host s b).2.1.world.files = (run host s a).2.1.world.files
      ∧ (run host s b).2.1.world.environment = (run host s a).2.1.world.environment
      ∧ List.Forall₂ Event.Veiled (run host s a).2.1.world.log.toList
        (run host s b).2.1.world.log.toList
      ∧ (turns host s b).map (fun m => (m.request? host).map Request.describe)
        = (turns host s a).map (fun m => (m.request? host).map Request.describe) := by
  have hworlds : d.Worlds s.world s.world :=
    ⟨rfl, rfl, d.engines_refl _, d.captures_refl _, List.forall₂_same.mpr fun e _ => .same e⟩
  have hsessions : d.likeness.Sessions s s := by
    refine ⟨rfl, ?_, hworlds⟩
    cases s.awaited with
    | none => exact .none
    | some request => exact .some ⟨rfl, .of_same _⟩
  have hveiled : Moment.Veiled d ⟨s, a⟩ ⟨s, b⟩ := ⟨hsessions, rfl, hframes, hlast⟩
  obtain ⟨hreason, ⟨hsink, hend⟩, hturns⟩ :=
    serve_related (R := Moment.Veiled d) (Q := Unveiled d) (fun h => h.next_like.1)
      Moment.Veiled.goesOn (fun h _ => h.next_like.2) ⟨s, a⟩ ⟨s, b⟩ hveiled
  have hclosed := d.likeness.close_like hend
  refine ⟨hreason, hclosed.phase, hsink, hclosed.worlds.files, hclosed.worlds.environment,
    hclosed.worlds.log, ?_⟩
  exact map_describe hturns

/-! ## A file that is opened by one password or another -/

/-- A source that delivers one frame. -/
theorem cut_single {max : Nat} {payload : ByteArray} (hmax : payload.size ≤ max)
    (hlt : payload.size < UInt32.size) :
    (Source.ofOctets (Frame.encode payload)).stream.cut max = ([payload], .ok .ended) := by
  have hoctets : (Source.ofOctets (Frame.encode payload)).stream.octets
      = (Frame.encode payload).data.toList ++ [] := rfl
  obtain ⟨hnext, hrest⟩ := Stream.next_of_encode hmax hlt hoctets
  generalize hbehind : (Source.ofOctets (Frame.encode payload)).stream.drop
    (Limits.header + payload.size) = behind at hrest
  have hfault : behind.fault = none := by
    rw [← hbehind]
    rfl
  have hended : behind.next max = .ok .ended := by
    rw [Stream.next, hrest, if_pos (by decide), Stream.broken, hfault]
  have hcut : behind.cut max = ([], .ok .ended) := by
    rw [Stream.cut_of_not_frame (by simp [hended]), hended]
  rw [Stream.cut_of_frame hnext, hbehind, hcut]

/-- A protected file. -/
def protectedFile : FileRequest := { input := some "/a", output := some "/b" }

/-- The request to convert it, with a password. -/
def opening (password : String) : Request :=
  .convert { protectedFile with options := Options.withPassword {} password }

/-- A worker whose engine has started, and the file. -/
def keeper : Session ScriptedEngine ScriptedCapture :=
  ⟨.ready, none,
    ⟨{ entries := [(["a"], .file .empty)], here := [] }, {}, {}, {}, #[]⟩, {}⟩

/-- The scripted engine is blind for passwords. -/
def discreetScripted : Host.scripted.Discreet :=
  .ofBlind .scripted (fun _ _ _ _ _ => rfl) (fun _ _ _ _ _ _ _ _ => rfl)

/-- The file is opened by one password or another, and nobody can tell which. -/
theorem run_of_veiled_opening :
    (run .scripted keeper (.ofOctets (Frame.encode (opening "sesame").encode))).2.1.sink
        = (run .scripted keeper (.ofOctets (Frame.encode (opening "open").encode))).2.1.sink
      ∧ List.Forall₂ Event.Veiled
        (run .scripted keeper
          (.ofOctets (Frame.encode (opening "open").encode))).2.1.world.log.toList
        (run .scripted keeper
          (.ofOctets (Frame.encode (opening "sesame").encode))).2.1.world.log.toList := by
  have hopen : (opening "open").encode.size ≤ Limits.frame := by decide +kernel
  have hsesame : (opening "sesame").encode.size ≤ Limits.frame := by decide +kernel
  have hlimit : Limits.frame < UInt32.size := by decide
  have hcut := cut_single hopen (Nat.lt_of_le_of_lt hopen hlimit)
  have hcut' := cut_single hsesame (Nat.lt_of_le_of_lt hsesame hlimit)
  have hmessages : Message.Veiled (opening "open").encode (opening "sesame").encode :=
    Message.veiled_encode protectedFile {} (by decide) (by decide)
  have hawaited : Message.announces (opening "open").encode = false := by
    rw [Message.announces, opening, Request.decode_encode]
    rfl
  have hframes : Veiled keeper.awaited.isSome
      ((Source.ofOctets (Frame.encode (opening "open").encode)).stream.cut
        Host.scripted.settings.maxFrame).1
      ((Source.ofOctets (Frame.encode (opening "sesame").encode)).stream.cut
        Host.scripted.settings.maxFrame).1 := by
    rw [show Host.scripted.settings.maxFrame = Limits.frame from rfl, hcut, hcut']
    exact .message hmessages .nil
  have hlast : Dialogue.lastReason ((Source.ofOctets
        (Frame.encode (opening "sesame").encode)).stream.cut Host.scripted.settings.maxFrame).2
      = Dialogue.lastReason ((Source.ofOctets
        (Frame.encode (opening "open").encode)).stream.cut Host.scripted.settings.maxFrame).2 := by
    rw [show Host.scripted.settings.maxFrame = Limits.frame from rfl, hcut, hcut']
  obtain ⟨-, -, hsink, -, -, hlog, -⟩ := run_of_veiled discreetScripted keeper hframes hlast
  exact ⟨hsink, hlog⟩

end Worker

end PdfWorker
