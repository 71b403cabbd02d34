import PdfWorker.Proofs.Request
import PdfWorker.Proofs.Response
import PdfWorker.Proofs.Worker.Acts
import PdfWorker.Proofs.Worker.Lifecycle
set_option autoImplicit false

/-! # The font path of an engine

A request to start the engine puts its font paths into the environment, and the engine is started
with what is there. `lifetime_fontPath` says what that is over all runs of one worker: the font
paths of the request, if it names any, and else those that the last start before it asked for. So
a start without font paths is not rid of those of a start that failed
(`lifetime_fontPath_of_retry`). A request that is rejected changes nothing.
-/

namespace PdfWorker

open Relation (ReflTransGen)

/-! ## Starts in a log -/

/-- The event is a start of the engine. -/
inductive Event.IsLaunch : Event → Prop where
  | launched (setup : EngineSetup) (directory : String) (fontPath : Option String) :
      IsLaunch (.launched setup directory fontPath)

/-- The font path that a start of the engine asks for, if it names any directory. -/
def Event.fontPath? : Event → Option String
  | .launched setup _ _ => setup.platform.joinFontPaths setup.fontPaths
  | _ => none

/-- **The last font path** that a start has asked for. -/
def lastFontPath? (events : List Event) : Option String := events.reverse.findSome? Event.fontPath?

theorem lastFontPath?_append (front back : List Event) :
    lastFontPath? (front ++ back) = (lastFontPath? back).or (lastFontPath? front) := by
  rw [lastFontPath?, List.reverse_append, List.findSome?_append]
  rfl

theorem lastFontPath?_of_no_launch {events : List Event} (h : ∀ e ∈ events, ¬ e.IsLaunch) :
    lastFontPath? events = none := by
  rw [lastFontPath?, List.findSome?_eq_none_iff]
  intro e he
  cases e with
  | launched setup directory fontPath =>
      exact absurd (.launched setup directory fontPath) (h _ (List.mem_reverse.mp he))
  | _ => rfl

theorem lastFontPath?_launched {setup : EngineSetup} {directory : String}
    {fontPath : Option String} {later : List Event} (h : ∀ e ∈ later, ¬ e.IsLaunch) :
    lastFontPath? (.launched setup directory fontPath :: later)
      = setup.platform.joinFontPaths setup.fontPaths := by
  rw [← List.singleton_append, lastFontPath?_append, lastFontPath?_of_no_launch h, Option.none_or]
  rw [lastFontPath?, List.reverse_singleton, List.findSome?_singleton]
  rfl

variable {ε δ κ : Type}

namespace World

/-- Between two worlds the environment has stayed and the engine was not started. -/
structure Still (world next : World ε κ) : Prop where
  environment : next.environment = world.environment
  log : ∃ events : List Event, next.log.toList = world.log.toList ++ events
    ∧ ∀ e ∈ events, ¬ e.IsLaunch

theorem Still.refl (world : World ε κ) : Still world world := ⟨rfl, [], by simp, by simp⟩

theorem Still.trans {world mid next : World ε κ} (h₁ : Still world mid) (h₂ : Still mid next) :
    Still world next := by
  obtain ⟨events₁, hl₁, he₁⟩ := h₁.log
  obtain ⟨events₂, hl₂, he₂⟩ := h₂.log
  refine ⟨h₂.environment.trans h₁.environment, events₁ ++ events₂, ?_, ?_⟩
  · rw [hl₂, hl₁, List.append_assoc]
  · intro e he
    rcases List.mem_append.mp he with he | he
    · exact he₁ e he
    · exact he₂ e he

theorem Still.of_event {world next : World ε κ} {event : Event}
    (he : next.environment = world.environment) (hl : next.log = world.log.push event)
    (hn : ¬ event.IsLaunch) : Still world next :=
  ⟨he, [event], by rw [hl, Array.toList_push], by simpa using hn⟩

/-- No call of a conversion touches the environment or starts the engine. -/
theorem Acts.still {host : Host ε δ κ} {world next : World ε κ} (h : Acts host world next) :
    Still world next := by
  cases h with
  | converts h =>
      cases h with
      | load path password => exact .of_event rfl rfl (by rintro ⟨⟩)
      | exportPdf document output format options => exact .of_event rfl rfl (by rintro ⟨⟩)
      | changeFiles files => exact ⟨rfl, [], by simp, by simp⟩
  | startCapture => exact .of_event rfl rfl (by rintro ⟨⟩)
  | stopCapture => exact .of_event rfl rfl (by rintro ⟨⟩)
  | readCapture => exact .of_event rfl rfl (by rintro ⟨⟩)

theorem still_of_acts {host : Host ε δ κ} {world next : World ε κ}
    (h : ReflTransGen (Acts host) world next) : Still world next := by
  induction h with
  | refl => exact .refl world
  | tail _ hact ih => exact ih.trans hact.still

end World

/-! ## Requests to start the engine -/

namespace Platform

/-- What the variable holds once font paths are put into the environment: they, if there are any. -/
theorem get?_of_applyFontPaths {p : Platform} {paths : List String} {env next : Environment}
    (h : p.applyFontPaths paths env = some next) :
    next.get? fontPathVariable = (p.joinFontPaths paths).or (env.get? fontPathVariable) := by
  unfold applyFontPaths at h
  split at h
  · rename_i joined hj
    rw [hj]
    unfold Environment.set? at h
    split at h
    · cases h
    · cases h
      rw [Environment.get?_set_self]
      rfl
  · rename_i hj
    cases h
    rw [hj, Option.none_or]

end Platform

namespace Worker

/-- A request to start the engine that is rejected: there is an engine already, the worker is
shutting down, or nothing tells where the engine is. -/
def Rejects (phase : Phase) (request : InitRequest) : Prop :=
  phase ≠ .uninitialized ∨ given request.resourcePath = none

/-- The start of the engine, as it is logged. -/
def launchEvent (host : Host ε δ κ) (request : InitRequest) (resourcePath : String)
    (world : World ε κ) : Event :=
  .launched ⟨resourcePath, request.fontPaths, host.platform⟩
    (host.platform.programDirectory world.files resourcePath)
    ((host.platform.joinFontPaths request.fontPaths).or
      (world.environment.get? Platform.fontPathVariable))

/-- **A request to start the engine** is rejected or breaks the worker off, and the world stays as
it is; or the engine is started with the font paths that are then in the environment. -/
theorem startEngine_world (host : Host ε δ κ) (request : InitRequest) (phase : Phase)
    (world : World ε κ) :
    ((Rejects phase request ∨ Breaks phase request)
      ∧ (startEngine host request phase world).2.2 = world) ∨
    (phase = .uninitialized ∧ ∃ resourcePath, given request.resourcePath = some resourcePath
      ∧ (startEngine host request phase world).2.2.environment.get? Platform.fontPathVariable
        = (host.platform.joinFontPaths request.fontPaths).or
          (world.environment.get? Platform.fontPathVariable)
      ∧ (startEngine host request phase world).2.2.log
        = world.log.push (launchEvent host request resourcePath world)) := by
  cases phase with
  | ready => exact .inl ⟨.inl (.inl (by simp)), rfl⟩
  | shuttingDown => exact .inl ⟨.inl (.inl (by simp)), rfl⟩
  | uninitialized =>
      cases hp : given request.resourcePath with
      | none => exact .inl ⟨.inl (.inr hp), by simp only [startEngine, hp]⟩
      | some resourcePath =>
          cases he : host.platform.applyFontPaths request.fontPaths world.environment with
          | none =>
              have hnul := (host.platform.applyFontPaths_eq_none_iff _ _).mp he
              exact .inl ⟨.inr ⟨rfl, by simp [hp], hnul⟩, by simp only [startEngine, hp, he]⟩
          | some environment =>
              have hget := Platform.get?_of_applyFontPaths he
              have hworld : (startEngine host request .uninitialized world).2.2
                  = (World.launch host ⟨resourcePath, request.fontPaths, host.platform⟩
                    { world with environment }).2 := by
                simp only [startEngine, hp, he, startEngineIn]
                rcases World.launch host ⟨resourcePath, request.fontPaths, host.platform⟩
                  { world with environment } with ⟨e | version, next⟩ <;> rfl
              refine .inr ⟨rfl, resourcePath, rfl, ?_, ?_⟩
              · rw [hworld]
                exact hget
              · rw [hworld, launchEvent, ← hget]
                rfl

end Worker

namespace Session

/-! ## Turns -/

/-- The request that arrives as a message. -/
def request? (arrival : Except Fault Frame.Arrival) (s : Session ε κ) : Option Request :=
  match s.awaited, arrival with
  | none, .ok (.frame payload) =>
    match Request.decode payload with
    | .ok (.request request) => some request
    | _ => none
  | _, _ => none

theorem request?_eq_some {arrival : Except Fault Frame.Arrival} {s : Session ε κ}
    {request : Request} (h : s.request? arrival = some request) :
    ∃ payload, arrival = .ok (.frame payload)
      ∧ Request.decode payload = .ok (.request request) := by
  unfold request? at h
  split at h
  · split at h
    · rename_i hdecode
      cases h
      exact ⟨_, rfl, hdecode⟩
    · cases h
  · cases h

/-- A turn is that of the request that arrives, or else it does not touch the environment and does
not start the engine. -/
theorem turn_cases (host : Host ε δ κ) (arrival : Except Fault Frame.Arrival) (s : Session ε κ) :
    (∃ request, s.request? arrival = some request
      ∧ s.turn host arrival = s.answerTurn host request) ∨
    (s.request? arrival = none ∧ World.Still s.world (s.turn host arrival).session.world) := by
  unfold request? turn
  cases s.awaited with
  | some request =>
      refine .inr ⟨rfl, ?_⟩
      rcases ending arrival with ⟨reason, payload⟩
      exact World.still_of_acts (Worker.convertDocument_acts host request payload s.phase s.world)
  | none =>
      rcases arrival with fault | (payload | _ | size)
      · exact .inr ⟨rfl, .refl _⟩
      · simp only [ending, messageTurn]
        rcases Request.decode payload with e | (request | kind)
        · exact .inr ⟨rfl, .refl _⟩
        · exact .inl ⟨request, rfl, rfl⟩
        · exact .inr ⟨rfl, .refl _⟩
      · exact .inr ⟨rfl, .refl _⟩
      · exact .inr ⟨rfl, .refl _⟩

theorem world_answerTurn_init (host : Host ε δ κ) (request : InitRequest) (s : Session ε κ) :
    (s.answerTurn host (.init request)).session.world
      = (Worker.startEngine host request s.phase s.world).2.2 := by
  rw [answerTurn]
  rcases Worker.startEngine host request s.phase s.world with ⟨_ | response, phase, world⟩ <;> rfl

/-- No other request touches the environment or starts the engine. -/
theorem still_answerTurn (host : Host ε δ κ) {request : Request}
    (h : ∀ start, request ≠ .init start) (s : Session ε κ) :
    World.Still s.world (s.answerTurn host request).session.world := by
  cases request with
  | init start => exact absurd rfl (h start)
  | convert request =>
      exact World.still_of_acts (Worker.convert_acts host request s.phase s.world)
  | convertBuffer => exact .refl _
  | quit => exact .refl _

/-- Writing does not touch the environment and does not start the engine. -/
theorem still_sendAll (frames : List ByteArray) (s : Session ε κ) :
    World.Still s.world (s.sendAll frames).2.world := by
  induction frames generalizing s with
  | nil => exact .refl _
  | cons payload rest ih =>
      rw [sendAll, send]
      rcases Frame.write payload s.sink with ⟨e | u, sink⟩
      · exact .refl _
      · have hsent : World.Still s.world (s.world.record (.sent (Frame.encode payload))) :=
          .of_event rfl rfl (by rintro ⟨⟩)
        exact hsent.trans
          (ih { s with sink, world := s.world.record (.sent (Frame.encode payload)) })

end Session

namespace Moment

/-- The request that arrives as a message. -/
def request? (host : Host ε δ κ) (m : Moment ε κ) : Option Request :=
  m.session.request? (m.arrival host)

/-- The request that stands at the front of the input is the one that arrives. -/
theorem request?_of_encode (host : Host ε δ κ) {m : Moment ε κ} {r : Request}
    {rest : List UInt8} (ha : m.session.awaited = none)
    (hsize : r.encode.size ≤ host.settings.maxFrame) (hlt : host.settings.maxFrame < UInt32.size)
    (hs : m.source.stream.octets = (Frame.encode r.encode).data.toList ++ rest) :
    m.arrival host = .ok (.frame r.encode) ∧ m.request? host = some r.normal
      ∧ (m.rest host).stream.octets = rest := by
  obtain ⟨hnext, hdrop⟩ := Stream.next_of_encode hsize (by omega) hs
  obtain ⟨hread, hrest⟩ := Frame.read_eq host.settings.maxFrame m.source
  have harrival : m.arrival host = .ok (.frame r.encode) := hread.trans hnext
  refine ⟨harrival, ?_, ?_⟩
  · unfold Moment.request? Session.request?
    simp only [harrival, ha, Request.decode_encode]
  · rw [← hdrop]
    exact congrArg Stream.octets (hrest _ hnext).1

/-- Where everything is taken and the answer fits, the turn ends as it was decided. -/
theorem next_of_fits {host : Host ε δ κ} {m : Moment ε κ} (hk : m.session.sink.Accepts)
    (hfits : (m.turn host).Fits) :
    (m.turn host).finish = ((m.turn host).reason, m.next host)
      ∧ (m.next host).phase = (m.turn host).session.phase
      ∧ (m.next host).awaited = (m.turn host).session.awaited
      ∧ World.Still (m.turn host).session.world (m.next host).world := by
  obtain ⟨hreason, -, -, hphase, hawaited⟩ :=
    Session.finish_of_accepts hk hfits (Prod.eta _).symm
  refine ⟨Prod.ext hreason rfl, hphase, hawaited, ?_⟩
  exact (m.turn host).session.still_sendAll (m.turn host).frames

/-- What the turn adds to the log. -/
def events (host : Host ε δ κ) (m : Moment ε κ) : List Event :=
  (m.next host).world.log.toList.drop m.session.world.log.size

theorem events_eq {host : Host ε δ κ} {m : Moment ε κ} {events : List Event}
    (h : (m.next host).world.log.toList = m.session.world.log.toList ++ events) :
    m.events host = events := by
  rw [Moment.events, h]
  exact List.drop_left' rfl

/-- **What a turn does about the font path.** -/
inductive Sets (host : Host ε δ κ) (m : Moment ε κ) : Prop where
  /-- It starts the engine, with the font paths of the request if it names any. -/
  | starts {request resourcePath later} : m.request? host = some (.init request) →
      m.session.phase = .uninitialized →
      Worker.given request.resourcePath = some resourcePath →
      (m.next host).world.environment.get? Platform.fontPathVariable
        = (host.platform.joinFontPaths request.fontPaths).or
          (m.session.world.environment.get? Platform.fontPathVariable) →
      (m.next host).world.log.toList = m.session.world.log.toList
        ++ Worker.launchEvent host request resourcePath m.session.world :: later →
      (∀ e ∈ later, ¬ e.IsLaunch) → Sets host m
  /-- It does nothing about it. -/
  | nothing : (∀ request, m.request? host = some (.init request) →
        Worker.Rejects m.session.phase request ∨ Worker.Breaks m.session.phase request) →
      World.Still m.session.world (m.next host).world → Sets host m

/-- **Every turn** starts the engine or does nothing about the font path. -/
theorem sets (host : Host ε δ κ) (m : Moment ε κ) : m.Sets host := by
  have hwrite := (m.turn host).session.still_sendAll (m.turn host).frames
  rcases m.session.turn_cases host (m.arrival host) with ⟨request, hr, hturn⟩ | ⟨hr, hstill⟩
  · have hrequest : m.request? host = some request := hr
    by_cases hinit : ∃ start, request = .init start
    · obtain ⟨start, rfl⟩ := hinit
      have hworld : (m.turn host).session.world
          = (Worker.startEngine host start m.session.phase m.session.world).2.2 := by
        rw [Moment.turn, hturn, Session.world_answerTurn_init]
      rcases Worker.startEngine_world host start m.session.phase m.session.world with
        ⟨hno, hsame⟩ | ⟨hphase, resourcePath, hpath, hget, hlog⟩
      · have hstill : World.Still m.session.world (m.turn host).session.world := by
          rw [hworld, hsame]
          exact .refl _
        refine .nothing ?_ (hstill.trans hwrite)
        intro other hother
        cases hrequest.symm.trans hother
        exact hno
      · obtain ⟨later, hlater, hnone⟩ := hwrite.log
        refine .starts hrequest hphase hpath ?_ ?_ hnone
        · rw [show (m.next host).world.environment = _ from hwrite.environment, hworld, hget]
        · rw [show (m.next host).world.log.toList = _ from hlater, hworld, hlog,
            Array.toList_push, List.append_assoc]
          rfl
    · have hstill : World.Still m.session.world (m.turn host).session.world := by
        rw [Moment.turn, hturn]
        exact Session.still_answerTurn host (not_exists.mp hinit) m.session
      refine .nothing ?_ (hstill.trans hwrite)
      intro other hother
      cases hrequest.symm.trans hother
      exact absurd ⟨other, rfl⟩ hinit
  · refine .nothing ?_ (hstill.trans hwrite)
    intro other hother
    cases (show m.request? host = none from hr).symm.trans hother

end Moment

/-! ## The history of a worker -/

/-- **What has come about since a worker was made**: these events, and the font path that the last
start among them asked for; without one, the font path that there was at first. -/
structure World.Since (first : World ε κ) (past : List Event) (world : World ε κ) : Prop where
  log : world.log.toList = first.log.toList ++ past
  fontPath : world.environment.get? Platform.fontPathVariable
    = (lastFontPath? past).or (first.environment.get? Platform.fontPathVariable)

namespace World.Since

variable {first world next : World ε κ} {past : List Event}

theorem still (h : first.Since past world) (hs : Still world next) :
    ∃ past', first.Since past' next := by
  obtain ⟨events, hlog, hnone⟩ := hs.log
  refine ⟨past ++ events, ?_, ?_⟩
  · rw [hlog, h.log, List.append_assoc]
  · rw [hs.environment, h.fontPath, lastFontPath?_append, lastFontPath?_of_no_launch hnone,
      Option.none_or]

/-- A turn goes on with the history. -/
theorem turn (host : Host ε δ κ) {m : Moment ε κ} (h : first.Since past m.session.world) :
    ∃ past', first.Since past' (m.next host).world := by
  cases m.sets host with
  | @starts request resourcePath later _ _ _ hget hlog hnone =>
      refine ⟨past ++ Worker.launchEvent host request resourcePath m.session.world :: later, ?_, ?_⟩
      · rw [hlog, h.log, List.append_assoc]
      · rw [hget, h.fontPath, lastFontPath?_append, Worker.launchEvent,
          lastFontPath?_launched hnone, Option.or_assoc]
  | nothing _ hstill => exact h.still hstill

end World.Since

namespace Worker

/-- Letting go of the engine is no start. -/
theorem still_close (host : Host ε δ κ) (s : Session ε κ) :
    World.Still s.world (s.close host).world := by
  rcases s with ⟨_ | _ | _, awaited, world, sink⟩
  · exact .refl _
  · exact .of_event rfl rfl (show ¬ Event.IsLaunch .released by rintro ⟨⟩)
  · exact .refl _

/-- **The moments of a worker's life**: those of all its runs, one run for each visit. Behind a run
that is broken off there are none. -/
def lifetime (host : Host ε δ κ) : Phase → World ε κ → List Visit → List (Moment ε κ)
  | _, _, [] => []
  | phase, world, visit :: visits =>
    let s : Session ε κ := ⟨phase, none, world, visit.sink⟩
    let (reason, last, _) := run host s visit.source
    turns host s visit.source ++
      if reason = .aborted then [] else lifetime host last.phase last.world visits

/-- The moments of the first run come first. -/
theorem mem_lifetime_of_mem_turns (host : Host ε δ κ) {phase : Phase} {world : World ε κ}
    {visit : Visit} {visits : List Visit} {m : Moment ε κ}
    (h : m ∈ turns host ⟨phase, none, world, visit.sink⟩ visit.source) :
    m ∈ lifetime host phase world (visit :: visits) := by
  rw [lifetime]
  exact List.mem_append_left _ h

/-- **What every turn keeps**, and letting go of the engine as well, holds through a worker's
life. -/
theorem keeps_lifetime (host : Host ε δ κ) {P : World ε κ → Prop}
    (hturn : ∀ m : Moment ε κ, P m.session.world → P (m.next host).world)
    (hclose : ∀ s : Session ε κ, P s.world → P (s.close host).world) (phase : Phase)
    {world : World ε κ} (h : P world) (visits : List Visit) :
    ∀ m ∈ lifetime host phase world visits, P m.session.world := by
  induction visits generalizing phase world with
  | nil => exact fun m hm => absurd hm List.not_mem_nil
  | cons visit visits ih =>
      intro m hm
      obtain ⟨hall, hlast⟩ := keeps_serve host (P := fun s => P s.world) hturn
        ⟨⟨phase, none, world, visit.sink⟩, visit.source⟩ h
      rw [lifetime] at hm
      rcases List.mem_append.mp hm with hm | hm
      · exact hall m hm
      · split at hm
        · cases hm
        · -- the next run begins in the world that this run has left
          exact ih _ (hclose _ hlast) m hm

/-- A history goes on through a worker's life. -/
theorem since_lifetime (host : Host ε δ κ) {first world : World ε κ} {past : List Event}
    (h : first.Since past world) (phase : Phase) (visits : List Visit) :
    ∀ m ∈ lifetime host phase world visits, ∃ past', first.Since past' m.session.world := by
  refine keeps_lifetime host (P := fun world => ∃ past', first.Since past' world) ?_ ?_ phase
    ⟨past, h⟩ visits
  · rintro m ⟨past', hpast⟩
    exact hpast.turn host
  · rintro s ⟨past', hpast⟩
    exact hpast.still (still_close host s)

/-- **The font path at every start of the engine.** Over all runs of one worker, the engine is
started with the font paths of the request that starts it, if it names any, else with those that the
last start before it asked for, and without one with those that the worker found. A request that is
rejected leaves the environment as it was, and every other one starts the engine unless it breaks
the worker off. -/
theorem lifetime_fontPath (host : Host ε δ κ) (world : World ε κ) (visits : List Visit) :
    ∀ m ∈ lifetime host .uninitialized world visits, ∃ past, world.Since past m.session.world
      ∧ (∀ setup directory fontPath, .launched setup directory fontPath ∈ m.events host →
        fontPath = (host.platform.joinFontPaths setup.fontPaths).or
            ((lastFontPath? past).or (world.environment.get? Platform.fontPathVariable))
          ∧ ∃ request, m.request? host = some (.init request)
            ∧ setup.fontPaths = request.fontPaths)
      ∧ ∀ request, m.request? host = some (.init request) →
        (Rejects m.session.phase request →
          (m.next host).world.environment = m.session.world.environment
            ∧ ∀ e ∈ m.events host, ¬ e.IsLaunch)
        ∧ (¬ Rejects m.session.phase request → ¬ Breaks m.session.phase request →
          ∃ e ∈ m.events host, e.IsLaunch) := by
  intro m hm
  have hfirst : world.Since [] world := ⟨by simp, rfl⟩
  obtain ⟨past, hpast⟩ := since_lifetime host hfirst .uninitialized visits m hm
  refine ⟨past, hpast, ?_⟩
  cases m.sets host with
  | @starts request resourcePath later hrequest hphase hpath _ hlog hlater =>
      have hevents := m.events_eq hlog
      have hsame : ∀ {other : InitRequest}, m.request? host = some (.init other) →
          other = request := by
        intro other ho
        cases ho.symm.trans hrequest
        rfl
      constructor
      · intro setup directory fontPath hmem
        rw [hevents] at hmem
        rcases List.mem_cons.mp hmem with heq | hmem
        · -- this is the start of the request
          cases heq
          exact ⟨by rw [hpast.fontPath], request, hrequest, rfl⟩
        · exact absurd (.launched setup directory fontPath) (hlater _ hmem)
      · intro other ho
        cases hsame ho
        constructor
        · rintro (hne | hnone)
          · exact absurd hphase hne
          · rw [hpath] at hnone
            cases hnone
        · intro _ _
          rw [hevents]
          exact ⟨_, List.mem_cons_self .., .launched ..⟩
  | nothing hno hstill =>
      obtain ⟨events, hlog, hnone⟩ := hstill.log
      have hevents := m.events_eq hlog
      constructor
      · intro setup directory fontPath hmem
        rw [hevents] at hmem
        exact absurd (.launched setup directory fontPath) (hnone _ hmem)
      · intro request hrequest
        constructor
        · intro _
          rw [hevents]
          exact ⟨hstill.environment, hnone⟩
        · intro hr hb
          exact absurd (hno request hrequest) (not_or.mpr ⟨hr, hb⟩)

/-! ## A start that fails, and another

A worker is told to start its engine twice. The first start names a font path and fails, the second
names none. -/

def firstTry : InitRequest := { resourcePath := some "/opt", fontPaths := ["/fonts"] }

def secondTry : InitRequest := { resourcePath := some "/opt" }

def retrySource : Source :=
  .ofOctets (Frame.encodeAll [(Request.init firstTry).encode, (Request.init secondTry).encode])

/-- A world whose engine does not start at first. -/
def failingOnce : World ScriptedEngine ScriptedCapture :=
  ⟨{ entries := [], here := [] }, {}, ⟨[.error (.initFailed "no engine")], []⟩, {}, #[]⟩

/-- The world behind the first start. -/
def failed : World ScriptedEngine ScriptedCapture :=
  (World.launch .scripted ⟨"/opt", ["/fonts"], .linux⟩
    { failingOnce with environment := ⟨[("SAL_FONTPATH", "/fonts")]⟩ }).2

def firstMoment : Moment ScriptedEngine ScriptedCapture :=
  ⟨⟨.uninitialized, none, failingOnce, {}⟩, retrySource⟩

def secondMoment : Moment ScriptedEngine ScriptedCapture :=
  ⟨firstMoment.next .scripted, firstMoment.rest .scripted⟩

theorem startEngine_firstTry : startEngine .scripted firstTry .uninitialized failingOnce
    = (some (.error "no engine"), .uninitialized, failed) := by
  have hgiven : given firstTry.resourcePath = some "/opt" := by decide
  have hjoin : Host.scripted.platform.joinFontPaths firstTry.fontPaths = some "/fonts" := by
    decide +kernel
  have hnul : "/fonts".contains '\x00' = false := by
    rw [String.contains_char_eq]
    decide
  have happly : Host.scripted.platform.applyFontPaths firstTry.fontPaths failingOnce.environment
      = some ⟨[("SAL_FONTPATH", "/fonts")]⟩ := by
    simp only [Platform.applyFontPaths, hjoin, Environment.set?, hnul, Bool.false_eq_true, if_false]
    rfl
  simp only [startEngine, hgiven, happly]
  rfl

theorem size_encode_tries : (Request.init firstTry).encode.size ≤ Limits.frame
    ∧ (Request.init secondTry).encode.size ≤ Limits.frame := by
  constructor <;> decide +kernel

theorem octets_retrySource : firstMoment.source.stream.octets
    = (Frame.encode (Request.init firstTry).encode).data.toList
      ++ (Frame.encode (Request.init secondTry).encode).data.toList := by
  rw [← Frame.encodeAll_singleton (Request.init secondTry).encode, ← Frame.toList_encodeAll_cons]
  exact Source.octets_stream_ofOctets _

/-- The first start is to be answered with its failure. -/
theorem turn_firstMoment : firstMoment.turn .scripted
    = ⟨some (.error "no engine"), none, none, ⟨.uninitialized, none, failed, {}⟩⟩ := by
  obtain ⟨harrival, -⟩ := Moment.request?_of_encode .scripted rfl
    size_encode_tries.1 (by decide) octets_retrySource
  rw [Moment.turn, harrival]
  show firstMoment.session.messageTurn .scripted (Request.init firstTry).encode = _
  have hstart : startEngine .scripted firstTry firstMoment.session.phase firstMoment.session.world
      = _ := startEngine_firstTry
  simp only [Session.messageTurn, Request.decode_encode, Request.normal, Session.answerTurn, hstart]
  rfl

/-- Behind it the worker waits for the second start, with the font path of the first in its
environment. -/
theorem finish_firstMoment :
    (firstMoment.turn .scripted).finish = (none, firstMoment.next .scripted)
      ∧ (firstMoment.next .scripted).phase = .uninitialized
      ∧ secondMoment.request? .scripted = some (.init secondTry)
      ∧ (firstMoment.next .scripted).world.environment.get? Platform.fontPathVariable
        = some "/fonts" := by
  have hfits : (firstMoment.turn .scripted).Fits := by
    rw [turn_firstMoment]
    intro response hresponse
    cases hresponse
    exact Nat.le_trans (Response.size_encode_error_le _) (by decide)
  have haccepts : firstMoment.session.sink.Accepts := Sink.accepts_default _
  obtain ⟨hfinish, hphase, hawaited, hstill⟩ := Moment.next_of_fits haccepts hfits
  rw [turn_firstMoment] at hphase hawaited hstill
  -- what is left of the input is the second start
  obtain ⟨-, -, hrest⟩ := Moment.request?_of_encode .scripted rfl
    size_encode_tries.1 (by decide) octets_retrySource
  obtain ⟨-, hrequest, -⟩ := Moment.request?_of_encode .scripted (m := secondMoment) hawaited
    size_encode_tries.2 (by decide) (hrest.trans (List.append_nil _).symm)
  refine ⟨?_, hphase, hrequest, ?_⟩
  · rw [hfinish, congrArg Turn.reason turn_firstMoment]
  · rw [hstill.environment]
    decide

/-- **A start keeps the font path of one that has failed**: the second start names none, and the
engine is started with that of the first. -/
theorem lifetime_fontPath_of_retry :
    secondMoment ∈ lifetime .scripted .uninitialized failingOnce [⟨retrySource, {}⟩]
      ∧ secondMoment.request? .scripted = some (.init secondTry) ∧ secondTry.fontPaths = []
      ∧ ∃ e ∈ secondMoment.events .scripted, ∃ setup directory,
        e = .launched setup directory (some "/fonts") ∧ setup.fontPaths = [] := by
  obtain ⟨hfinish, hphase, hrequest, hget⟩ := finish_firstMoment
  have hsecond : secondMoment.session = firstMoment.next .scripted := rfl
  rw [← hsecond] at hfinish hphase hget
  have hmem : secondMoment
      ∈ lifetime .scripted .uninitialized failingOnce [⟨retrySource, {}⟩] := by
    have hturns : secondMoment ∈ turns .scripted firstMoment.session firstMoment.source := by
      rw [(serve_of_continues hfinish).2]
      exact List.mem_cons_of_mem _ (mem_turns_self .scripted secondMoment)
    exact mem_lifetime_of_mem_turns .scripted hturns
  obtain ⟨past, hpast, hstarts, hasked⟩ :=
    lifetime_fontPath .scripted failingOnce [⟨retrySource, {}⟩] secondMoment hmem
  -- the second start is neither rejected nor does it break the worker off
  have hgiven : given secondTry.resourcePath = some "/opt" := by decide
  have hnot : ¬ Rejects secondMoment.session.phase secondTry := by
    rintro (hne | hnone)
    · exact hne hphase
    · rw [hgiven] at hnone
      cases hnone
  have hgood : ¬ Breaks secondMoment.session.phase secondTry := by
    rintro ⟨-, -, path, hpath, -⟩
    cases hpath
  obtain ⟨e, he, setup, directory, fontPath⟩ := (hasked secondTry hrequest).2 hnot hgood
  obtain ⟨hfont, request, hsame, hpaths⟩ := hstarts setup directory fontPath he
  cases hsame.symm.trans hrequest
  refine ⟨hmem, hrequest, rfl, _, he, setup, directory, ?_, hpaths⟩
  rw [hfont, hpaths, ← hpast.fontPath, hget]
  congr 1

end Worker

end PdfWorker
