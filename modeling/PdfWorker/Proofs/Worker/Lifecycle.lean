import Mathlib.Data.List.Chain
import PdfWorker.Proofs.Worker.Watched
set_option autoImplicit false

/-! # The life of a worker

A worker may be run again after it has stopped. `Worker.runs` are the runs of one worker, one for
each `Visit`, and every run is told stage by stage. Each stage leads to the next by one of the six
moves of `Moves`, which say how the phase and the calls to the engine go together. From the moves
follows what the calls are in each phase (`Tells`): failed starts, and then perhaps one start that
succeeds, the uses of the engine, and its release.
-/

namespace PdfWorker

/-- The call uses the engine. -/
inductive EngineCall.IsUse : EngineCall → Prop where
  | loaded (path : String) : IsUse (.loaded path)
  | exported (output : String) : IsUse (.exported output)

/-- The call is a start that failed. -/
inductive EngineCall.IsFailure : EngineCall → Prop where
  | launched (e : EngineError) : IsFailure (.launched (.error e))

/-- **The moves of a worker**: how its phase and the calls to its engine change together. -/
inductive Moves : Phase → List EngineCall → Phase → List EngineCall → Prop where
  | rest {phase calls} : Moves phase calls phase calls
  | failure {calls e} :
      Moves .uninitialized calls .uninitialized (calls ++ [.launched (.error e)])
  | launch {calls version} :
      Moves .uninitialized calls .ready (calls ++ [.launched (.ok version)])
  | use {calls uses} (h : ∀ call ∈ uses, EngineCall.IsUse call) :
      Moves .ready calls .ready (calls ++ uses)
  | release {calls} : Moves .ready calls .shuttingDown (calls ++ [.released])
  | leave {calls} : Moves .uninitialized calls .shuttingDown calls

/-- **What the calls to the engine are in each phase**, from the first one on. -/
inductive Tells : Phase → List EngineCall → Prop where
  /-- No start has succeeded. -/
  | uninitialized {failures} (hf : ∀ call ∈ failures, EngineCall.IsFailure call) :
      Tells .uninitialized failures
  /-- The last start has succeeded, and the engine has only been used since. -/
  | ready {failures version uses} (hf : ∀ call ∈ failures, EngineCall.IsFailure call)
      (hu : ∀ call ∈ uses, EngineCall.IsUse call) :
      Tells .ready (failures ++ .launched (.ok version) :: uses)
  /-- No start has ever succeeded. -/
  | unused {failures} (hf : ∀ call ∈ failures, EngineCall.IsFailure call) :
      Tells .shuttingDown failures
  /-- The engine is released. -/
  | released {failures version uses} (hf : ∀ call ∈ failures, EngineCall.IsFailure call)
      (hu : ∀ call ∈ uses, EngineCall.IsUse call) :
      Tells .shuttingDown (failures ++ .launched (.ok version) :: (uses ++ [.released]))

/-- A move keeps the calls what they are in each phase. -/
theorem Tells.move {phase phase' : Phase} {calls calls' : List EngineCall}
    (h : Tells phase calls) (hm : Moves phase calls phase' calls') : Tells phase' calls' := by
  -- a move and the tale of its phase leave one way to go on
  cases hm with
  | rest => exact h
  | failure =>
      cases h with
      | uninitialized hf =>
          refine .uninitialized fun call hc => ?_
          rcases List.mem_append.mp hc with hc | hc
          · exact hf call hc
          · rw [List.mem_singleton.mp hc]
            exact .launched _
  | launch =>
      cases h with
      | uninitialized hf => exact .ready hf (by simp)
  | use hu' =>
      cases h with
      | ready hf hu =>
          rw [List.append_assoc, List.cons_append]
          refine .ready hf fun call hc => ?_
          rcases List.mem_append.mp hc with hc | hc
          · exact hu call hc
          · exact hu' call hc
  | release =>
      cases h with
      | ready hf hu =>
          rw [List.append_assoc, List.cons_append]
          exact .released hf hu
  | leave =>
      cases h with
      | uninitialized hf => exact .unused hf

/-- A worker that is shutting down makes no more calls. -/
theorem Moves.calls_eq {phase : Phase} {calls calls' : List EngineCall}
    (h : Moves .shuttingDown calls phase calls') : phase = .shuttingDown ∧ calls' = calls := by
  cases h with
  | rest => exact ⟨rfl, rfl⟩

variable {ε δ κ α : Type}

namespace World

/-! ## Using the engine -/

/-- The calls that the world has seen. -/
def calls (world : World (Watched ε) κ) : List EngineCall := world.engine.calls

/-- The engine was used, and no more. -/
def Uses (world next : World (Watched ε) κ) : Prop :=
  ∃ uses, (∀ call ∈ uses, EngineCall.IsUse call) ∧ next.calls = world.calls ++ uses

theorem Uses.of_eq {world next : World (Watched ε) κ} (h : next.calls = world.calls) :
    Uses world next := by
  refine ⟨[], by simp, ?_⟩
  rw [h, List.append_nil]

theorem Uses.trans {world mid next : World (Watched ε) κ} (h₁ : Uses world mid)
    (h₂ : Uses mid next) : Uses world next := by
  obtain ⟨uses₁, hu₁, hc₁⟩ := h₁
  obtain ⟨uses₂, hu₂, hc₂⟩ := h₂
  refine ⟨uses₁ ++ uses₂, ?_, ?_⟩
  · intro call hc
    rcases List.mem_append.mp hc with hc | hc
    · exact hu₁ call hc
    · exact hu₂ call hc
  · rw [hc₂, hc₁, List.append_assoc]

theorem uses_load (host : Host ε δ κ) (path : String) (password : Option String)
    (world : World (Watched ε) κ) : Uses world (world.load host.watched path password).2 :=
  ⟨[.loaded path], by simp [EngineCall.IsUse.loaded], rfl⟩

theorem uses_exportPdf (host : Host ε δ κ) (document : δ) (output : String) (format : Format)
    (options : Options) (world : World (Watched ε) κ) :
    Uses world (world.exportPdf host.watched document output format options).2 :=
  ⟨[.exported output], by simp [EngineCall.IsUse.exported], rfl⟩

end World

namespace Conversion

open World (Uses)

theorem uses_convertFile (host : Host ε δ κ) (input output : String) (format : Format)
    (options : Options) (world : World (Watched ε) κ) :
    Uses world (convertFile host.watched input output format options world).2 := by
  unfold convertFile
  split
  · have hload := World.uses_load host input options.password world
    revert hload
    rcases world.load host.watched input options.password with ⟨e | document, next⟩
    · exact id
    · intro hload
      exact hload.trans (World.uses_exportPdf host document output format options next)
  · exact .of_eq rfl

theorem uses_convertStaged (host : Host ε δ κ) (input output : String) (format : Format)
    (options : Options) (world : World (Watched ε) κ) :
    Uses world (convertStaged host.watched input output format options world).2 := by
  have h := uses_convertFile host input output format options world
  unfold convertStaged
  revert h
  rcases convertFile host.watched input output format options world with ⟨e | u, next⟩ <;> exact id

theorem uses_convertToReserved (host : Host ε δ κ) (input : String) (format : Format)
    (options : Options) (world : World (Watched ε) κ) :
    Uses world (convertToReserved host.watched input format options world).2 := by
  unfold convertToReserved
  split
  · exact .of_eq rfl
  · rename_i output files _
    exact uses_convertStaged host input output format options { world with files }

theorem uses_convertAs (host : Host ε δ κ) (document : ByteArray) (extension : String)
    (format : Format) (options : Options) (world : World (Watched ε) κ) :
    Uses world (convertAs host.watched document extension format options world).2 := by
  unfold convertAs
  split
  · exact .of_eq rfl
  · rename_i input files _
    exact uses_convertToReserved host input format options { world with files }

theorem uses_convertDocument (host : Host ε δ κ) (document : ByteArray) (format : Format)
    (options : Options) (world : World (Watched ε) κ) :
    Uses world (convertDocument host.watched document format options world).2 := by
  unfold convertDocument
  split
  · exact .of_eq rfl
  · split
    · exact .of_eq rfl
    · exact uses_convertAs host document _ format options world

end Conversion

namespace Worker

open World (Uses)

/-! ## Answers -/

theorem uses_captured (host : Host ε δ κ) {call : World (Watched ε) κ → α × World (Watched ε) κ}
    (h : ∀ world, Uses world (call world).2) (world : World (Watched ε) κ) :
    Uses world (captured host.watched call world).2.2 := by
  -- starting and reading the capture does not touch the engine
  have hstart : Uses world (world.startCapture host.watched).2 := .of_eq rfl
  unfold captured
  revert hstart
  rcases world.startCapture host.watched with ⟨e | u, next⟩
  · intro hstart
    exact hstart.trans (h next)
  · intro hstart
    exact (hstart.trans (h next)).trans (.of_eq rfl)

/-- A file is converted by using the engine, and only when it is ready. -/
theorem convert_moves (host : Host ε δ κ) (request : FileRequest) (phase : Phase)
    (world : World (Watched ε) κ) :
    Moves phase world.calls phase (convert host.watched request phase world).2.calls := by
  unfold convert
  split
  · rename_i input output _ _
    have h := uses_captured host
      (Conversion.uses_convertFile host input output request.format request.options) world
    revert h
    rcases captured host.watched (Conversion.convertFile host.watched input output request.format
      request.options) world with ⟨e | u, diagnostics, next⟩
    all_goals
      rintro ⟨uses, hu, hc⟩
      simp only at hc ⊢
      rw [hc]
      exact .use hu
  · exact .rest
  · exact .rest

/-- A document is converted by using the engine, and only when it is ready. -/
theorem convertDocument_moves (host : Host ε δ κ) (request : BufferRequest)
    (document : Option ByteArray) (phase : Phase) (world : World (Watched ε) κ) :
    Moves phase world.calls phase
      (convertDocument host.watched request document phase world).2.calls := by
  unfold convertDocument
  split
  · exact .rest
  · rename_i hp
    rw [not_not] at hp
    subst hp
    split
    · exact .rest
    · exact .rest
    · rename_i octets _
      split
      · exact .rest
      · have h := uses_captured host
          (Conversion.uses_convertDocument host octets request.format request.options) world
        revert h
        rcases captured host.watched (Conversion.convertDocument host.watched octets request.format
          request.options) world with ⟨e | u, diagnostics, next⟩
        all_goals
          rintro ⟨uses, hu, hc⟩
          simp only at hc ⊢
          rw [hc]
          exact .use hu

theorem startEngineIn_moves (host : Host ε δ κ) (request : InitRequest) (resourcePath : String)
    (environment : Environment) (world : World (Watched ε) κ) :
    Moves .uninitialized world.calls
      (startEngineIn host.watched request resourcePath environment world).2.1
      (startEngineIn host.watched request resourcePath environment world).2.2.calls := by
  have hcalls : (World.launch host.watched ⟨resourcePath, request.fontPaths, host.platform⟩
        { world with environment }).2.calls
      = world.calls ++ [.launched (World.launch host.watched
        ⟨resourcePath, request.fontPaths, host.platform⟩ { world with environment }).1] := rfl
  have hp : host.watched.platform = host.platform := rfl
  simp only [startEngineIn, hp]
  revert hcalls
  rcases World.launch host.watched ⟨resourcePath, request.fontPaths, host.platform⟩
    { world with environment } with ⟨e | version, next⟩
  · intro hcalls
    simp only at hcalls ⊢
    rw [hcalls]
    exact .failure
  · intro hcalls
    simp only at hcalls ⊢
    rw [hcalls]
    exact .launch

/-- The engine is started only where none was. -/
theorem startEngine_moves (host : Host ε δ κ) (request : InitRequest) (phase : Phase)
    (world : World (Watched ε) κ) :
    Moves phase world.calls (startEngine host.watched request phase world).2.1
      (startEngine host.watched request phase world).2.2.calls := by
  cases phase with
  | ready => exact .rest
  | shuttingDown => exact .rest
  | uninitialized =>
      simp only [startEngine]
      split
      · exact .rest
      · split
        · exact .rest
        · exact startEngineIn_moves ..

end Worker

namespace Session

/-! ## Stages -/

/-- The calls that the session has seen. -/
def calls (s : Session (Watched ε) κ) : List EngineCall := s.world.calls

/-- One stage leads to the next by a move. -/
def LeadsTo (s next : Session (Watched ε) κ) : Prop := Moves s.phase s.calls next.phase next.calls

/-- A turn is a move. -/
theorem leadsTo_turn (host : Host ε δ κ) (arrival : Except Fault Frame.Arrival)
    (s : Session (Watched ε) κ) : s.LeadsTo (s.turn host.watched arrival).session := by
  have h := s.decides_turn host.watched arrival
  generalize s.turn host.watched arrival = t at h
  cases h with
  | quiet | noObject | waiting => exact .rest
  | @started request _ _ _ h | @broken request _ _ h =>
      have hmoves := Worker.startEngine_moves host request s.phase s.world
      rw [h] at hmoves
      exact hmoves
  | @file request _ _ h =>
      have hmoves := Worker.convert_moves host request s.phase s.world
      rw [h] at hmoves
      exact hmoves
  | @document request document _ _ _ _ h _ =>
      have hmoves := Worker.convertDocument_moves host request document s.phase s.world
      rw [h] at hmoves
      exact hmoves

/-- Writing what is due changes neither the phase nor the calls. -/
theorem leadsTo_finish (host : Host ε δ κ) (arrival : Except Fault Frame.Arrival)
    (s : Session (Watched ε) κ) : s.LeadsTo (s.turn host.watched arrival).finish.2 := by
  obtain ⟨sink, log, h⟩ := sendAll_session (s.turn host.watched arrival).frames
    (s.turn host.watched arrival).session
  have hturn := s.leadsTo_turn host arrival
  simp only [Turn.finish]
  rw [h]
  exact hturn

/-- Stopping is a move, and the engine is released by it if there is one. -/
theorem leadsTo_close (host : Host ε δ κ) (s : Session (Watched ε) κ) :
    s.LeadsTo (s.close host.watched) := by
  rcases s with ⟨_ | _ | _, awaited, world, sink⟩
  · exact .leave
  · exact .release
  · exact .rest

end Session

/-! ## Runs of one worker -/

/-- What a worker is given for one run: its input, and where its answers go. -/
structure Visit where
  source : Source
  sink : Sink

/-- One run of a worker, told. -/
structure Run (ε κ : Type) where
  /-- The session before each turn and behind the last one. -/
  stages : List (Session ε κ)
  reason : ExitReason
  /-- The session when the run is over. -/
  last : Session ε κ

namespace Run

/-- All sessions of the run, in order. -/
def sessions (r : Run ε κ) : List (Session ε κ) := r.stages ++ [r.last]

/-- The run without the calls. -/
def forget (r : Run (Watched ε) κ) : Run ε κ := ⟨r.stages.map Session.forget, r.reason, r.last.forget⟩

end Run

namespace Worker

/-- Tells the run that begins with a session. -/
def tell (host : Host ε δ κ) (s : Session ε κ) (source : Source) : Run ε κ where
  stages := (turns host s source).map Moment.session ++ [(serve host s source).2.1]
  reason := (run host s source).1
  last := (run host s source).2.1

/-- **The runs of one worker**, one for each visit. Behind a run that is broken off there are
none. -/
def runs (host : Host ε δ κ) : Phase → World ε κ → List Visit → List (Run ε κ)
  | _, _, [] => []
  | phase, world, visit :: visits =>
    let r := tell host ⟨phase, none, world, visit.sink⟩ visit.source
    r :: if r.reason = .aborted then [] else runs host r.last.phase r.last.world visits

theorem head?_turns (host : Host ε δ κ) (m : Moment ε κ) :
    (turns host m.session m.source).head? = some m := by
  rw [turns]
  rfl

theorem head?_sessions (host : Host ε δ κ) (s : Session ε κ) (source : Source) :
    (tell host s source).sessions.head? = some s := by
  have h := head?_turns host ⟨s, source⟩
  rw [Run.sessions, tell, List.head?_append, List.head?_append, List.head?_map, h]
  rfl

/-- A worker has stopped behind each of its runs. -/
theorem last_phase_of_mem_runs {host : Host ε δ κ} {phase : Phase} {world : World ε κ}
    {visits : List Visit} {r : Run ε κ} (hr : r ∈ runs host phase world visits) :
    r.last.phase = .shuttingDown := by
  induction visits generalizing phase world with
  | nil => cases hr
  | cons visit visits ih =>
      rw [runs] at hr
      rcases List.mem_cons.mp hr with rfl | hr
      · rfl
      · split at hr
        · cases hr
        · exact ih hr

/-- The stages of a run lead to one another. -/
theorem stages_isChain (host : Host ε δ κ) (m : Moment (Watched ε) κ) :
    (tell host.watched m.session m.source).stages.IsChain Session.LeadsTo := by
  induction m using serve_induction host.watched with
  | stops m reason next h =>
      obtain ⟨hserve, hturns⟩ := serve_of_stops h
      have hmove := m.session.leadsTo_finish host (m.arrival host.watched)
      rw [Moment.turn] at h
      rw [h] at hmove
      rw [tell]
      simp only [hserve, hturns, List.map_cons, List.map_nil, List.singleton_append]
      exact List.isChain_pair.mpr hmove
  | continues m next h ih =>
      obtain ⟨hserve, hturns⟩ := serve_of_continues h
      have hmove := m.session.leadsTo_finish host (m.arrival host.watched)
      rw [Moment.turn] at h
      rw [h] at hmove
      rw [tell]
      simp only [hserve, hturns, List.map_cons, List.cons_append]
      -- the first stage of the rest is the session that this turn left
      refine ih.cons fun s hs => ?_
      rw [tell, List.head?_append, List.head?_map,
        head?_turns host.watched ⟨next, m.rest host.watched⟩] at hs
      cases hs
      exact hmove

/-- The sessions of a run lead to one another. -/
theorem sessions_isChain (host : Host ε δ κ) (s : Session (Watched ε) κ) (source : Source) :
    (tell host.watched s source).sessions.IsChain Session.LeadsTo := by
  have hclose := (serve host.watched s source).2.1.leadsTo_close host
  refine (stages_isChain host ⟨s, source⟩).append (List.isChain_singleton _) ?_
  intro last hl next hn
  rw [tell, List.getLast?_concat] at hl
  cases hl
  cases hn
  exact hclose

/-- **All sessions of a worker lead to one another**, from one run to the next. -/
theorem runs_isChain (host : Host ε δ κ) (phase : Phase) (world : World (Watched ε) κ)
    (visits : List Visit) :
    ((runs host.watched phase world visits).flatMap Run.sessions).IsChain Session.LeadsTo
      ∧ ∀ s ∈ ((runs host.watched phase world visits).flatMap Run.sessions).head?,
          s.phase = phase ∧ s.calls = world.calls := by
  induction visits generalizing phase world with
  | nil => exact ⟨List.isChain_nil, by simp [runs]⟩
  | cons visit visits ih =>
      have hhead := head?_sessions host.watched ⟨phase, none, world, visit.sink⟩ visit.source
      have hrun := sessions_isChain host ⟨phase, none, world, visit.sink⟩ visit.source
      rw [runs, List.flatMap_cons]
      refine ⟨hrun.append ?_ ?_, ?_⟩
      · split
        · exact List.isChain_nil
        · exact (ih _ _).1
      · -- the next run begins where this one ended
        intro last hl next hn
        rw [Run.sessions, List.getLast?_concat] at hl
        cases hl
        split at hn
        · cases hn
        · obtain ⟨hp, hc⟩ := (ih _ _).2 next hn
          rw [Session.LeadsTo, hp, hc]
          exact .rest
      · intro s hs
        rw [List.head?_append, hhead] at hs
        cases hs
        exact ⟨rfl, rfl⟩

/-- In the runs of a worker that has stopped before, nothing is called. -/
theorem runs_of_shuttingDown (host : Host ε δ κ) (world : World (Watched ε) κ)
    (visits : List Visit) :
    ∀ r ∈ runs host.watched .shuttingDown world visits, ∀ s ∈ r.sessions,
      s.phase = .shuttingDown ∧ s.calls = world.calls := by
  obtain ⟨hchain, hhead⟩ := runs_isChain host .shuttingDown world visits
  -- the phase stays, and with it the calls
  have hall := hchain.induction (fun s => s.phase = .shuttingDown ∧ s.calls = world.calls) _
    (fun s next hm ⟨hp, hc⟩ => by
      rw [Session.LeadsTo, hp, hc] at hm
      exact hm.calls_eq)
    (fun hne => hhead _ (List.head?_eq_some_head hne))
  intro r hr s hs
  exact hall s (List.mem_flatMap.mpr ⟨r, hr, hs⟩)

theorem runs_pairwise (host : Host ε δ κ) (phase : Phase) (world : World (Watched ε) κ)
    (visits : List Visit) :
    (runs host.watched phase world visits).Pairwise fun r later =>
      ∀ s ∈ later.sessions, s.phase = .shuttingDown ∧ s.calls = r.last.calls := by
  induction visits generalizing phase world with
  | nil => exact .nil
  | cons visit visits ih =>
      rw [runs]
      refine .cons ?_ ?_
      · intro later hl
        split at hl
        · cases hl
        · exact runs_of_shuttingDown host _ visits later hl
      · split
        · exact .nil
        · exact ih _ _

theorem forget_tell (host : Host ε δ κ) (s : Session (Watched ε) κ) (source : Source) :
    (tell host.watched s source).forget = tell host s.forget source := by
  obtain ⟨hserve, hturns⟩ := forget_serve host ⟨s, source⟩
  simp only at hserve hturns
  simp only [tell, Run.forget, forget_run, hserve, hturns, List.map_append, List.map_map,
    List.map_cons, List.map_nil]
  rfl

theorem forget_runs (host : Host ε δ κ) (phase : Phase) (world : World (Watched ε) κ)
    (visits : List Visit) :
    (runs host.watched phase world visits).map Run.forget
      = runs host phase world.forget visits := by
  induction visits generalizing phase world with
  | nil => rfl
  | cons visit visits ih =>
      have h := forget_tell host ⟨phase, none, world, visit.sink⟩ visit.source
      have hs : Session.forget ⟨phase, none, world, visit.sink⟩
        = ⟨phase, none, world.forget, visit.sink⟩ := rfl
      rw [hs] at h
      have hreason : (tell host ⟨phase, none, world.forget, visit.sink⟩ visit.source).reason
          = (tell host.watched ⟨phase, none, world, visit.sink⟩ visit.source).reason := by
        rw [← h]; rfl
      have hlast : (tell host ⟨phase, none, world.forget, visit.sink⟩ visit.source).last
          = (tell host.watched ⟨phase, none, world, visit.sink⟩ visit.source).last.forget := by
        rw [← h]; rfl
      rw [runs, runs, List.map_cons, h]
      -- both lists end with a run that is broken off
      by_cases ha : (tell host.watched ⟨phase, none, world, visit.sink⟩ visit.source).reason
        = .aborted
      · rw [if_pos ha, if_pos (hreason.trans ha), List.map_nil]
      · rw [if_neg ha, if_neg (fun hb => ha (hreason.symm.trans hb)), hlast]
        exact congrArg _ (ih _ _)

/-- **The life of a worker.** Over all runs of one worker, one stage leads to the next by a move:
the engine is started only where none was, used only while it is there, and released at the end of
the run that started it. Later runs call nothing. This is said of the watched engine, and watching
changes nothing. -/
theorem runs_lifecycle (host : Host ε δ κ) (world : World ε κ) (visits : List Visit) :
    (runs host.watched .uninitialized world.watched visits).map Run.forget
        = runs host .uninitialized world visits
      ∧ ((runs host.watched .uninitialized world.watched visits).flatMap
          Run.sessions).IsChain Session.LeadsTo
      ∧ (∀ r ∈ runs host.watched .uninitialized world.watched visits,
          r.last.phase = .shuttingDown ∧ ∀ s ∈ r.sessions, Tells s.phase s.calls)
      ∧ (runs host.watched .uninitialized world.watched visits).Pairwise fun r later =>
          ∀ s ∈ later.sessions, s.phase = .shuttingDown ∧ s.calls = r.last.calls := by
  obtain ⟨hchain, hhead⟩ := runs_isChain host .uninitialized world.watched visits
  have hstart : Tells .uninitialized world.watched.calls :=
    .uninitialized fun call hc => absurd hc List.not_mem_nil
  have hall := hchain.induction (fun s => Tells s.phase s.calls) _
    (fun s next hm ht => Tells.move ht (show Moves s.phase s.calls next.phase next.calls from hm))
    (fun hne => by
      obtain ⟨hp, hc⟩ := hhead _ (List.head?_eq_some_head hne)
      rw [hp, hc]
      exact hstart)
  refine ⟨forget_runs host .uninitialized world.watched visits, hchain, ?_,
    runs_pairwise host .uninitialized world.watched visits⟩
  intro r hr
  exact ⟨last_phase_of_mem_runs hr, fun s hs => hall s (List.mem_flatMap.mpr ⟨r, hr, hs⟩)⟩

end Worker

end PdfWorker
