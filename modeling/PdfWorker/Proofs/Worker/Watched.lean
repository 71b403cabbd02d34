import PdfWorker.Proofs.Worker.Serve
set_option autoImplicit false

/-! # Watching the engine

`Engine.watched` is an engine that keeps a list of the calls made to it, and is otherwise the engine
that it watches. Watching changes nothing: `forget_run` says that a worker on a watched engine runs as
on the engine itself, up to the list. So what is said of the calls of a watched engine is said of
every engine.
-/

namespace PdfWorker

/-- A call to an engine. -/
inductive EngineCall where
  /-- The engine was started, with this result. -/
  | launched (result : Except EngineError String)
  | loaded (path : String)
  | exported (output : String)
  | released

/-- The state of an engine and the calls made to it, oldest first. -/
structure Watched (ε : Type) where
  engine : ε
  calls : List EngineCall := []

variable {ε δ κ α : Type}

/-- The outcome of a call that is written down. -/
def Outcome.watched (outcome : Outcome ε α) (calls : List EngineCall) : Outcome (Watched ε) α :=
  ⟨outcome.result, outcome.files, outcome.chatter, ⟨outcome.state, calls⟩⟩

/-- **The engine whose calls are written down.** -/
def Engine.watched (engine : Engine ε δ) : Engine (Watched ε) δ where
  launch s files environment setup :=
    let (result, next) := engine.launch s.engine files environment setup
    (result, ⟨next, s.calls ++ [.launched result]⟩)
  load s files path password :=
    (engine.load s.engine files path password).watched (s.calls ++ [.loaded path])
  exportPdf s files document output format options :=
    (engine.exportPdf s.engine files document output format options).watched
      (s.calls ++ [.exported output])
  release s := ⟨engine.release s.engine, s.calls ++ [.released]⟩

/-- The host whose engine is watched. -/
def Host.watched (host : Host ε δ κ) : Host (Watched ε) δ κ :=
  ⟨host.platform, host.settings, host.engine.watched, host.capture⟩

namespace World

/-! ## Forgetting the calls -/

/-- Starts watching. -/
def watched (world : World ε κ) : World (Watched ε) κ :=
  ⟨world.files, world.environment, ⟨world.engine, []⟩, world.capture, world.log⟩

/-- The world without the calls. -/
def forget (world : World (Watched ε) κ) : World ε κ :=
  ⟨world.files, world.environment, world.engine.engine, world.capture, world.log⟩

/-- What came of something, without the calls. -/
def unwatch (result : α × World (Watched ε) κ) : α × World ε κ := (result.1, result.2.forget)

theorem unwatch_load (host : Host ε δ κ) (path : String) (password : Option String)
    (world : World (Watched ε) κ) :
    unwatch (world.load host.watched path password) = world.forget.load host path password := rfl

theorem unwatch_exportPdf (host : Host ε δ κ) (document : δ) (output : String) (format : Format)
    (options : Options) (world : World (Watched ε) κ) :
    unwatch (world.exportPdf host.watched document output format options)
      = world.forget.exportPdf host document output format options := rfl

end World

namespace Conversion

open World (unwatch)

/-! ## Conversions -/

theorem unwatch_convertFile (host : Host ε δ κ) (input output : String) (format : Format)
    (options : Options) (world : World (Watched ε) κ) :
    unwatch (convertFile host.watched input output format options world)
      = convertFile host input output format options world.forget := by
  unfold convertFile
  rw [← World.unwatch_load]
  show unwatch (if world.files.holds input then _ else _) = if world.files.holds input then _ else _
  split
  · rcases world.load host.watched input options.password with ⟨e | document, next⟩
    · rfl
    · exact World.unwatch_exportPdf host document output format options next
  · rfl

theorem unwatch_convertStaged (host : Host ε δ κ) (input output : String) (format : Format)
    (options : Options) (world : World (Watched ε) κ) :
    unwatch (convertStaged host.watched input output format options world)
      = convertStaged host input output format options world.forget := by
  unfold convertStaged
  rw [← unwatch_convertFile]
  rcases convertFile host.watched input output format options world with ⟨e | u, next⟩ <;> rfl

theorem unwatch_convertToReserved (host : Host ε δ κ) (input : String) (format : Format)
    (options : Options) (world : World (Watched ε) κ) :
    unwatch (convertToReserved host.watched input format options world)
      = convertToReserved host input format options world.forget := by
  have hfiles : world.forget.files = world.files := rfl
  have hsettings : host.watched.settings = host.settings := rfl
  unfold convertToReserved
  rw [hfiles, hsettings]
  rcases Staging.reserveOutput world.files host.settings.stagingDirectory with
    e | ⟨output, files⟩
  · rfl
  · have h := unwatch_convertStaged host input output format options { world with files }
    exact congrArg (fun r => (r.1, discard output r.2)) h

theorem unwatch_convertAs (host : Host ε δ κ) (document : ByteArray) (extension : String)
    (format : Format) (options : Options) (world : World (Watched ε) κ) :
    unwatch (convertAs host.watched document extension format options world)
      = convertAs host document extension format options world.forget := by
  have hfiles : world.forget.files = world.files := rfl
  have hsettings : host.watched.settings = host.settings := rfl
  unfold convertAs
  rw [hfiles, hsettings]
  rcases Staging.stageInput world.files host.settings.stagingDirectory document extension with
    e | ⟨input, files⟩
  · rfl
  · have h := unwatch_convertToReserved host input format options { world with files }
    exact congrArg (fun r => (r.1, discard input r.2)) h

theorem unwatch_convertDocument (host : Host ε δ κ) (document : ByteArray) (format : Format)
    (options : Options) (world : World (Watched ε) κ) :
    unwatch (convertDocument host.watched document format options world)
      = convertDocument host document format options world.forget := by
  unfold convertDocument
  split
  · rfl
  · cases format.extension? with
    | none => rfl
    | some extension => exact unwatch_convertAs host document extension format options world

end Conversion

namespace Worker

open World (unwatch)

/-! ## Answers -/

theorem unwatch_captured (host : Host ε δ κ) {call : World (Watched ε) κ → α × World (Watched ε) κ}
    {plain : World ε κ → α × World ε κ} (h : ∀ world, unwatch (call world) = plain world.forget)
    (world : World (Watched ε) κ) :
    captured host plain world.forget
      = ((captured host.watched call world).1, (captured host.watched call world).2.1,
        (captured host.watched call world).2.2.forget) := by
  have hstart : world.forget.startCapture host = unwatch (world.startCapture host.watched) := rfl
  unfold captured
  rw [hstart]
  rcases world.startCapture host.watched with ⟨e | u, next⟩
  · dsimp only [unwatch]
    rw [← h]
    rfl
  · dsimp only [unwatch]
    rw [← h]
    rfl

theorem forget_startEngineIn (host : Host ε δ κ) (request : InitRequest) (resourcePath : String)
    (environment : Environment) (world : World (Watched ε) κ) :
    startEngineIn host request resourcePath environment world.forget
      = ((startEngineIn host.watched request resourcePath environment world).1,
        (startEngineIn host.watched request resourcePath environment world).2.1,
        (startEngineIn host.watched request resourcePath environment world).2.2.forget) := by
  have hlaunch : World.launch host ⟨resourcePath, request.fontPaths, host.platform⟩
        { world.forget with environment }
      = unwatch (World.launch host.watched
        ⟨resourcePath, request.fontPaths, host.watched.platform⟩ { world with environment }) := rfl
  simp only [startEngineIn]
  rw [hlaunch]
  rcases World.launch host.watched ⟨resourcePath, request.fontPaths, host.watched.platform⟩
    { world with environment } with ⟨e | version, next⟩ <;> rfl

theorem forget_startEngine (host : Host ε δ κ) (request : InitRequest) (phase : Phase)
    (world : World (Watched ε) κ) :
    startEngine host request phase world.forget
      = ((startEngine host.watched request phase world).1,
        (startEngine host.watched request phase world).2.1,
        (startEngine host.watched request phase world).2.2.forget) := by
  cases phase with
  | ready => rfl
  | shuttingDown => rfl
  | uninitialized =>
      have hp : host.watched.platform = host.platform := rfl
      have he : world.forget.environment = world.environment := rfl
      simp only [startEngine, hp, he]
      cases given request.resourcePath with
      | none => rfl
      | some resourcePath =>
          cases host.platform.applyFontPaths request.fontPaths world.environment with
          | none => rfl
          | some environment => simp only [forget_startEngineIn]

theorem unwatch_convert (host : Host ε δ κ) (request : FileRequest) (phase : Phase)
    (world : World (Watched ε) κ) :
    unwatch (convert host.watched request phase world)
      = convert host request phase world.forget := by
  have hcaptured := fun input output => unwatch_captured host
    (Conversion.unwatch_convertFile host input output request.format request.options) world
  unfold convert
  split
  · rw [hcaptured]
    rename_i input output _ _
    rcases captured host.watched (Conversion.convertFile host.watched input output request.format
      request.options) world with ⟨e | u, diagnostics, next⟩ <;> rfl
  · rfl
  · rfl

theorem unwatch_convertDocument (host : Host ε δ κ) (request : BufferRequest)
    (document : Option ByteArray) (phase : Phase) (world : World (Watched ε) κ) :
    unwatch (convertDocument host.watched request document phase world)
      = convertDocument host request document phase world.forget := by
  have hcaptured := fun octets => unwatch_captured host
    (Conversion.unwatch_convertDocument host octets request.format request.options) world
  unfold convertDocument
  split
  · rfl
  · split
    · rfl
    · rfl
    · rename_i octets _
      split
      · rfl
      · rw [hcaptured]
        rcases captured host.watched (Conversion.convertDocument host.watched octets request.format
          request.options) world with ⟨e | u, diagnostics, next⟩ <;> rfl

end Worker

namespace Session

/-! ## Turns -/

/-- The session without the calls. -/
def forget (s : Session (Watched ε) κ) : Session ε κ := ⟨s.phase, s.awaited, s.world.forget, s.sink⟩

theorem forget_send (payload : ByteArray) (s : Session (Watched ε) κ) :
    s.forget.send payload = ((s.send payload).1, (s.send payload).2.forget) := by
  have hsink : s.forget.sink = s.sink := rfl
  unfold send
  rw [hsink]
  rcases Frame.write payload s.sink with ⟨e | u, next⟩ <;> rfl

theorem forget_sendAll (frames : List ByteArray) (s : Session (Watched ε) κ) :
    s.forget.sendAll frames = ((s.sendAll frames).1, (s.sendAll frames).2.forget) := by
  induction frames generalizing s with
  | nil => rfl
  | cons payload rest ih =>
      -- writing does not look at the engine
      rw [sendAll, sendAll, forget_send]
      rcases s.send payload with ⟨_ | reason, next⟩
      · exact ih next
      · rfl

theorem forget_close (host : Host ε δ κ) (s : Session (Watched ε) κ) :
    s.forget.close host = (s.close host.watched).forget := by
  rcases s with ⟨_ | _ | _, awaited, world, sink⟩ <;> rfl

end Session

/-- The turn without the calls. -/
def Turn.forget (t : Turn (Watched ε) κ) : Turn ε κ := ⟨t.response, t.pdf, t.reason, t.session.forget⟩

namespace Session

theorem forget_answerTurn (host : Host ε δ κ) (request : Request) (s : Session (Watched ε) κ) :
    s.forget.answerTurn host request = (s.answerTurn host.watched request).forget := by
  cases request with
  | init request =>
      have h := Worker.forget_startEngine host request s.phase s.world
      simp only [answerTurn, forget, h]
      rcases Worker.startEngine host.watched request s.phase s.world with
        ⟨_ | response, phase, world⟩ <;> rfl
  | convert request =>
      have h := Worker.unwatch_convert host request s.phase s.world
      simp only [answerTurn, forget, ← h]
      rfl
  | convertBuffer request => rfl
  | quit => rfl

theorem forget_turn (host : Host ε δ κ) (arrival : Except Fault Frame.Arrival)
    (s : Session (Watched ε) κ) :
    s.forget.turn host arrival = (s.turn host.watched arrival).forget := by
  have hawaited : s.forget.awaited = s.awaited := rfl
  unfold turn
  rw [hawaited]
  -- both sessions wait for the same document, so they take the same way
  rcases ending arrival with ⟨reason, payload⟩
  cases s.awaited with
  | some request =>
      have h := Worker.unwatch_convertDocument host request payload s.phase s.world
      simp only [documentTurn, forget, ← h]
      rfl
  | none =>
      cases payload with
      | none => rfl
      | some payload =>
          simp only [messageTurn]
          rcases Request.decode payload with e | (request | kind)
          · rfl
          · exact forget_answerTurn host request s
          · rfl

end Session

theorem Turn.forget_finish (t : Turn (Watched ε) κ) :
    t.forget.finish = (t.finish.1, t.finish.2.forget) := by
  have h := Session.forget_sendAll t.frames t.session
  have hframes : t.forget.frames = t.frames := rfl
  have hsession : t.forget.session = t.session.forget := rfl
  simp only [Turn.finish, hframes, hsession, h]
  rfl

/-- The moment without the calls. -/
def Moment.forget (m : Moment (Watched ε) κ) : Moment ε κ := ⟨m.session.forget, m.source⟩

theorem Moment.finish_forget (host : Host ε δ κ) (m : Moment (Watched ε) κ) :
    (m.forget.turn host).finish
      = ((m.turn host.watched).finish.1, (m.turn host.watched).finish.2.forget) := by
  have hturn : m.forget.turn host = (m.turn host.watched).forget :=
    Session.forget_turn host (m.arrival host.watched) m.session
  rw [hturn, Turn.forget_finish]

namespace Worker

/-! ## Runs -/

theorem forget_serve (host : Host ε δ κ) (m : Moment (Watched ε) κ) :
    serve host m.session.forget m.source
        = ((serve host.watched m.session m.source).1,
          (serve host.watched m.session m.source).2.1.forget,
          (serve host.watched m.session m.source).2.2)
      ∧ turns host m.session.forget m.source
        = (turns host.watched m.session m.source).map Moment.forget := by
  induction m using serve_induction host.watched with
  | stops m reason next h =>
      have hplain : (m.forget.turn host).finish = (some reason, next.forget) := by
        rw [m.finish_forget, h]
      rw [(serve_of_stops h).1, (serve_of_stops h).2]
      exact serve_of_stops hplain
  | continues m next h ih =>
      have hplain : (m.forget.turn host).finish = (none, next.forget) := by
        rw [m.finish_forget, h]
      rw [(serve_of_continues h).1, (serve_of_continues h).2, ← ih.1, List.map_cons, ← ih.2]
      exact serve_of_continues hplain

/-- **Watching changes nothing**: a worker on a watched engine runs as on the engine itself. -/
theorem forget_run (host : Host ε δ κ) (s : Session (Watched ε) κ) (source : Source) :
    run host s.forget source
      = ((run host.watched s source).1, (run host.watched s source).2.1.forget,
        (run host.watched s source).2.2) := by
  have h := (forget_serve host ⟨s, source⟩).1
  simp only [run]
  rw [h]
  simp only [Session.forget_close]

end Worker

end PdfWorker
