import Mathlib.Data.List.Forall2
import Mathlib.Data.Option.Defs
import PdfWorker.Proofs.Worker.Serve
set_option autoImplicit false

/-! # Two workers compared

A `Likeness` of two hosts says which worlds, documents, passwords and diagnostics belong together,
and that the single calls of a worker keep it so. From that follows what a whole turn keeps:
`Likeness.turn_like` says that two sessions that belong together decide alike about frames that
belong together. So whoever compares two runs has to say only what single calls do.
`serve_related` takes what holds of every pair of turns through whole runs.
-/

namespace PdfWorker

variable {ε δ κ ε' δ' κ' α β : Type}

/-! ## What belongs together -/

/-- Two calls fail with the same error, or they give results that belong together. -/
inductive Results (R : α → β → Prop) : Except EngineError α → Except EngineError β → Prop where
  | failed (e : EngineError) : Results R (.error e) (.error e)
  | gave {a : α} {b : β} : R a b → Results R (.ok a) (.ok b)

theorem Results.refl (r : Except EngineError α) : Results Eq r r := by
  cases r with
  | error e => exact .failed e
  | ok a => exact .gave rfl

theorem Results.eq {r r' : Except EngineError α} (h : Results Eq r r') : r' = r := by
  rcases h with e | ⟨rfl⟩ <;> rfl

/-- They fail both or neither. -/
theorem Results.isOk_eq {R : α → β → Prop} {r : Except EngineError α} {r' : Except EngineError β}
    (h : Results R r r') : r'.isOk = r.isOk := by
  cases h <;> rfl

/-- The same options, but for passwords that belong together. -/
structure Options.Like (passwords : Option String → Option String → Prop) (o o' : Options) :
    Prop where
  rest : o' = { o with password := o'.password }
  password : passwords o.password o'.password

/-- The same request but for its options. -/
structure BufferRequest.Like (passwords : Option String → Option String → Prop)
    (r r' : BufferRequest) : Prop where
  rest : r' = { r with options := r'.options }
  options : r.options.Like passwords r'.options

/-- The same request but for its options. -/
structure FileRequest.Like (passwords : Option String → Option String → Prop)
    (r r' : FileRequest) : Prop where
  rest : r' = { r with options := r'.options }
  options : r.options.Like passwords r'.options

/-- Two requests that differ at most in passwords that belong together. -/
inductive Request.Like (passwords : Option String → Option String → Prop) :
    Request → Request → Prop where
  | init (request : InitRequest) : Like passwords (.init request) (.init request)
  | convert {r r'} : FileRequest.Like passwords r r' →
      Like passwords (.convert r) (.convert r')
  | convertBuffer {r r'} : BufferRequest.Like passwords r r' →
      Like passwords (.convertBuffer r) (.convertBuffer r')
  | quit : Like passwords .quit .quit

/-- Two messages hold requests that belong together, or neither of them holds one. -/
inductive Request.DecodedLike (passwords : Option String → Option String → Prop) :
    Except LinkError Request.Decoded → Except LinkError Request.Decoded → Prop where
  | request {r r'} : Request.Like passwords r r' →
      DecodedLike passwords (.ok (.request r)) (.ok (.request r'))
  | ignored (kind kind' : Option String) :
      DecodedLike passwords (.ok (.ignored kind)) (.ok (.ignored kind'))
  | error (e e' : LinkError) : DecodedLike passwords (.error e) (.error e')

/-- The same answer but for its diagnostics. -/
structure ConversionReply.Like (diagnostics : List Diagnostic → List Diagnostic → Prop)
    (r r' : ConversionReply) : Prop where
  rest : r' = { r with diagnostics := r'.diagnostics }
  diagnostics : diagnostics r.diagnostics r'.diagnostics

/-- The same answer but for its diagnostics. -/
structure BufferReply.Like (diagnostics : List Diagnostic → List Diagnostic → Prop)
    (r r' : BufferReply) : Prop where
  rest : r' = { r with diagnostics := r'.diagnostics }
  diagnostics : diagnostics r.diagnostics r'.diagnostics

/-- Two answers that differ at most in diagnostics that belong together. -/
inductive Response.Like (diagnostics : List Diagnostic → List Diagnostic → Prop) :
    Response → Response → Prop where
  | ready (version : String) : Like diagnostics (.ready version) (.ready version)
  | error (message : String) : Like diagnostics (.error message) (.error message)
  | result {r r'} : ConversionReply.Like diagnostics r r' →
      Like diagnostics (.result r) (.result r')
  | bufferResult {r r'} : BufferReply.Like diagnostics r r' →
      Like diagnostics (.bufferResult r) (.bufferResult r')

section Same

variable {passwords : Option String → Option String → Prop} (h : ∀ p, passwords p p)

include h

/-- A request belongs together with itself where every password does. -/
theorem Request.Like.of_same (r : Request) : Request.Like passwords r r := by
  cases r with
  | init r => exact .init r
  | convert r => exact .convert ⟨rfl, rfl, h _⟩
  | convertBuffer r => exact .convertBuffer ⟨rfl, rfl, h _⟩
  | quit => exact .quit

theorem Request.DecodedLike.of_same (d : Except LinkError Request.Decoded) :
    Request.DecodedLike passwords d d := by
  rcases d with e | (r | kind)
  · exact .error e e
  · exact .request (.of_same h r)
  · exact .ignored kind kind

end Same

/-! ## Hosts that are compared -/

/-- The same came of two calls, and the worlds behind them belong together. -/
structure Agree (worlds : World ε κ → World ε' κ' → Prop) (r : α × World ε κ)
    (r' : α × World ε' κ') : Prop where
  result : r'.1 = r.1
  worlds : worlds r.2 r'.2

theorem Agree.eq {worlds : World ε κ → World ε' κ' → Prop} {r : α × World ε κ}
    {r' : α × World ε' κ'} (h : Agree worlds r r') : r' = (r.1, r'.2) :=
  Prod.ext h.result rfl

/-- **A comparison of two hosts**: what belongs together, and that the single calls keep it so. -/
structure Likeness (host : Host ε δ κ) (host' : Host ε' δ' κ') where
  worlds : World ε κ → World ε' κ' → Prop
  documents : δ → δ' → Prop
  passwords : Option String → Option String → Prop
  diagnostics : List Diagnostic → List Diagnostic → Prop
  no_diagnostics : diagnostics [] []
  platform : host'.platform = host.platform
  settings : host'.settings = host.settings
  files {w : World ε κ} {w' : World ε' κ'} : worlds w w' → w'.files = w.files
  environment {w : World ε κ} {w' : World ε' κ'} : worlds w w' → w'.environment = w.environment
  /-- Both worlds may be given the same files. -/
  withFiles {w : World ε κ} {w' : World ε' κ'} : worlds w w' → ∀ files,
    worlds { w with files } { w' with files }
  /-- Both engines start, or fail to, alike. -/
  launch {w : World ε κ} {w' : World ε' κ'} : worlds w w' → ∀ setup environment,
    Agree worlds (World.launch host setup { w with environment })
      (World.launch host' setup { w' with environment })
  load {w : World ε κ} {w' : World ε' κ'} {password password' : Option String} : worlds w w' →
    passwords password password' → ∀ path,
    Results documents (w.load host path password).1 (w'.load host' path password').1
      ∧ worlds (w.load host path password).2 (w'.load host' path password').2
  exportPdf {w : World ε κ} {w' : World ε' κ'} {document : δ} {document' : δ'}
    {options options' : Options} : worlds w w' → documents document document' →
    options.Like passwords options' → ∀ output format,
    Agree worlds (w.exportPdf host document output format options)
      (w'.exportPdf host' document' output format options')
  release {w : World ε κ} {w' : World ε' κ'} : worlds w w' →
    worlds (w.release host) (w'.release host')
  /-- What belongs together without the capture belongs together with it. -/
  captured {α : Type} {call : World ε κ → α × World ε κ} {call' : World ε' κ' → α × World ε' κ'} :
    (∀ w w', worlds w w' → Agree worlds (call w) (call' w')) → ∀ {w w'}, worlds w w' →
    ∃ caught next, Worker.captured host' call' w'
        = ((Worker.captured host call w).1, caught, next)
      ∧ diagnostics (Worker.captured host call w).2.1 caught
      ∧ worlds (Worker.captured host call w).2.2 next

namespace Likeness

variable {host : Host ε δ κ} {host' : Host ε' δ' κ'} (L : Likeness host host')
  {w : World ε κ} {w' : World ε' κ'}

/-! ## Conversions -/

variable {options options' : Options}

theorem convertFile_like (h : L.worlds w w') (ho : options.Like L.passwords options')
    (input output : String) (format : Format) :
    Agree L.worlds (Conversion.convertFile host input output format options w)
      (Conversion.convertFile host' input output format options' w') := by
  unfold Conversion.convertFile
  rw [L.files h]
  split
  · obtain ⟨hresult, hworlds⟩ := L.load h ho.password input
    revert hresult hworlds
    rcases w.load host input options.password with ⟨result, next⟩
    rcases w'.load host' input options'.password with ⟨result', next'⟩
    rintro (e | hdocument) hworlds
    · exact ⟨rfl, hworlds⟩
    · exact L.exportPdf hworlds hdocument ho output format
  · exact ⟨rfl, h⟩

theorem convertStaged_like (h : L.worlds w w') (ho : options.Like L.passwords options')
    (input output : String) (format : Format) :
    Agree L.worlds (Conversion.convertStaged host input output format options w)
      (Conversion.convertStaged host' input output format options' w') := by
  have hagree := L.convertFile_like h ho input output format
  have hworlds := hagree.worlds
  unfold Conversion.convertStaged
  rw [hagree.eq]
  revert hworlds
  rcases Conversion.convertFile host input output format options w with ⟨e | u, next⟩
  · exact fun hworlds => ⟨rfl, hworlds⟩
  · intro hworlds
    exact ⟨congrArg (Staging.readOutput · output) (L.files hworlds), hworlds⟩

theorem convertToReserved_like (h : L.worlds w w') (ho : options.Like L.passwords options')
    (input : String) (format : Format) :
    Agree L.worlds (Conversion.convertToReserved host input format options w)
      (Conversion.convertToReserved host' input format options' w') := by
  unfold Conversion.convertToReserved
  rw [L.files h, L.settings]
  split
  · exact ⟨rfl, h⟩
  · rename_i output files _
    obtain ⟨hresult, hworlds⟩ :=
      L.convertStaged_like (L.withFiles h files) ho input output format
    refine ⟨hresult, ?_⟩
    simp only [Conversion.discard, L.files hworlds]
    exact L.withFiles hworlds _

theorem convertAs_like (h : L.worlds w w') (ho : options.Like L.passwords options')
    (document : ByteArray) (extension : String) (format : Format) :
    Agree L.worlds (Conversion.convertAs host document extension format options w)
      (Conversion.convertAs host' document extension format options' w') := by
  unfold Conversion.convertAs
  rw [L.files h, L.settings]
  split
  · exact ⟨rfl, L.withFiles h _⟩
  · rename_i input files _
    obtain ⟨hresult, hworlds⟩ := L.convertToReserved_like (L.withFiles h files) ho input format
    refine ⟨hresult, ?_⟩
    simp only [Conversion.discard, L.files hworlds]
    exact L.withFiles hworlds _

theorem convertDocument_like (h : L.worlds w w') (ho : options.Like L.passwords options')
    (document : ByteArray) (format : Format) :
    Agree L.worlds (Conversion.convertDocument host document format options w)
      (Conversion.convertDocument host' document format options' w') := by
  unfold Conversion.convertDocument
  split
  · exact ⟨rfl, h⟩
  · split
    · exact ⟨rfl, h⟩
    · exact L.convertAs_like h ho document _ format

/-! ## Answers -/

theorem failed_like {diagnostics diagnostics' : List Diagnostic}
    (hd : L.diagnostics diagnostics diagnostics') (id : Int64) (e : EngineError) :
    BufferReply.Like L.diagnostics (.failed id e diagnostics) (.failed id e diagnostics') :=
  ⟨rfl, hd⟩

theorem pdfReply_like {diagnostics diagnostics' : List Diagnostic}
    (hd : L.diagnostics diagnostics diagnostics') (id : Int64) (pdf : ByteArray) :
    BufferReply.Like L.diagnostics (Worker.pdfReply id pdf diagnostics).1
        (Worker.pdfReply id pdf diagnostics').1
      ∧ (Worker.pdfReply id pdf diagnostics').2 = (Worker.pdfReply id pdf diagnostics).2 := by
  unfold Worker.pdfReply
  split
  · exact ⟨⟨rfl, hd⟩, rfl⟩
  · exact ⟨⟨rfl, hd⟩, rfl⟩

/-- **Converting a file** gives the same answer but for diagnostics. -/
theorem fileReply_like (h : L.worlds w w') {request request' : FileRequest}
    (hr : request.Like L.passwords request') (phase : Phase) :
    ConversionReply.Like L.diagnostics (Worker.convert host request phase w).1
        (Worker.convert host' request' phase w').1
      ∧ L.worlds (Worker.convert host request phase w).2
        (Worker.convert host' request' phase w').2 := by
  have hfields := hr.rest
  unfold Worker.convert
  rw [hfields]
  simp only
  split
  · rename_i input output _ _
    -- the captures of both stand around calls that belong together
    have hagree := fun w w' (h : L.worlds w w') =>
      L.convertFile_like h hr.options input output request.format
    obtain ⟨caught, next', heq, hdiagnostics, hworlds⟩ := L.captured hagree h
    rw [heq]
    revert hdiagnostics hworlds
    rcases Worker.captured host (Conversion.convertFile host input output request.format
      request.options) w with ⟨e | u, diagnostics, next⟩
    all_goals exact fun hdiagnostics hworlds => ⟨⟨rfl, hdiagnostics⟩, hworlds⟩
  · exact ⟨⟨rfl, L.no_diagnostics⟩, h⟩
  · exact ⟨⟨rfl, L.no_diagnostics⟩, h⟩

/-- **Converting a document** gives the same answer but for diagnostics, and the same PDF. -/
theorem documentReply_like (h : L.worlds w w') {request request' : BufferRequest}
    (hr : request.Like L.passwords request') (document : Option ByteArray) (phase : Phase) :
    BufferReply.Like L.diagnostics (Worker.convertDocument host request document phase w).1.1
        (Worker.convertDocument host' request' document phase w').1.1
      ∧ (Worker.convertDocument host' request' document phase w').1.2
        = (Worker.convertDocument host request document phase w).1.2
      ∧ L.worlds (Worker.convertDocument host request document phase w).2
        (Worker.convertDocument host' request' document phase w').2 := by
  have hfields := hr.rest
  unfold Worker.convertDocument
  rw [hfields]
  simp only
  split
  · exact ⟨L.failed_like L.no_diagnostics .., rfl, h⟩
  · split
    · exact ⟨L.failed_like L.no_diagnostics .., rfl, h⟩
    · exact ⟨L.failed_like L.no_diagnostics .., rfl, h⟩
    · rename_i octets _
      split
      · exact ⟨L.failed_like L.no_diagnostics .., rfl, h⟩
      · have hagree := fun w w' (h : L.worlds w w') =>
          L.convertDocument_like h hr.options octets request.format
        obtain ⟨caught, next', heq, hdiagnostics, hworlds⟩ := L.captured hagree h
        rw [heq]
        revert hdiagnostics hworlds
        rcases Worker.captured host (Conversion.convertDocument host octets request.format
          request.options) w with ⟨e | pdf, diagnostics, next⟩
        · exact fun hdiagnostics hworlds => ⟨L.failed_like hdiagnostics .., rfl, hworlds⟩
        · intro hdiagnostics hworlds
          obtain ⟨hreply, hpdf⟩ := L.pdfReply_like hdiagnostics request.id pdf
          exact ⟨hreply, hpdf, hworlds⟩

/-- **Starting the engine** gives the same answer. -/
theorem startEngine_like (h : L.worlds w w') (request : InitRequest) (phase : Phase) :
    ∃ next, Worker.startEngine host' request phase w'
        = ((Worker.startEngine host request phase w).1,
          (Worker.startEngine host request phase w).2.1, next)
      ∧ L.worlds (Worker.startEngine host request phase w).2.2 next := by
  cases phase with
  | ready => exact ⟨w', rfl, h⟩
  | shuttingDown => exact ⟨w', rfl, h⟩
  | uninitialized =>
      simp only [Worker.startEngine, L.platform, L.environment h]
      cases Worker.given request.resourcePath with
      | none => exact ⟨w', rfl, h⟩
      | some resourcePath =>
          cases host.platform.applyFontPaths request.fontPaths w.environment with
          | none => exact ⟨w', rfl, h⟩
          | some environment =>
              have hagree := L.launch h ⟨resourcePath, request.fontPaths, host.platform⟩ environment
              have hworlds := hagree.worlds
              simp only [Worker.startEngineIn, L.platform]
              rw [hagree.eq]
              revert hworlds
              rcases World.launch host ⟨resourcePath, request.fontPaths, host.platform⟩
                { w with environment } with ⟨e | version, next⟩
              all_goals exact fun hworlds => ⟨_, rfl, hworlds⟩

/-! ## Turns -/

/-- Two sessions that belong together, but for where their answers go. -/
structure Sessions (s : Session ε κ) (s' : Session ε' κ') : Prop where
  phase : s'.phase = s.phase
  awaited : Option.Rel (BufferRequest.Like L.passwords) s.awaited s'.awaited
  worlds : L.worlds s.world s'.world

/-- Two turns that belong together. -/
structure Turns (t : Turn ε κ) (t' : Turn ε' κ') : Prop where
  response : Option.Rel (Response.Like L.diagnostics) t.response t'.response
  pdf : t'.pdf = t.pdf
  reason : t'.reason = t.reason
  session : L.Sessions t.session t'.session

/-- Two frames that belong together: the same document where one is awaited, and messages that
belong together elsewhere. -/
inductive Frames : Option BufferRequest → ByteArray → ByteArray → Prop where
  | document (request : BufferRequest) (octets : ByteArray) : Frames (some request) octets octets
  | message {payload payload' : ByteArray} :
      Request.DecodedLike L.passwords (Request.decode payload) (Request.decode payload') →
      Frames none payload payload'

variable {s : Session ε κ} {s' : Session ε' κ'}

theorem answerTurn_like (hs : L.Sessions s s') {request request' : Request}
    (hr : request.Like L.passwords request') :
    L.Turns (s.answerTurn host request) (s'.answerTurn host' request') := by
  cases hr with
  | init request =>
      obtain ⟨next', heq, hworlds⟩ := L.startEngine_like hs.worlds request s.phase
      simp only [Session.answerTurn, hs.phase, heq]
      revert hworlds
      rcases hstart : Worker.startEngine host request s.phase s.world with
        ⟨_ | response, phase, next⟩
      · exact fun hworlds => ⟨.none, rfl, rfl, ⟨rfl, hs.awaited, hworlds⟩⟩
      · intro hworlds
        refine ⟨.some ?_, rfl, rfl, ⟨rfl, hs.awaited, hworlds⟩⟩
        -- a start is answered without diagnostics
        rcases Worker.startEngine_kind hstart with ⟨version, rfl⟩ | ⟨message, rfl⟩
        · exact .ready version
        · exact .error message
  | convert hr =>
      obtain ⟨hreply, hworlds⟩ := L.fileReply_like hs.worlds hr s.phase
      simp only [Session.answerTurn, hs.phase]
      exact ⟨.some (.result hreply), rfl, rfl, ⟨rfl, hs.awaited, hworlds⟩⟩
  | convertBuffer hr => exact ⟨.none, rfl, rfl, ⟨hs.phase, .some hr, hs.worlds⟩⟩
  | quit => exact ⟨.none, rfl, rfl, hs⟩

theorem messageTurn_like (hs : L.Sessions s s') {payload payload' : ByteArray}
    (hd : Request.DecodedLike L.passwords (Request.decode payload) (Request.decode payload')) :
    L.Turns (s.messageTurn host payload) (s'.messageTurn host' payload') := by
  unfold Session.messageTurn
  revert hd
  generalize Request.decode payload = decoded
  generalize Request.decode payload' = decoded'
  rintro (hr | _ | _)
  · exact L.answerTurn_like hs hr
  · exact ⟨.none, rfl, rfl, hs⟩
  · exact ⟨.some (.error _), rfl, rfl, hs⟩

theorem documentTurn_like (hs : L.Sessions s s') {request request' : BufferRequest}
    (hr : request.Like L.passwords request') (document : Option ByteArray)
    (reason : Option ExitReason) :
    L.Turns (s.documentTurn host request document reason)
      (s'.documentTurn host' request' document reason) := by
  obtain ⟨hreply, hpdf, hworlds⟩ := L.documentReply_like hs.worlds hr document s.phase
  unfold Session.documentTurn
  rw [hs.phase]
  exact ⟨.some (.bufferResult hreply), hpdf, rfl, ⟨rfl, .none, hworlds⟩⟩

/-- **Two turns that belong together.** Sessions that belong together decide alike about frames that
belong together, and about a stream that gives them no more frames and ends them alike. -/
theorem turn_like (hs : L.Sessions s s') {arrival arrival' : Except Fault Frame.Arrival}
    (hreason : (Session.ending arrival').1 = (Session.ending arrival).1)
    (hpayload : Option.Rel (L.Frames s.awaited) (Session.ending arrival).2
      (Session.ending arrival').2) :
    L.Turns (s.turn host arrival) (s'.turn host' arrival') := by
  have hawaited := hs.awaited
  unfold Session.turn
  revert hreason hpayload hawaited
  rcases Session.ending arrival with ⟨reason, payload⟩
  rcases Session.ending arrival' with ⟨reason', payload'⟩
  rintro rfl hpayload hawaited
  generalize s.awaited = awaited at hpayload hawaited
  generalize s'.awaited = awaited' at hawaited
  -- both wait for a document or neither does, and a frame arrives at both or at neither
  cases hawaited with
  | none =>
      rcases hpayload with ⟨hframe⟩ | _
      · cases hframe with
        | message hd => exact L.messageTurn_like hs hd
      · exact ⟨.none, rfl, rfl, hs⟩
  | some hr =>
      rcases hpayload with ⟨hframe⟩ | _
      · cases hframe with
        | document => exact L.documentTurn_like hs hr (some _) reason'
      · exact L.documentTurn_like hs hr none reason'

theorem close_like (hs : L.Sessions s s') : L.Sessions (s.close host) (s'.close host') := by
  refine ⟨rfl, hs.awaited, ?_⟩
  simp only [Session.close, hs.phase]
  split
  · exact L.release hs.worlds
  · exact hs.worlds

end Likeness

/-! ## Runs -/

namespace Worker

variable {host : Host ε δ κ} {host' : Host ε' δ' κ'} {R Q : Moment ε κ → Moment ε' κ' → Prop}

/-- **Two runs side by side.** If related turns give the same reason to stop, if those behind related
turns that go on are related again, and those behind the last ones are related as `Q` says, then
both runs stop for the same reason, at moments that `Q` relates, and have related turns. -/
theorem serve_related
    (reason : ∀ {m m'}, R m m' → (m'.turn host').finish.1 = (m.turn host).finish.1)
    (goesOn : ∀ {m m'}, R m m' → (m.turn host).finish.1 = none →
      R (m.behind host) (m'.behind host'))
    (stops : ∀ {m m'}, R m m' → (m.turn host).finish.1 ≠ none →
      Q (m.behind host) (m'.behind host'))
    (m : Moment ε κ) : ∀ m' : Moment ε' κ', R m m' →
    (serve host' m'.session m'.source).1 = (serve host m.session m.source).1
      ∧ Q ⟨(serve host m.session m.source).2.1, (serve host m.session m.source).2.2⟩
          ⟨(serve host' m'.session m'.source).2.1, (serve host' m'.session m'.source).2.2⟩
      ∧ List.Forall₂ R (turns host m.session m.source) (turns host' m'.session m'.source) := by
  induction m using serve_induction host with
  | stops m why next h =>
      intro m' hr
      have h' : (m'.turn host').finish = (some why, (m'.turn host').finish.2) :=
        Prod.ext ((reason hr).trans (congrArg Prod.fst h)) rfl
      have hlast := stops hr (by simp [h])
      obtain ⟨hserve, hturns⟩ := serve_of_stops h
      obtain ⟨hserve', hturns'⟩ := serve_of_stops h'
      rw [Moment.behind, Moment.next, h] at hlast
      rw [hserve, hserve', hturns, hturns']
      exact ⟨rfl, hlast, .cons hr .nil⟩
  | continues m next h ih =>
      intro m' hr
      -- the second run goes on where the first does
      have h' : (m'.turn host').finish = (none, (m'.turn host').finish.2) :=
        Prod.ext ((reason hr).trans (congrArg Prod.fst h)) rfl
      have hnext := goesOn hr (congrArg Prod.fst h)
      rw [Moment.behind, Moment.next, h] at hnext
      obtain ⟨hserve, hturns⟩ := serve_of_continues h
      obtain ⟨hserve', hturns'⟩ := serve_of_continues h'
      obtain ⟨hsame, hlast, hall⟩ := ih _ hnext
      rw [hserve, hserve', hturns, hturns']
      exact ⟨hsame, hlast, .cons hr hall⟩

end Worker

end PdfWorker
