import PdfWorker.Proofs.Platform
import PdfWorker.Worker
set_option autoImplicit false

/-! # Answers

One lemma for each kind of request says what its answer looks like: `startEngine_cases`,
`convert_id` and `convertDocument_announces`; `convertDocument_pdf` says where a PDF comes from.
Nothing that is about answers opens the functions that make them.
-/

namespace PdfWorker

/-- The answer to a document announces exactly the PDF that follows it, if one does. -/
structure BufferReply.Announces (reply : BufferReply) (pdf : Option ByteArray) : Prop where
  success : reply.success = pdf.isSome
  size : ∀ octets ∈ pdf, ∃ n, reply.dataSize = some n ∧ n.toNat = octets.size

theorem BufferReply.announces_failed (id : Int64) (e : EngineError)
    (diagnostics : List Diagnostic) :
    (BufferReply.failed id e diagnostics).Announces none :=
  ⟨rfl, by simp⟩

namespace Worker

variable {ε δ κ : Type}

/-! ## Starting the engine -/

/-- A request that the environment cannot take: it would start the engine, and one of its font
paths holds a NUL character. -/
def Breaks (phase : Phase) (request : InitRequest) : Prop :=
  phase = .uninitialized ∧ (given request.resourcePath).isSome
    ∧ ∃ path ∈ request.fontPaths, '\x00' ∈ path.toList

theorem startEngineIn_cases (host : Host ε δ κ) (request : InitRequest) (resourcePath : String)
    (environment : Environment) (world : World ε κ) :
    (∃ version world', startEngineIn host request resourcePath environment world
        = (.ready version, .ready, world')) ∨
    (∃ message world', startEngineIn host request resourcePath environment world
        = (.error message, .uninitialized, world')) := by
  unfold startEngineIn
  dsimp only
  split
  · exact .inl ⟨_, _, rfl⟩
  · exact .inr ⟨_, _, rfl⟩

/-- **The request to start the engine** breaks the worker off, or the engine is started, or the
answer is an error and the phase stays. -/
theorem startEngine_cases (host : Host ε δ κ) (request : InitRequest) (phase : Phase)
    (world : World ε κ) :
    (Breaks phase request ∧ startEngine host request phase world = (none, phase, world)) ∨
    (¬ Breaks phase request ∧ phase = .uninitialized ∧ ∃ version world',
      startEngine host request phase world = (some (.ready version), .ready, world')) ∨
    (¬ Breaks phase request ∧ ∃ message world',
      startEngine host request phase world = (some (.error message), phase, world')) := by
  cases phase with
  | ready =>
      refine .inr (.inr ⟨?_, _, _, rfl⟩)
      rintro ⟨h, -⟩
      cases h
  | shuttingDown =>
      refine .inr (.inr ⟨?_, _, _, rfl⟩)
      rintro ⟨h, -⟩
      cases h
  | uninitialized =>
      cases hp : given request.resourcePath with
      | none =>
          refine .inr (.inr ⟨?_, "Missing resource_path in init message", world, ?_⟩)
          · rintro ⟨-, h, -⟩
            simp [hp] at h
          · simp only [startEngine, hp]
      | some resourcePath =>
          -- only here the environment decides: there is a resource path
          cases he : host.platform.applyFontPaths request.fontPaths world.environment with
          | none =>
              have hnul := (host.platform.applyFontPaths_eq_none_iff _ _).mp he
              exact .inl ⟨⟨rfl, by simp [hp], hnul⟩, by simp only [startEngine, hp, he]⟩
          | some environment =>
              have hb : ¬ Breaks .uninitialized request := by
                rintro ⟨-, -, hnul⟩
                rw [(host.platform.applyFontPaths_eq_none_iff _ _).mpr hnul] at he
                cases he
              rcases startEngineIn_cases host request resourcePath environment world with
                ⟨version, world', h⟩ | ⟨message, world', h⟩
              · exact .inr (.inl ⟨hb, rfl, version, world', by simp only [startEngine, hp, he, h]⟩)
              · exact .inr (.inr ⟨hb, message, world', by simp only [startEngine, hp, he, h]⟩)

/-- An answer to that request tells that the engine is ready, or an error. -/
theorem startEngine_kind {host : Host ε δ κ} {request : InitRequest} {phase next : Phase}
    {world world' : World ε κ} {response : Response}
    (h : startEngine host request phase world = (some response, next, world')) :
    (∃ version, response = .ready version) ∨ ∃ message, response = .error message := by
  rcases startEngine_cases host request phase world with
    ⟨-, hs⟩ | ⟨-, -, version, started, hs⟩ | ⟨-, message, kept, hs⟩
  · cases h.symm.trans hs
  · cases h.symm.trans hs
    exact .inl ⟨version, rfl⟩
  · cases h.symm.trans hs
    exact .inr ⟨message, rfl⟩

/-- Starting the engine changes no file and nothing about the capture. -/
theorem startEngine_keeps (host : Host ε δ κ) (request : InitRequest) (phase : Phase)
    (world : World ε κ) :
    ∃ environment engine log, (startEngine host request phase world).2.2
      = { world with environment, engine, log } := by
  unfold startEngine
  split
  · exact ⟨_, _, _, rfl⟩
  · exact ⟨_, _, _, rfl⟩
  · split
    · exact ⟨_, _, _, rfl⟩
    · split
      · exact ⟨_, _, _, rfl⟩
      · rename_i environment _
        unfold startEngineIn
        dsimp only
        split
        · rename_i hlaunch
          exact ⟨environment, _, _, (congrArg Prod.snd hlaunch).symm⟩
        · rename_i hlaunch
          exact ⟨environment, _, _, (congrArg Prod.snd hlaunch).symm⟩

/-! ## Conversions -/

/-- The answer to a file carries the number of the request. -/
theorem convert_id (host : Host ε δ κ) (request : FileRequest) (phase : Phase)
    (world : World ε κ) : (convert host request phase world).1.id = request.id := by
  unfold convert
  split
  · split <;> rfl
  all_goals rfl

/-- A PDF that is sent fits into a frame, and the answer tells its size. -/
theorem pdfReply_announces (id : Int64) (pdf : ByteArray) (diagnostics : List Diagnostic) :
    (pdfReply id pdf diagnostics).1.id = id
      ∧ (pdfReply id pdf diagnostics).1.Announces (pdfReply id pdf diagnostics).2
      ∧ ∀ octets ∈ (pdfReply id pdf diagnostics).2, octets = pdf ∧ octets.size ≤ Limits.frame := by
  unfold pdfReply
  split
  · exact ⟨rfl, BufferReply.announces_failed .., by simp⟩
  · rename_i hs
    refine ⟨rfl, ⟨rfl, ?_⟩, ?_⟩
    · rintro octets ⟨rfl⟩
      refine ⟨_, rfl, ?_⟩
      have hlt : pdf.size < UInt64.size :=
        Nat.lt_of_le_of_lt (Nat.le_of_not_lt hs) (by decide : Limits.frame < UInt64.size)
      exact UInt64.toNat_ofNat_of_lt hlt
    · rintro octets ⟨rfl⟩
      exact ⟨rfl, by omega⟩

/-- **The answer to a document** carries the number of the request, announces the PDF that is sent,
which fits into a frame, and tells a failure where no document arrived. -/
theorem convertDocument_announces (host : Host ε δ κ) (request : BufferRequest)
    (document : Option ByteArray) (phase : Phase) (world : World ε κ) :
    (convertDocument host request document phase world).1.1.id = request.id
      ∧ (convertDocument host request document phase world).1.1.Announces
          (convertDocument host request document phase world).1.2
      ∧ (∀ octets ∈ (convertDocument host request document phase world).1.2,
          octets.size ≤ Limits.frame)
      ∧ (document = none →
          (convertDocument host request document phase world).1.1.success = false) := by
  have reject : ∀ e : EngineError,
      (BufferReply.failed request.id e []).id = request.id
        ∧ (BufferReply.failed request.id e []).Announces none
        ∧ (∀ octets ∈ (none : Option ByteArray), octets.size ≤ Limits.frame)
        ∧ (document = none → (BufferReply.failed request.id e []).success = false) :=
    fun e => ⟨rfl, BufferReply.announces_failed .., by simp, fun _ => rfl⟩
  unfold convertDocument
  dsimp only
  split
  · exact reject _
  · split
    · exact reject _
    · exact reject _
    · split
      · exact reject _
      · split
        · obtain ⟨hid, ha, hs⟩ := pdfReply_announces request.id _ _
          exact ⟨hid, ha, fun octets ho => (hs octets ho).2, by simp⟩
        · exact ⟨rfl, BufferReply.announces_failed .., by simp, by simp⟩

theorem captured_result {α : Type} (host : Host ε δ κ) (call : World ε κ → α × World ε κ)
    (world : World ε κ) : (captured host call world).1 = (call (world.startCapture host).2).1 := by
  unfold captured
  rcases world.startCapture host with ⟨e | u, world'⟩ <;> rfl

/-- **The PDF that is sent** is what the conversion of the document gives, octet for octet. -/
theorem convertDocument_pdf (host : Host ε δ κ) (request : BufferRequest) (document : ByteArray)
    (phase : Phase) (world : World ε κ) :
    ∀ octets ∈ (convertDocument host request (some document) phase world).1.2,
      (Conversion.convertDocument host document request.format request.options
        (world.startCapture host).2).1 = .ok octets := by
  -- the reply is made from what the captured conversion gives
  have hresult := captured_result host
    (Conversion.convertDocument host document request.format request.options) world
  unfold convertDocument
  dsimp only
  split
  · simp
  · cases request.dataSize with
    | none => simp
    | some expected =>
        simp only
        split
        · simp
        · rcases hc : captured host (Conversion.convertDocument host document request.format
            request.options) world with ⟨e | pdf, diagnostics, world'⟩
          · simp
          · intro octets ho
            rw [hc] at hresult
            rw [← hresult, ((pdfReply_announces request.id pdf diagnostics).2.2 octets ho).1]

end Worker

end PdfWorker
