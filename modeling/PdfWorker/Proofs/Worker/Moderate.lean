import PdfWorker.Proofs.FileTree
import PdfWorker.Proofs.Response
import PdfWorker.Proofs.Worker.Answers
set_option autoImplicit false

/-! # How long the answers of a worker are

A host is `Moderate` if what its engine says and what its capture has caught is at most a mebibyte
each. The answers of a worker on such a host are far below the limit on frames (`startEngine_fits`,
`convertDocument_fits`), with one exception: the answer to a file that is not there repeats the path
as it was given, and a path may be as long as a frame (`convert_fits`).
-/

namespace PdfWorker

/-- The octets of a mebibyte. -/
def mebibyte : Nat := 1024 * 1024

/-- **What the engine says and what the capture has caught is short.** A file that the engine writes
may be of any size that a machine can tell. -/
structure Host.Moderate {ε δ κ : Type} (host : Host ε δ κ) : Prop where
  version : ∀ {state files environment setup version},
    (host.engine.launch state files environment setup).1 = .ok version →
      version.utf8ByteSize ≤ mebibyte
  launchError : ∀ {state files environment setup e},
    (host.engine.launch state files environment setup).1 = .error e →
      e.message.utf8ByteSize ≤ mebibyte
  loadError : ∀ {state files path password e},
    (host.engine.load state files path password).result = .error e →
      e.message.utf8ByteSize ≤ mebibyte
  exportError : ∀ {state files document output format options e},
    (host.engine.exportPdf state files document output format options).result = .error e →
      e.message.utf8ByteSize ≤ mebibyte
  loadFiles : ∀ {state files path password}, files.Sized →
    (host.engine.load state files path password).files.Sized
  exportFiles : ∀ {state files document output format options}, files.Sized →
    (host.engine.exportPdf state files document output format options).files.Sized
  caught : ∀ {state}, (host.capture.read state).1.size ≤ mebibyte

/-- The message takes at most a mebibyte. -/
def EngineError.Brief (e : EngineError) : Prop := e.message.utf8ByteSize ≤ mebibyte

instance (e : EngineError) : Decidable e.Brief :=
  inferInstanceAs (Decidable (e.message.utf8ByteSize ≤ mebibyte))

/-! ## Conversions -/

namespace Conversion

variable {ε δ κ : Type} {host : Host ε δ κ}

/-- What is reported about a file that is not there. -/
def missing (input : String) : EngineError :=
  ⟨.fileNotFound, "Input file not found: " ++ input⟩

/-- A conversion that fails says little, but for the path of a file that is not there. -/
theorem convertFile_error (hm : host.Moderate) {input output : String} {format : Format}
    {options : Options} {world : World ε κ} {e : EngineError}
    (h : (convertFile host input output format options world).1 = .error e) :
    e.Brief ∨ (world.files.holds input = false ∧ e = missing input) := by
  unfold convertFile at h
  split at h
  · split at h
    · rename_i e' world' hload
      cases h
      exact .inl (hm.loadError (congrArg Prod.fst hload))
    · exact .inl (hm.exportError h)
  · rename_i hholds
    cases h
    exact .inr ⟨Bool.eq_false_iff.mpr hholds, rfl⟩

theorem sized_convertFile (hm : host.Moderate) (input output : String) (format : Format)
    (options : Options) {world : World ε κ} (hs : world.files.Sized) :
    (convertFile host input output format options world).2.files.Sized := by
  have hload : (host.engine.load world.engine world.files input options.password).files.Sized :=
    hm.loadFiles hs
  unfold convertFile
  split
  · split
    · rename_i e world' hl
      have hfiles := congrArg (fun r => r.2.files) hl
      exact hfiles ▸ hload
    · rename_i document world' hl
      have hfiles := congrArg (fun r => r.2.files) hl
      exact hm.exportFiles (hfiles ▸ hload)
  · exact hs

/-- **What a conversion of a document gives is told in few words**: an error is brief, and the size
of a PDF has few digits, as those of all files. -/
structure Modest (outcome : Except EngineError ByteArray × World ε κ) : Prop where
  brief : ∀ e, outcome.1 = .error e → e.Brief
  told : ∀ pdf, outcome.1 = .ok pdf → pdf.size < UInt64.size
  files : outcome.2.files.Sized

theorem Modest.of_error {e : EngineError} {world : World ε κ} (he : e.Brief)
    (hs : world.files.Sized) : Modest (.error e, world) := by
  refine ⟨?_, ?_, hs⟩
  · rintro e' ⟨rfl⟩
    exact he
  · rintro pdf ⟨⟩

theorem Modest.discard {outcome : Except EngineError ByteArray × World ε κ} (h : Modest outcome)
    (path : String) : Modest (outcome.1, Conversion.discard path outcome.2) :=
  ⟨h.brief, h.told, h.files.remove path⟩

theorem brief_resource {e : EngineError} (h : ∃ context fault, e = .resource context fault
    ∧ context.utf8ByteSize ≤ 64 ∧ fault.Brief) : e.Brief := by
  obtain ⟨context, fault, rfl, hcontext, hfault⟩ := h
  have hcolon : (": " : String).utf8ByteSize = 2 := by decide
  have hmessage : fault.message.utf8ByteSize ≤ 64 := hfault
  have hlarge : 130 ≤ mebibyte := by decide
  show (context ++ ": " ++ fault.message).utf8ByteSize ≤ mebibyte
  rw [String.utf8ByteSize_append, String.utf8ByteSize_append, hcolon]
  omega

theorem modest_readOutput {world : World ε κ} (hs : world.files.Sized) (output : String) :
    Modest (Staging.readOutput world.files output, world) := by
  unfold Staging.readOutput
  split
  · rename_i fault hread
    have hprefix : ("Failed to read output PDF: " : String).utf8ByteSize = 27 := by decide
    have hfault : fault.message.utf8ByteSize ≤ 64 := FileTree.read_brief hread
    have hlarge : 91 ≤ mebibyte := by decide
    refine .of_error ?_ hs
    show ("Failed to read output PDF: " ++ fault.message).utf8ByteSize ≤ mebibyte
    rw [String.utf8ByteSize_append, hprefix]
    omega
  · rename_i pdf hread
    split
    · refine .of_error ?_ hs
      decide
    · refine ⟨?_, ?_, hs⟩
      · rintro e ⟨⟩
      · rintro pdf' ⟨rfl⟩
        exact hs.read hread

theorem modest_convertStaged (hm : host.Moderate) {input : String}
    (hshort : input.utf8ByteSize < FileTree.pathBound) (output : String) (format : Format)
    (options : Options) {world : World ε κ} (hs : world.files.Sized) :
    Modest (convertStaged host input output format options world) := by
  have hfiles := sized_convertFile hm input output format options hs
  unfold convertStaged
  split
  · rename_i e world' hfile
    rw [hfile] at hfiles
    refine .of_error ?_ hfiles
    rcases convertFile_error hm (congrArg Prod.fst hfile) with hbrief | ⟨-, rfl⟩
    · exact hbrief
    · -- the path of a staged file is short, and may be repeated
      have hprefix : ("Input file not found: " : String).utf8ByteSize = 22 := by decide
      have hbound : FileTree.pathBound + 22 ≤ mebibyte := by decide
      show ("Input file not found: " ++ input).utf8ByteSize ≤ mebibyte
      rw [String.utf8ByteSize_append, hprefix]
      omega
  · rename_i world' hfile
    rw [hfile] at hfiles
    exact modest_readOutput hfiles output

theorem modest_convertToReserved (hm : host.Moderate) {input : String}
    (hshort : input.utf8ByteSize < FileTree.pathBound) (format : Format) (options : Options)
    {world : World ε κ} (hs : world.files.Sized) :
    Modest (convertToReserved host input format options world) := by
  unfold convertToReserved
  split
  · rename_i e hreserve
    exact .of_error (brief_resource (Staging.reserveOutput_error hreserve)) hs
  · rename_i output files hreserve
    have hreserved : { world with files }.files.Sized := Staging.reserveOutput_ok hreserve hs
    exact (modest_convertStaged hm hshort output format options hreserved).discard output

theorem modest_convertAs (hm : host.Moderate) {document : ByteArray}
    (hd : document.size < UInt64.size) (extension : String) (format : Format) (options : Options)
    {world : World ε κ} (hs : world.files.Sized) :
    Modest (convertAs host document extension format options world) := by
  unfold convertAs
  split
  · rename_i failure hstage
    exact .of_error (brief_resource (Staging.stageInput_error hstage))
      (Staging.sized_of_stageInput_error hstage hs hd)
  · rename_i input files hstage
    obtain ⟨hshort, hfiles⟩ := Staging.stageInput_ok hstage hs hd
    have hstaged : { world with files }.files.Sized := hfiles
    exact (modest_convertToReserved hm hshort format options hstaged).discard input

/-- **A document that was sent along** is converted with few words. -/
theorem modest_convertDocument (hm : host.Moderate) {document : ByteArray}
    (hd : document.size < UInt64.size) (format : Format) (options : Options) {world : World ε κ}
    (hs : world.files.Sized) : Modest (convertDocument host document format options world) := by
  unfold convertDocument
  split
  · refine .of_error ?_ hs
    decide
  · split
    · refine .of_error ?_ hs
      decide
    · exact modest_convertAs hm hd _ format options hs

end Conversion

namespace Response

/-- The diagnostics and the message of an answer that fits for sure. -/
theorem messageSize_of_brief {e : EngineError} (h : e.Brief) :
    messageSize (some e.message) ≤ 6 * mebibyte + 4 := by
  have hmessage := messageSize_le (some e.message)
  have hlength : e.message.toList.length ≤ e.message.utf8ByteSize :=
    Text.length_le_utf8ByteSize e.message
  have hbrief : e.message.utf8ByteSize ≤ mebibyte := h
  simp only [Diagnostic.lengthOf] at hmessage
  omega

theorem diagnosticsSize_nil : diagnosticsSize [] = 2 := by
  decide

end Response

namespace Worker

variable {ε δ κ : Type} {host : Host ε δ κ}

open Response (messageSize diagnosticsSize messageSize_of_brief diagnosticsSize_nil)

/-! ## Answers -/

/-- **An answer to the request to start the engine** fits into a frame. -/
theorem startEngine_fits (hm : host.Moderate) {request : InitRequest} {phase next : Phase}
    {world world' : World ε κ} {response : Response}
    (h : startEngine host request phase world = (some response, next, world')) :
    response.encode.size ≤ Limits.frame := by
  have hlarge : 6 * mebibyte + 29 ≤ Limits.frame := by decide
  have herror : ∀ message : String, message.utf8ByteSize ≤ mebibyte →
      (Response.error message).encode.size ≤ Limits.frame := by
    intro message hmessage
    have hsize := Response.size_encode_error_le message
    have hlength := Text.length_le_utf8ByteSize message
    omega
  unfold startEngine at h
  split at h
  · cases h
    exact herror _ (by decide)
  · cases h
    exact herror _ (by decide)
  · split at h
    · cases h
      exact herror _ (by decide)
    · split at h
      · cases h
      · -- the engine is started in an environment with the font paths
        unfold startEngineIn at h
        dsimp only at h
        split at h
        · rename_i version started hlaunch
          cases h
          have hversion : version.utf8ByteSize ≤ mebibyte :=
            hm.version (congrArg Prod.fst hlaunch)
          have hsize := Response.size_encode_ready_le version
          have hlength := Text.length_le_utf8ByteSize version
          show (Response.ready version).encode.size ≤ Limits.frame
          omega
        · rename_i e started hlaunch
          cases h
          have hmessage : e.message.utf8ByteSize ≤ mebibyte :=
            hm.launchError (congrArg Prod.fst hlaunch)
          unfold launchError
          split
          · exact herror _ (by decide)
          · exact herror _ hmessage

/-- The diagnostics in what a capture has caught take at most thirty mebibytes. -/
theorem diagnostics_caught (hm : host.Moderate) (state : κ) :
    diagnosticsSize (LogLine.ofOctets (host.capture.read state).1) ≤ 30 * mebibyte + 2 := by
  have hcaught : (host.capture.read state).1.size ≤ mebibyte := hm.caught
  have hsize := LogLine.size_ofOctets_le (host.capture.read state).1
  rw [diagnosticsSize]
  omega

theorem captured_diagnostics (hm : host.Moderate) {α : Type} (call : World ε κ → α × World ε κ)
    (world : World ε κ) :
    diagnosticsSize (captured host call world).2.1 ≤ 30 * mebibyte + 2 := by
  unfold captured
  split
  · rw [diagnosticsSize_nil]
    omega
  · exact diagnostics_caught hm _

/-- Capturing a call changes nothing about its result and the files that it leaves. -/
theorem captured_files {α : Type} (host : Host ε δ κ) (call : World ε κ → α × World ε κ)
    (world : World ε κ) :
    (captured host call world).2.2.files = (call (world.startCapture host).2).2.files := by
  unfold captured
  rcases world.startCapture host with ⟨e | u, world'⟩ <;> rfl

theorem captured_modest (host : Host ε δ κ)
    {call : World ε κ → Except EngineError ByteArray × World ε κ}
    (hcall : ∀ world, world.files.Sized → Conversion.Modest (call world)) {world : World ε κ}
    (hs : world.files.Sized) :
    Conversion.Modest ((captured host call world).1, (captured host call world).2.2) := by
  have hmodest := hcall (world.startCapture host).2 hs
  refine ⟨?_, ?_, ?_⟩
  · rw [captured_result]
    exact hmodest.brief
  · rw [captured_result]
    exact hmodest.told
  · rw [captured_files]
    exact hmodest.files

/-- The answer to a file that tells a brief error, or none. -/
theorem result_fits {reply : ConversionReply}
    (hmessage : messageSize reply.errorMessage ≤ 6 * mebibyte + 4)
    (hdiagnostics : diagnosticsSize reply.diagnostics ≤ 30 * mebibyte + 2) :
    (Response.result reply).encode.size ≤ Limits.frame := by
  have hsize := Response.size_encode_result_le reply
  have hlarge : 36 * mebibyte + 115 ≤ Limits.frame := by decide
  omega

/-- The answer to a document that tells a brief error, or none. -/
theorem bufferResult_fits {reply : BufferReply}
    (hmessage : messageSize reply.errorMessage ≤ 6 * mebibyte + 4)
    (hdiagnostics : diagnosticsSize reply.diagnostics ≤ 30 * mebibyte + 2) :
    (Response.bufferResult reply).encode.size ≤ Limits.frame := by
  have hsize := Response.size_encode_bufferResult_le reply
  have hlarge : 36 * mebibyte + 156 ≤ Limits.frame := by decide
  omega

theorem messageSize_none : messageSize none ≤ 6 * mebibyte + 4 := by
  decide

/-- The answer to a complete request for a file that is not there. -/
theorem convert_of_missing {request : FileRequest} {input output : String} {world : World ε κ}
    (hinput : given request.input = some input) (houtput : given request.output = some output)
    (hmissing : world.files.holds input = false) :
    (convert host request .ready world).1 = .failed request.id (Conversion.missing input)
      (captured host (Conversion.convertFile host input output request.format request.options)
        world).2.1 := by
  have herror : (Conversion.convertFile host input output request.format request.options
      (world.startCapture host).2).1 = .error (Conversion.missing input) := by
    have hholds : ¬ (world.startCapture host).2.files.holds input = true :=
      Bool.eq_false_iff.mp hmissing
    rw [Conversion.convertFile, if_neg hholds]
    rfl
  have hresult := captured_result host
    (Conversion.convertFile host input output request.format request.options) world
  rw [herror] at hresult
  unfold convert
  split
  · rename_i input' output' hinput' houtput'
    cases hinput.symm.trans hinput'
    cases houtput.symm.trans houtput'
    split
    · rename_i hcaptured
      rw [hcaptured] at hresult
      cases hresult
    · rename_i hcaptured
      rw [hcaptured] at hresult ⊢
      cases hresult
      rfl
  · rename_i hother
    exact absurd houtput (hother input output hinput)
  · rename_i hother
    exact absurd houtput (hother input output rfl hinput)

/-- A file was asked for that is not there: the request is complete, the engine is running, and the
answer tells the path. -/
structure Misses (request : FileRequest) (phase : Phase) (world : World ε κ) (input : String)
    (reply : ConversionReply) : Prop where
  ready : phase = .ready
  given : given request.input = some input
  output : (Worker.given request.output).isSome
  missing : world.files.holds input = false
  told : ∃ diagnostics, reply = .failed request.id (Conversion.missing input) diagnostics
    ∧ diagnosticsSize diagnostics ≤ 30 * mebibyte + 2

/-- **The answer to a file** fits into a frame, unless the file is not there and the answer tells
its path. -/
theorem convert_fits (hm : host.Moderate) {request : FileRequest} {phase : Phase}
    {world world' : World ε κ} {reply : ConversionReply}
    (h : convert host request phase world = (reply, world')) :
    (Response.result reply).encode.size ≤ Limits.frame
      ∨ ∃ input, Misses request phase world input reply := by
  unfold convert at h
  split at h
  · rename_i input output hinput houtput
    have hdiagnostics := captured_diagnostics hm
      (Conversion.convertFile host input output request.format request.options) world
    have hresult := captured_result host
      (Conversion.convertFile host input output request.format request.options) world
    split at h
    · rename_i diagnostics done hcaptured
      cases h
      rw [hcaptured] at hdiagnostics
      exact .inl (result_fits messageSize_none hdiagnostics)
    · rename_i e diagnostics done hcaptured
      cases h
      rw [hcaptured] at hdiagnostics hresult
      rcases Conversion.convertFile_error hm hresult.symm with hbrief | ⟨hmissing, rfl⟩
      · exact .inl (result_fits (messageSize_of_brief hbrief) hdiagnostics)
      · refine .inr ⟨input, rfl, hinput, ?_, hmissing, diagnostics, rfl, hdiagnostics⟩
        rw [houtput]
        rfl
  · cases h
    exact .inl (result_fits (messageSize_of_brief (by decide))
      (by rw [ConversionReply.failed, diagnosticsSize_nil]; omega))
  · cases h
    exact .inl (result_fits (messageSize_of_brief (by decide))
      (by rw [ConversionReply.failed, diagnosticsSize_nil]; omega))

theorem sized_convert (hm : host.Moderate) (request : FileRequest) (phase : Phase)
    {world : World ε κ} (hs : world.files.Sized) :
    (convert host request phase world).2.files.Sized := by
  unfold convert
  split
  · rename_i input output hinput houtput
    have hfiles := captured_files host
      (Conversion.convertFile host input output request.format request.options) world
    have hstarted : (world.startCapture host).2.files.Sized := hs
    have hsized := Conversion.sized_convertFile hm input output request.format request.options
      hstarted
    rw [← hfiles] at hsized
    split
    · rename_i hcaptured
      rw [hcaptured] at hsized
      exact hsized
    · rename_i hcaptured
      rw [hcaptured] at hsized
      exact hsized
  · exact hs
  · exact hs

/-- Starting the engine changes no file. -/
theorem files_startEngine (host : Host ε δ κ) (request : InitRequest) (phase : Phase)
    (world : World ε κ) : (startEngine host request phase world).2.2.files = world.files := by
  obtain ⟨environment, engine, log, hworld⟩ := startEngine_keeps host request phase world
  rw [hworld]

/-- The size of a PDF is told in few words. -/
theorem pdfReply_fits {id : Int64} {pdf : ByteArray} {diagnostics : List Diagnostic}
    (hpdf : pdf.size < UInt64.size)
    (hdiagnostics : diagnosticsSize diagnostics ≤ 30 * mebibyte + 2) :
    (Response.bufferResult (pdfReply id pdf diagnostics).1).encode.size ≤ Limits.frame := by
  unfold pdfReply
  split
  · refine bufferResult_fits (messageSize_of_brief ?_) hdiagnostics
    have hdigits : (toString pdf.size).utf8ByteSize ≤ 20 := by
      rw [Nat.toString_eq_repr, Nat.repr_eq_ofList_toDigits, Text.utf8ByteSize_ofList,
        Json.octets_toDigits]
      have hword : UInt64.size < 10 ^ 20 := by decide
      exact (Nat.length_toDigits_le_iff (by decide) (by decide)).mpr (Nat.lt_trans hpdf hword)
    have hstart : ("PDF of " : String).utf8ByteSize = 7 := by decide
    have hmiddle : (" bytes exceeds the " : String).utf8ByteSize = 19 := by decide
    have hlimit : (toString Limits.frame).utf8ByteSize = 9 := by decide
    have hend : (" byte frame limit" : String).utf8ByteSize = 17 := by decide
    have hlarge : 72 ≤ mebibyte := by decide
    show ("PDF of " ++ toString pdf.size ++ " bytes exceeds the " ++ toString Limits.frame
      ++ " byte frame limit").utf8ByteSize ≤ mebibyte
    rw [String.utf8ByteSize_append, String.utf8ByteSize_append, String.utf8ByteSize_append,
      String.utf8ByteSize_append, hstart, hmiddle, hlimit, hend]
    omega
  · exact bufferResult_fits messageSize_none hdiagnostics

/-- **The answer to a document** fits into a frame, and the files stay as they should. -/
theorem convertDocument_fits (hm : host.Moderate) (request : BufferRequest)
    (document : Option ByteArray) (phase : Phase) {world : World ε κ} (hs : world.files.Sized) :
    (Response.bufferResult (convertDocument host request document phase world).1.1).encode.size
        ≤ Limits.frame
      ∧ (convertDocument host request document phase world).2.files.Sized := by
  have reject : ∀ e : EngineError, e.Brief →
      (Response.bufferResult (.failed request.id e [])).encode.size ≤ Limits.frame := by
    intro e he
    refine bufferResult_fits (messageSize_of_brief he) ?_
    rw [BufferReply.failed, diagnosticsSize_nil]
    omega
  unfold convertDocument
  dsimp only
  split
  · exact ⟨reject _ (by decide), hs⟩
  · split
    · exact ⟨reject _ (by decide), hs⟩
    · exact ⟨reject _ (by decide), hs⟩
    · rename_i expected document' hexpected
      split
      · exact ⟨reject _ (by decide), hs⟩
      · -- the size that was announced is a number of 64 bits
        rename_i hsize
        have hd : document'.size < UInt64.size := by
          have hlt := expected.toNat_lt_size
          omega
        have hconverted := captured_modest host
          (fun _ hs => Conversion.modest_convertDocument hm hd request.format request.options hs) hs
        have hdiagnostics := captured_diagnostics hm
          (Conversion.convertDocument host document' request.format request.options) world
        split
        · rename_i pdf diagnostics done hcaptured
          rw [hcaptured] at hconverted hdiagnostics
          exact ⟨pdfReply_fits (hconverted.told pdf rfl) hdiagnostics, hconverted.files⟩
        · rename_i e diagnostics done hcaptured
          rw [hcaptured] at hconverted hdiagnostics
          refine ⟨bufferResult_fits (messageSize_of_brief ?_) hdiagnostics, hconverted.files⟩
          exact hconverted.brief e rfl

end Worker

end PdfWorker
