import PdfWorker.Proofs.Staging
import PdfWorker.Proofs.Worker.CaptureCalls
import PdfWorker.Proofs.Worker.CaptureIndependence
set_option autoImplicit false

/-! # Which check decides

A request to convert goes through a list of checks (`Check.ofFile`, `Check.ofDocument`). Two of them
are calls to the engine, to load and to export; the others look at the session, at the request and at
the files. The first check that fails decides the answer, and no call behind it is made:
`turn_checks` says so of every session and whatever arrives.

The numbers and the messages of the failures are written out in the lists.
-/

namespace PdfWorker

variable {ε δ κ : Type}

/-- **One check**: the call to the engine that it makes, if it makes one, and how it fails, if it
does. -/
structure Check where
  call : Option Event := none
  failure : Option EngineError := none

namespace Check

/-! ## Verdicts -/

/-- The check fails with this number and message. -/
def fails (number : Nat) (message : String) : Check :=
  { failure := some ⟨.ofNumber number, message⟩ }

/-- The check fails with this number and message unless something holds. -/
def needs (holds : Bool) (number : Nat) (message : String) : Check :=
  if holds then {} else fails number message

/-- The check fails with a fault on a temporary file. -/
def refused (context : String) (fault : Fault) : Check :=
  fails (if fault.kind = .outOfMemory then 6 else 7) (context ++ ": " ++ fault.message)

/-- The failure of a result, or what is said later of what it gives. -/
def failureOf {α : Type} (later : α → Option EngineError) :
    Except EngineError α → Option EngineError
  | .error e => some e
  | .ok a => later a

/-- The check is a call to the engine, and fails as the call does. -/
def use {α : Type} (event : Event) (result : Except EngineError α) : Check :=
  ⟨some event, failureOf (fun _ => none) result⟩

/-- **The verdict**: the failure of the first check that fails. -/
def verdict : List Check → Option EngineError
  | [] => none
  | check :: rest => check.failure.or (verdict rest)

/-- **The calls that are made**: those up to the first check that fails. -/
def calls : List Check → List Event
  | [] => []
  | check :: rest => check.call.toList ++ if check.failure = none then calls rest else []

variable {α : Type} {rest : List Check} {number : Nat} {message : String} {event : Event}

@[simp] theorem verdict_use_error {e : EngineError} :
    verdict (use event (.error e : Except EngineError α) :: rest) = some e := rfl

@[simp] theorem calls_use_error {e : EngineError} :
    calls (use event (.error e : Except EngineError α) :: rest) = [event] := rfl

@[simp] theorem verdict_use_ok {a : α} : verdict (use event (.ok a) :: rest) = verdict rest := rfl

@[simp] theorem calls_use_ok {a : α} :
    calls (use event (.ok a) :: rest) = event :: calls rest := rfl

@[simp] theorem verdict_nil : verdict [] = none := rfl

@[simp] theorem calls_nil : calls [] = [] := rfl

@[simp] theorem verdict_fails : verdict (fails number message :: rest)
    = some ⟨.ofNumber number, message⟩ := rfl

@[simp] theorem calls_fails : calls (fails number message :: rest) = [] := rfl

@[simp] theorem verdict_needs {holds : Bool} : verdict (needs holds number message :: rest)
    = if holds then verdict rest else some ⟨.ofNumber number, message⟩ := by
  cases holds <;> rfl

@[simp] theorem calls_needs {holds : Bool} : calls (needs holds number message :: rest)
    = if holds then calls rest else [] := by
  cases holds <;> rfl

@[simp] theorem verdict_refused {context : String} {fault : Fault} :
    verdict (refused context fault :: rest) = some (.resource context fault) := by
  simp only [refused, verdict_fails, EngineError.resource, ErrorCode.ofFault]
  split <;> rfl

@[simp] theorem calls_refused {context : String} {fault : Fault} :
    calls (refused context fault :: rest) = [] := rfl

/-! ## The checks of a request -/

/-- The engine loads the input and exports it; `behind` are the checks of the files behind that. -/
def uses (host : Host ε δ κ) (input output : String) (format : Format) (options : Options)
    (state : ε) (files : FileTree) (behind : FileTree → List Check) : List Check :=
  let loading := host.engine.load state files input options.password
  use (.loaded input options.password (files.read input).toOption) loading.result ::
    match loading.result with
    | .error _ => []
    | .ok document =>
      let exporting := host.engine.exportPdf loading.state loading.files document output format
        options
      use (.exported output format options) exporting.result :: behind exporting.files

/-- The checks of an input and of what the engine makes of it. -/
def ofPaths (host : Host ε δ κ) (input output : String) (format : Format) (options : Options)
    (state : ε) (files : FileTree) : List Check :=
  needs (files.holds input) 5 ("Input file not found: " ++ input) ::
  uses host input output format options state files fun _ => []

/-- **The checks of a request to convert a file**, with the engine in this state and these files. -/
def ofFile (host : Host ε δ κ) (request : FileRequest) (phase : Phase) (state : ε)
    (files : FileTree) : List Check :=
  let input := request.input.getD ""
  let output := request.output.getD ""
  needs (phase = .ready) 9 "Worker not initialized" ::
  needs (input ≠ "" ∧ output ≠ "") 10 "Missing input or output path" ::
  ofPaths host input output request.format request.options state files

/-- The PDF can be sent. -/
def fits (pdf : ByteArray) : Check :=
  needs (pdf.size ≤ Limits.frame) 3 ("PDF of " ++ toString pdf.size ++ " bytes exceeds the " ++
    toString Limits.frame ++ " byte frame limit")

/-- The checks of the PDF that the engine has left. -/
def ofOutput (output : String) (files : FileTree) : List Check :=
  match files.read output with
  | .error fault => [fails 3 ("Failed to read output PDF: " ++ fault.message)]
  | .ok pdf => [needs (pdf.size ≠ 0) 3 "Engine produced an empty PDF", fits pdf]

/-- The checks of the staged files and of what the engine makes of them. -/
def ofStaging (host : Host ε δ κ) (document : ByteArray) (extension : String) (format : Format)
    (options : Options) (state : ε) (files : FileTree) : List Check :=
  match Staging.create files host.settings.stagingDirectory extension with
  | .error fault => [refused "Failed to create temporary input file" fault]
  | .ok (input, created) =>
    match created.write input document with
    | .error spoilt => [refused "Failed to write temporary input file" spoilt.fault]
    | .ok staged =>
      match Staging.create staged host.settings.stagingDirectory "pdf" with
      | .error fault => [refused "Failed to create temporary output file" fault]
      | .ok (output, reserved) =>
        uses host input output format options state reserved (ofOutput output)

/-- The checks of a document and of its format. -/
def ofOctets (host : Host ε δ κ) (document : ByteArray) (format : Format) (options : Options)
    (state : ε) (files : FileTree) : List Check :=
  needs (document.size ≠ 0) 10 "Document data is empty" ::
  needs format.extension?.isSome 4 "Buffer conversion requires an explicit document format" ::
  ofStaging host document (format.extension?.getD "") format options state files

/-- **The checks of a request to convert a document**, given the document if it arrived. -/
def ofDocument (host : Host ε δ κ) (request : BufferRequest) (document : Option ByteArray)
    (phase : Phase) (state : ε) (files : FileTree) : List Check :=
  let octets := document.getD .empty
  needs (phase = .ready) 9 "Worker not initialized" ::
  needs request.dataSize.isSome 10 "Missing data_size in convert_buffer" ::
  needs document.isSome 10 "Failed to read document data frame" ::
  needs (request.dataSize.map UInt64.toNat = some octets.size) 10 "Data frame size mismatch" ::
  ofOctets host octets request.format request.options state files

end Check

/-! ## Conversions -/

open Check (verdict calls failureOf)

/-- **The checks decide what comes of a conversion** in a world, and which calls are made. Of what
is given `later` still decides. -/
structure Check.Decide {α : Type} (checks : List Check) (later : α → Option EngineError)
    (world : World ε κ) (outcome : Except EngineError α × World ε κ) : Prop where
  verdict : verdict checks = failureOf later outcome.1
  calls : outcome.2.engineCalls = world.engineCalls ++ calls checks

namespace Conversion

open Check (Decide uses ofPaths ofOutput ofStaging ofOctets fits)

variable (host : Host ε δ κ) {input : String} (output : String) (format : Format)
  (options : Options) {world : World ε κ}

theorem engineCalls_settle {α : Type} (outcome : Outcome ε α) {event : Event}
    (hevent : event.isEngineCall = true) (world : World ε κ) :
    ((world.record event).settle host outcome).engineCalls = world.engineCalls ++ [event] := by
  have hrecord := world.engineCalls_record event
  rw [if_pos hevent] at hrecord
  exact hrecord

/-- How an input that is there is converted: loading fails, or exporting fails, or the checks of the
files behind them are left. -/
theorem convertFile_uses (hholds : world.files.holds input = true)
    (behind : FileTree → List Check) :
    (∃ e next, convertFile host input output format options world = (.error e, next)
      ∧ verdict (uses host input output format options world.engine world.files behind) = some e
      ∧ next.engineCalls = world.engineCalls
        ++ calls (uses host input output format options world.engine world.files behind)) ∨
    (∃ next gained, convertFile host input output format options world = (.ok (), next)
      ∧ verdict (uses host input output format options world.engine world.files behind)
        = verdict (behind next.files)
      ∧ calls (uses host input output format options world.engine world.files behind)
        = gained ++ calls (behind next.files)
      ∧ next.engineCalls = world.engineCalls ++ gained) := by
  simp only [convertFile, hholds, if_true, World.load, uses]
  have hload : (Event.loaded input options.password (world.files.read input).toOption).isEngineCall
      = true := rfl
  revert hload
  generalize Event.loaded input options.password (world.files.read input).toOption = loaded
  generalize host.engine.load world.engine world.files input options.password = loading
  intro hload
  have hloaded := engineCalls_settle host loading hload world
  rcases loading.result with e | document
  · exact .inl ⟨e, _, rfl, Check.verdict_use_error, hloaded⟩
  · have hexport : (Event.exported output format options).isEngineCall = true := rfl
    revert hexport
    -- the second call is made on what the first has left
    have hnext : World.exportPdf host document output format options
        ((world.record loaded).settle host loading)
        = ((host.engine.exportPdf loading.state loading.files document output format options).result,
          (((world.record loaded).settle host loading).record
            (.exported output format options)).settle host
              (host.engine.exportPdf loading.state loading.files document output format options)) :=
      rfl
    simp only [hnext]
    generalize Event.exported output format options = exported
    generalize host.engine.exportPdf loading.state loading.files document output format options
      = exporting
    intro hexport
    have hexported := engineCalls_settle host exporting hexport
      ((world.record loaded).settle host loading)
    rw [hloaded, List.append_assoc] at hexported
    rcases exporting.result with e | u
    · exact .inl ⟨e, _, rfl, rfl, hexported⟩
    · exact .inr ⟨_, [loaded, exported], rfl, rfl, rfl, hexported⟩

/-- The checks decide about a file. -/
theorem convertFile_decide (input : String) (world : World ε κ) :
    Decide (ofPaths host input output format options world.engine world.files) (fun _ => none) world
      (convertFile host input output format options world) := by
  unfold ofPaths
  by_cases hholds : world.files.holds input = true
  · rcases convertFile_uses host output format options hholds (fun _ => []) with
      ⟨e, next, hconvert, hverdict, hcalls⟩ | ⟨next, gained, hconvert, hverdict, hcalls, hgained⟩
    · rw [hconvert]
      exact ⟨by rw [Check.verdict_needs, if_pos hholds, hverdict]; rfl,
        by rw [Check.calls_needs, if_pos hholds, hcalls]⟩
    · rw [hconvert]
      exact ⟨by rw [Check.verdict_needs, if_pos hholds, hverdict]; rfl,
        by rw [Check.calls_needs, if_pos hholds, hcalls, hgained, Check.calls_nil, List.append_nil]⟩
  · rw [convertFile, if_neg hholds]
    exact ⟨by rw [Check.verdict_needs, if_neg hholds]; rfl,
      by rw [Check.calls_needs, if_neg hholds, List.append_nil]⟩

/-- Nothing is called for the output. -/
theorem calls_ofOutput (output : String) (files : FileTree) :
    calls (ofOutput output files) = [] := by
  unfold ofOutput
  split
  · rfl
  · simp [fits]

/-- The checks of the output are those of reading it, and then its size. -/
theorem verdict_ofOutput (output : String) (files : FileTree) :
    verdict (ofOutput output files)
      = failureOf (fun pdf => verdict [fits pdf]) (Staging.readOutput files output) := by
  unfold ofOutput Staging.readOutput
  rcases files.read output with fault | pdf
  · rfl
  · by_cases hempty : pdf.size = 0
    · simp only [hempty, Check.verdict_needs]
      rfl
    · simp only [hempty, Check.verdict_needs, ne_eq, not_false_eq_true, decide_true, if_true,
        if_false]
      rfl

/-- The checks decide about a staged input. -/
theorem convertStaged_decide (hholds : world.files.holds input = true) :
    Decide (uses host input output format options world.engine world.files (ofOutput output))
      (fun pdf => verdict [fits pdf]) world
      (convertStaged host input output format options world) := by
  rcases convertFile_uses host output format options hholds (ofOutput output) with
    ⟨e, next, hconvert, hverdict, hcalls⟩ | ⟨next, gained, hconvert, hverdict, hcalls, hgained⟩
  · simp only [convertStaged, hconvert]
    exact ⟨hverdict, hcalls⟩
  · rw [calls_ofOutput, List.append_nil] at hcalls
    simp only [convertStaged, hconvert]
    refine ⟨?_, hcalls ▸ hgained⟩
    rw [hverdict, verdict_ofOutput]

/-- The checks decide about a document that is to be staged. -/
theorem convertAs_decide (document : ByteArray) (extension : String) (world : World ε κ) :
    Decide (ofStaging host document extension format options world.engine world.files)
      (fun pdf => verdict [fits pdf]) world
      (convertAs host document extension format options world) := by
  have hfails : ∀ context fault files, Decide [Check.refused context fault]
      (fun pdf => verdict [fits pdf]) world
      (.error (.resource context fault), { world with files }) :=
    fun context fault files => ⟨Check.verdict_refused, by simp [World.engineCalls]⟩
  unfold ofStaging convertAs Staging.stageInput
  rcases hcreate : Staging.create world.files host.settings.stagingDirectory extension with
    fault | ⟨input, created⟩
  · exact hfails _ fault world.files
  · simp only
    rcases hwrite : created.write input document with spoilt | staged
    · exact hfails _ spoilt.fault (spoilt.files.remove input)
    · simp only [convertToReserved, Staging.reserveOutput]
      rcases hreserve : Staging.create staged host.settings.stagingDirectory "pdf" with
        fault | ⟨output, reserved⟩
      · exact ⟨Check.verdict_refused, by simp [discard, World.engineCalls]⟩
      · have hholds : reserved.holds input = true :=
          FileTree.holds_of_read (Staging.read_of_reserved hcreate hwrite hreserve)
        have hdecide : Decide _ _ { world with files := reserved } _ :=
          convertStaged_decide host output format options hholds
        exact ⟨hdecide.verdict, hdecide.calls⟩

/-- The checks decide about a document. -/
theorem convertDocument_decide (document : ByteArray) (world : World ε κ) :
    Decide (ofOctets host document format options world.engine world.files)
      (fun pdf => verdict [fits pdf]) world
      (convertDocument host document format options world) := by
  unfold ofOctets convertDocument
  by_cases hempty : document.size = 0
  · rw [if_pos hempty]
    exact ⟨by simp [hempty]; rfl, by simp [hempty]⟩
  · rw [if_neg hempty]
    cases hextension : format.extension? with
    | none => exact ⟨by simp [hempty]; rfl, by simp [hempty]⟩
    | some extension =>
        have hdecide := convertAs_decide host format options document extension world
        exact ⟨by simp [hempty, hdecide.verdict], by simp [hempty, hdecide.calls]⟩

end Conversion

namespace Worker

open Check (Decide ofPaths ofOctets fits ofFile ofDocument)

variable (host : Host ε δ κ)

/-! ## Answers -/

/-- Catching the chatter changes nothing about what is decided. -/
theorem captured_decide {α : Type} {checks : List Check} {later : α → Option EngineError}
    {call : World ε κ → Except EngineError α × World ε κ} {world : World ε κ}
    (h : Decide checks later (world.startCapture host).2 (call (world.startCapture host).2)) :
    verdict checks = failureOf later (captured host call world).1
      ∧ (captured host call world).2.2.engineCalls = world.engineCalls ++ calls checks := by
  refine ⟨by rw [captured_result, h.verdict], ?_⟩
  rw [(captured_same host call world).calls, h.calls, (World.startCapture_same host world).calls]

/-- The answer to a conversion of a file that fails or not. -/
def fileReply (id : Int64) (failure : Option EngineError) (diagnostics : List Diagnostic) :
    ConversionReply :=
  match failure with
  | none => .ok id diagnostics
  | some e => .failed id e diagnostics

/-- A text is given, or it is as if it were empty. -/
theorem given_cases (text : Option String) :
    (given text = some (text.getD "") ∧ text.getD "" ≠ "")
      ∨ (given text = none ∧ text.getD "" = "") := by
  cases text with
  | none => exact .inr ⟨rfl, rfl⟩
  | some t =>
      by_cases ht : t = ""
      · exact .inr ⟨by simp [given, ht], ht⟩
      · exact .inl ⟨by simp [given, ht], ht⟩

/-- A request that names both paths is decided by the checks of these. -/
theorem convert_of_given {request : FileRequest} {input output : String}
    (hinput : given request.input = some input) (houtput : given request.output = some output)
    (world : World ε κ) :
    (∃ diagnostics, (convert host request .ready world).1
        = fileReply request.id (verdict (ofPaths host input output request.format request.options
          world.engine world.files)) diagnostics)
      ∧ (convert host request .ready world).2.engineCalls = world.engineCalls
        ++ calls (ofPaths host input output request.format request.options world.engine
          world.files) := by
  obtain ⟨hverdict, hcalls⟩ := captured_decide host (Conversion.convertFile_decide host output
    request.format request.options input (world.startCapture host).2)
  have hengine : (world.startCapture host).2.engine = world.engine := rfl
  have hfiles : (world.startCapture host).2.files = world.files := rfl
  rw [hengine, hfiles] at hverdict hcalls
  simp only [convert, hinput, houtput]
  revert hverdict hcalls
  rcases captured host (Conversion.convertFile host input output request.format request.options)
    world with ⟨e | u, diagnostics, next⟩
  all_goals
    intro hverdict hcalls
    rw [hverdict]
    exact ⟨⟨diagnostics, rfl⟩, hcalls⟩

/-- **The checks decide** about a request to convert a file. -/
theorem convert_decided (request : FileRequest) (phase : Phase) (world : World ε κ) :
    (∃ diagnostics, (convert host request phase world).1
        = fileReply request.id (verdict (ofFile host request phase world.engine world.files))
          diagnostics)
      ∧ (convert host request phase world).2.engineCalls = world.engineCalls
        ++ calls (ofFile host request phase world.engine world.files) := by
  simp only [ofFile, Check.verdict_needs, Check.calls_needs, decide_eq_true_eq]
  by_cases hready : phase = .ready
  · rw [if_pos hready, if_pos hready, hready]
    by_cases hgiven : request.input.getD "" ≠ "" ∧ request.output.getD "" ≠ ""
    · have hinput := (given_cases request.input).resolve_right fun h => hgiven.1 h.2
      have houtput := (given_cases request.output).resolve_right fun h => hgiven.2 h.2
      rw [if_pos hgiven, if_pos hgiven]
      exact convert_of_given host hinput.1 houtput.1 world
    · -- one of the paths is not given
      have hconvert : convert host request .ready world
          = (.failed request.id (.invalidArgument "Missing input or output path") [], world) := by
        unfold convert
        rcases given_cases request.input with ⟨hinput, hin⟩ | ⟨hinput, hin⟩
        · rcases given_cases request.output with ⟨houtput, hout⟩ | ⟨houtput, hout⟩
          · exact absurd ⟨hin, hout⟩ hgiven
          · rw [hinput, houtput]
        · rw [hinput]
      rw [if_neg hgiven, if_neg hgiven, hconvert, List.append_nil]
      exact ⟨⟨[], rfl⟩, rfl⟩
  · have hconvert : convert host request phase world
        = (.failed request.id .notInitialized [], world) := by
      cases phase with
      | ready => exact absurd rfl hready
      | uninitialized | shuttingDown => rfl
    rw [if_neg hready, if_neg hready, hconvert, List.append_nil]
    exact ⟨⟨[], rfl⟩, rfl⟩

/-- **What a document is answered**, by how its conversion failed, if it did: the answer, and the
PDF behind it. -/
inductive Delivers (id : Int64) : Option EngineError → BufferReply × Option ByteArray → Prop where
  | pdf (octets : ByteArray) (diagnostics : List Diagnostic) :
      Delivers id none (.ok id (UInt64.ofNat octets.size) diagnostics, some octets)
  | failure (e : EngineError) (diagnostics : List Diagnostic) :
      Delivers id (some e) (.failed id e diagnostics, none)

theorem delivers_pdfReply (id : Int64) (pdf : ByteArray) (diagnostics : List Diagnostic) :
    Delivers id (verdict [fits pdf]) (pdfReply id pdf diagnostics) := by
  unfold pdfReply fits
  by_cases hsize : pdf.size ≤ Limits.frame
  · rw [if_neg (Nat.not_lt.mpr hsize), Check.verdict_needs, if_pos (decide_eq_true hsize)]
    exact .pdf pdf diagnostics
  · rw [if_pos (Nat.lt_of_not_le hsize), Check.verdict_needs,
      if_neg (fun h => hsize (of_decide_eq_true h))]
    exact .failure _ diagnostics

/-- A document of the size that its request tells is decided by its own checks. -/
theorem convertDocument_of_size {request : BufferRequest} {octets : ByteArray}
    (hsize : request.dataSize.map UInt64.toNat = some octets.size) (world : World ε κ) :
    Delivers request.id (verdict (ofOctets host octets request.format request.options world.engine
        world.files)) (convertDocument host request (some octets) .ready world).1
      ∧ (convertDocument host request (some octets) .ready world).2.engineCalls = world.engineCalls
        ++ calls (ofOctets host octets request.format request.options world.engine world.files) := by
  obtain ⟨hverdict, hcalls⟩ := captured_decide host (Conversion.convertDocument_decide host
    request.format request.options octets (world.startCapture host).2)
  have hengine : (world.startCapture host).2.engine = world.engine := rfl
  have hfiles : (world.startCapture host).2.files = world.files := rfl
  rw [hengine, hfiles] at hverdict hcalls
  obtain ⟨size, hdata, htold⟩ := Option.map_eq_some_iff.mp hsize
  simp only [convertDocument, hdata, htold, ne_eq, not_true_eq_false, if_false]
  revert hverdict hcalls
  rcases captured host (Conversion.convertDocument host octets request.format request.options)
    world with ⟨e | pdf, diagnostics, next⟩
  all_goals
    intro hverdict hcalls
    rw [hverdict]
  · exact ⟨.failure e diagnostics, hcalls⟩
  · exact ⟨delivers_pdfReply request.id pdf diagnostics, hcalls⟩

/-- **The checks decide** about a request to convert a document. -/
theorem convertDocument_decided (request : BufferRequest) (document : Option ByteArray)
    (phase : Phase) (world : World ε κ) :
    Delivers request.id
        (verdict (ofDocument host request document phase world.engine world.files))
        (convertDocument host request document phase world).1
      ∧ (convertDocument host request document phase world).2.engineCalls = world.engineCalls
        ++ calls (ofDocument host request document phase world.engine world.files) := by
  have hreject : ∀ e : EngineError, Delivers request.id (some e) (.failed request.id e [], none) :=
    fun e => .failure e []
  simp only [ofDocument, Check.verdict_needs, Check.calls_needs, decide_eq_true_eq]
  by_cases hready : phase = .ready
  · rw [if_pos hready, if_pos hready, hready]
    cases hdata : request.dataSize with
    | none =>
        simp only [convertDocument, hdata, Option.isSome_none, Bool.false_eq_true, if_false,
          List.append_nil, ne_eq, not_true_eq_false]
        exact ⟨hreject _, trivial⟩
    | some size =>
        cases document with
        | none =>
            simp only [convertDocument, hdata, Option.isSome_none, Option.isSome_some,
              Bool.false_eq_true, if_false, if_true, List.append_nil, ne_eq, not_true_eq_false]
            exact ⟨hreject _, trivial⟩
        | some octets =>
            simp only [Option.isSome_some, if_true, Option.getD_some, Option.map_some,
              Option.some.injEq]
            by_cases hsize : size.toNat = octets.size
            · rw [if_pos hsize, if_pos hsize]
              exact convertDocument_of_size host (by rw [hdata, Option.map_some, hsize]) world
            · rw [if_neg hsize, if_neg hsize, List.append_nil]
              simp only [convertDocument, hdata, ne_eq, not_true_eq_false, if_false,
                Ne.symm hsize, not_false_eq_true, if_true]
              exact ⟨hreject _, trivial⟩
  · rw [if_neg hready, if_neg hready, List.append_nil]
    simp only [convertDocument, ne_eq, hready, not_false_eq_true, if_true]
    exact ⟨hreject _, trivial⟩

end Worker

/-! ## Messages -/

theorem Json.asUInt64?_eq_some {v : Json} {n : UInt64} :
    v.asUInt64? = some n ↔ v = .int n.toNat := by
  refine ⟨fun h => ?_, fun h => h ▸ asUInt64?_toNat n⟩
  obtain ⟨k, hk, rfl⟩ := Option.map_eq_some_iff.mp h
  have hlt : k < UInt64.size := asNatBelow?_lt hk
  rw [UInt64.toNat_ofNat_of_lt' hlt]
  cases v with
  | int i =>
      rw [asNatBelow?] at hk
      split at hk
      · rename_i hbounds
        cases hk
        rw [Int.toNat_of_nonneg hbounds.1]
      · cases hk
  | null | bool | real | str | arr | obj => cases hk

/-- A request to convert a document tells a size exactly if its member is an unsigned integer. -/
theorem Request.dataSize_of_decode {payload : ByteArray} {request : BufferRequest}
    (h : decode payload = .ok (.request (.convertBuffer request))) :
    ∃ members, Dialogue.Typed payload "convert_buffer" members
      ∧ ∀ n : UInt64, request.dataSize = some n
        ↔ Json.lookup "data_size" members = some (.int n.toNat) := by
  by_cases hholds : ∃ members, Dialogue.Holds payload members
  · obtain ⟨members, hm⟩ := hholds
    rw [decode_of_holds hm] at h
    rcases ofMembers_cases members with ⟨-, hr⟩ | ⟨-, hr⟩ | ⟨ht, hr⟩ | ⟨-, hr⟩ | ⟨-, kind, hr⟩
    all_goals
      rw [hr] at h
      cases h
    refine ⟨members, ⟨hm, ht⟩, fun n => ?_⟩
    rw [bufferOfMembers, Option.bind_eq_some_iff]
    simp only [Json.asUInt64?_eq_some, exists_eq_right]
  · obtain ⟨e, he⟩ := decode_of_not_holds fun members hm => hholds ⟨members, hm⟩
    cases he.symm.trans h

namespace Session

open Check (ofFile ofDocument)

/-- Writing what is due calls no engine. -/
theorem engineCalls_finish (t : Turn ε κ) :
    t.finish.2.world.engineCalls = t.session.world.engineCalls :=
  (t.session.sendAll_same t.frames).calls

/-- **The first check that fails decides.** In every session, whatever arrives: a request to convert a
file is answered by the verdict of its checks, and the calls to the engine are those that the checks
make up to the first that fails. The same is true of a document, or of its absence, where one is
awaited; and the request before it is not answered and calls nothing. -/
theorem turn_checks (host : Host ε δ κ) (s : Session ε κ)
    (arrival : Except Fault Frame.Arrival) :
    (∀ request, s.request? arrival = some (.convert request) →
      (∃ diagnostics, (s.turn host arrival).response = some (.result (Worker.fileReply request.id
          (Check.verdict (ofFile host request s.phase s.world.engine s.world.files)) diagnostics)))
        ∧ (s.take host arrival).2.world.engineCalls = s.world.engineCalls
          ++ Check.calls (ofFile host request s.phase s.world.engine s.world.files))
      ∧ (∀ request, s.request? arrival = some (.convertBuffer request) →
        (s.turn host arrival).frames = []
          ∧ (s.take host arrival).2 = { s with awaited := some request }
          ∧ ∃ payload members, arrival = .ok (.frame payload)
            ∧ Dialogue.Typed payload "convert_buffer" members
            ∧ ∀ n : UInt64, request.dataSize = some n
              ↔ Json.lookup "data_size" members = some (.int n.toNat))
      ∧ ∀ request, s.awaited = some request →
        (∃ reply, (s.turn host arrival).response = some (.bufferResult reply)
          ∧ Worker.Delivers request.id
            (Check.verdict (ofDocument host request (ending arrival).2 s.phase s.world.engine
              s.world.files)) (reply, (s.turn host arrival).pdf))
          ∧ (s.take host arrival).2.world.engineCalls = s.world.engineCalls
            ++ Check.calls (ofDocument host request (ending arrival).2 s.phase s.world.engine
              s.world.files) := by
  rw [take_eq, engineCalls_finish]
  refine ⟨fun request hr => ?_, fun request hr => ?_, fun request hr => ?_⟩
  · obtain ⟨⟨diagnostics, hreply⟩, hcalls⟩ :=
      Worker.convert_decided host request s.phase s.world
    rw [turn_of_request host hr]
    exact ⟨⟨diagnostics, by rw [← hreply]; rfl⟩, hcalls⟩
  · obtain ⟨payload, harrival, hdecode⟩ := request?_eq_some hr
    obtain ⟨members, htyped, hsize⟩ := Request.dataSize_of_decode hdecode
    rw [turn_of_request host hr]
    exact ⟨rfl, rfl, payload, members, harrival, htyped, hsize⟩
  · obtain ⟨hreply, hcalls⟩ :=
      Worker.convertDocument_decided host request (ending arrival).2 s.phase s.world
    rw [turn_of_awaited host hr]
    exact ⟨⟨_, rfl, hreply⟩, hcalls⟩

/-- A request that names no output. -/
def aimless : FileRequest := { id := 3, input := some "/a" }

/-- The announcement of an empty document of an unknown format. -/
def hollow : BufferRequest := { id := 4, dataSize := some 0 }

/-- A request that names no output is refused as such, although there is no input either, and an
empty document of an unknown format as empty. -/
theorem turn_checks_of_two :
    let arrival : Except Fault Frame.Arrival := .ok (.frame (Request.convert aimless).encode)
    let waiting : Session Unit Unit := { Worker.started with awaited := some hollow }
    Worker.started.request? arrival = some (.convert aimless)
      ∧ (∃ diagnostics, (Worker.started.turn Worker.idle arrival).response
        = some (.result (.failed 3 (.invalidArgument "Missing input or output path") diagnostics)))
      ∧ (Worker.started.take Worker.idle arrival).2.world.engineCalls = []
      ∧ (∃ reply, (waiting.turn Worker.idle (.ok (.frame .empty))).response
          = some (.bufferResult reply)
        ∧ Worker.Delivers 4 (some (.invalidArgument "Document data is empty"))
          (reply, (waiting.turn Worker.idle (.ok (.frame .empty))).pdf))
      ∧ (waiting.take Worker.idle (.ok (.frame .empty))).2.world.engineCalls = [] := by
  intro arrival waiting
  have hrequest : Worker.started.request? arrival = some (.convert aimless) := by
    have hdecode := Request.decode_encode (.convert aimless)
    have hnormal : (Request.convert aimless).normal = .convert aimless := by decide
    rw [hnormal] at hdecode
    have hawaited : Worker.started.awaited = none := rfl
    simp only [request?, hawaited, arrival, hdecode]
  obtain ⟨hreply, hcalls⟩ := (turn_checks Worker.idle Worker.started arrival).1 aimless hrequest
  obtain ⟨hdelivers, hnone⟩ := (turn_checks Worker.idle waiting (.ok (.frame .empty))).2.2 hollow rfl
  have hfile : Check.verdict (ofFile Worker.idle aimless Worker.started.phase
      Worker.started.world.engine Worker.started.world.files)
      = some (.invalidArgument "Missing input or output path") := by decide
  have hdocument : Check.verdict (ofDocument Worker.idle hollow (some .empty) waiting.phase
      waiting.world.engine waiting.world.files)
      = some (.invalidArgument "Document data is empty") := by decide
  rw [hfile] at hreply
  have hending : (ending (.ok (.frame .empty))).2 = some .empty := rfl
  rw [hending, hdocument] at hdelivers
  have hfileCalls : Check.calls (ofFile Worker.idle aimless Worker.started.phase
      Worker.started.world.engine Worker.started.world.files) = [] := by
    simp [ofFile, aimless]
  have hdocumentCalls : Check.calls (ofDocument Worker.idle hollow (some .empty) waiting.phase
      waiting.world.engine waiting.world.files) = [] := by
    simp [ofDocument, Check.ofOctets, hollow]
  rw [hfileCalls] at hcalls
  rw [hending, hdocumentCalls] at hnone
  exact ⟨hrequest, hreply, hcalls, hdelivers, hnone⟩

end Session

end PdfWorker
