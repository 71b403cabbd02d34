import PdfWorker.Proofs.Path
import PdfWorker.Proofs.Staging
import PdfWorker.Proofs.Worker.CaptureCalls
import PdfWorker.Proofs.Worker.Likeness
set_option autoImplicit false

/-! # A document and the file that it came from

A document can be converted where it stands (`Conversion.convertFile`) or sent along
(`Conversion.convertDocument`). The two run on different trees, with different paths, and the output
exists beforehand on one of them only. On an engine that goes by what its input holds
(`Engine.ByContent`) they come to the same, as `Conversion.convertDocument_agrees` says.
-/

namespace PdfWorker

variable {ε δ κ : Type}

/-! ## Engines that go by content -/

/-- What a file holds; nothing if there is no file. -/
def FileTree.left (files : FileTree) (path : String) : ByteArray :=
  (files.read path).toOption.getD .empty

theorem FileTree.left_of_read {files : FileTree} {path : String} {content : ByteArray}
    (h : files.read path = .ok content) : files.left path = content := by
  rw [left, h]
  rfl

theorem FileTree.left_of_remove (files : FileTree) (path : String) :
    (files.remove path).left path = .empty := by
  cases h : (files.remove path).read path with
  | error fault =>
      rw [left, h]
      rfl
  | ok content => exact absurd h (files.read_of_remove path content)

/-- What was left can be read. -/
theorem FileTree.read_of_left {files : FileTree} {path : String}
    (h : (files.left path).size ≠ 0) : files.read path = .ok (files.left path) := by
  cases hread : files.read path with
  | error fault =>
      rw [left, hread] at h
      exact absurd rfl h
  | ok content => rw [left_of_read hread]

/-- An engine that has loaded a document and is about to export it. -/
structure Loaded (ε δ : Type) where
  state : ε
  files : FileTree
  document : δ
  output : String

namespace Loaded

/-- The document is exported. -/
def exportPdf (engine : Engine ε δ) (l : Loaded ε δ) (format : Format) (options : Options) :
    Outcome ε Unit :=
  engine.exportPdf l.state l.files l.document l.output format options

/-- What is in the output once the document is exported. -/
def leaves (engine : Engine ε δ) (l : Loaded ε δ) (format : Format) (options : Options) :
    ByteArray :=
  (l.exportPdf engine format options).files.left l.output

end Loaded

/-- What follows if a call gives a document. -/
def Outcome.loaded (outcome : Outcome ε δ) (output : String) (document : δ) : Loaded ε δ :=
  ⟨outcome.state, outcome.files, document, output⟩

/-- **An engine that goes by content.** What comes of loading a file and of exporting it depends on
what the file holds, on its extension, on the password, on the format and on the options: two
conversions that agree in these come to the same, wherever the files stand, whatever else the trees
hold, and whatever the outputs held before. No engine leaves a PDF where no file can stand or where
the system does not take it, so this is asked of `outputs` only, which are for the engine to tell;
but an empty file that is there and can be written can be an output. -/
structure Engine.ByContent (engine : Engine ε δ) where
  /-- The states from which the engine answers alike. -/
  states : ε → ε → Prop
  /-- Where the engine can leave a PDF. -/
  outputs : FileTree → String → Prop
  /-- What was loaded alike. -/
  loaded : Loaded ε δ → Loaded ε δ → Prop
  outputs_of_empty {files : FileTree} {output : String} (h : files.read output = .ok .empty)
    (hw : files.Writable output) : outputs files output
  load {state state' : ε} {files files' : FileTree} {input input' output output' : String}
    {content : ByteArray} (hs : states state state') (h : files.read input = .ok content)
    (h' : files'.read input' = .ok content)
    (hx : Path.extension? input' = Path.extension? input) (ho : outputs files output)
    (ho' : outputs files' output') (password : Option String) :
    let outcome := engine.load state files input password
    let outcome' := engine.load state' files' input' password
    Results (fun d d' => loaded (outcome.loaded output d) (outcome'.loaded output' d'))
      outcome.result outcome'.result
  exportPdf {l l' : Loaded ε δ} (hl : loaded l l') (format : Format) (options : Options) :
    (l'.exportPdf engine format options).result = (l.exportPdf engine format options).result
      ∧ ((l.exportPdf engine format options).result = .ok () →
        l'.leaves engine format options = l.leaves engine format options)

/-! ### The scripted engine -/

/-- A file can be written here, and nothing is left here yet. -/
structure FileTree.Vacant (files : FileTree) (output : String) : Prop where
  write : files.Writable output
  left : files.left output = .empty

/-- Loading is a matter of the script alone. -/
theorem ScriptedEngine.load_eq (s : ScriptedEngine) (files files' : FileTree) :
    s.load files' = { s.load files with files := files' } := by
  unfold ScriptedEngine.load
  simp only
  split <;> rfl

theorem ScriptedEngine.files_load (s : ScriptedEngine) (files : FileTree) :
    (s.load files).files = files := by
  rw [s.load_eq files files]

/-- What a script leaves in an output. -/
def ScriptedConversion.leaves (conversion : ScriptedConversion) : ByteArray :=
  if conversion.exportError.isSome ∨ conversion.removesOutput ∨ conversion.keepsOutput then .empty
  else conversion.pdf

theorem ScriptedEngine.exportPdf_of_vacant (s : ScriptedEngine) {files : FileTree} {output : String}
    (h : files.Vacant output) (conversion : ScriptedConversion) :
    (s.exportPdf files conversion output).result
        = (match conversion.exportError with | some e => .error e | none => .ok ())
      ∧ (s.exportPdf files conversion output).files.left output = conversion.leaves := by
  obtain ⟨written, hwrite⟩ := h.write conversion.pdf
  unfold ScriptedEngine.exportPdf ScriptedConversion.leaves
  cases conversion.exportError with
  | some e => exact ⟨rfl, h.left⟩
  | none =>
      cases conversion.removesOutput with
      | true => exact ⟨rfl, files.left_of_remove output⟩
      | false =>
          cases conversion.keepsOutput with
          | true => exact ⟨rfl, h.left⟩
          | false =>
              simp only [hwrite]
              exact ⟨rfl, FileTree.left_of_read (FileTree.read_of_write hwrite)⟩

/-- **The scripted engine goes by its script** and by nothing else, where nothing stands that it
could leave as it is. -/
def Engine.byContent_scripted : Engine.scripted.ByContent where
  states := Eq
  outputs := FileTree.Vacant
  loaded l l' := l.state = l'.state ∧ l.document = l'.document ∧ l.files.Vacant l.output
    ∧ l'.files.Vacant l'.output
  outputs_of_empty h hw := ⟨hw, FileTree.left_of_read h⟩
  load {s s' files files'} input input' output output' content hs _ _ _ ho ho' _ := by
    subst hs
    show Results (fun d d' => (s.load files).state = (s.load files').state ∧ d = d'
      ∧ (s.load files).files.Vacant output ∧ (s.load files').files.Vacant output')
      (s.load files).result (s.load files').result
    rw [s.files_load, s.files_load, s.load_eq files files']
    cases (s.load files).result with
    | error e => exact .failed e
    | ok conversion => exact .gave ⟨rfl, rfl, ho, ho'⟩
  exportPdf {l l'} hl format options := by
    obtain ⟨state, files, conversion, output⟩ := l
    obtain ⟨state', files', conversion', output'⟩ := l'
    obtain ⟨rfl, rfl, h, h'⟩ := hl
    obtain ⟨hresult, hleft⟩ := state.exportPdf_of_vacant h conversion
    obtain ⟨hresult', hleft'⟩ := state.exportPdf_of_vacant h' conversion
    exact ⟨hresult'.trans hresult.symm, fun _ => hleft'.trans hleft.symm⟩

namespace Staging

/-- What was left is the PDF. -/
theorem readOutput_of_left {files : FileTree} {path : String}
    (h : (files.left path).size ≠ 0) : readOutput files path = .ok (files.left path) := by
  rw [readOutput, FileTree.read_of_left h]
  exact if_neg h

/-- If nothing was left, the export has failed. -/
theorem readOutput_of_left_empty {files : FileTree} {path : String}
    (h : (files.left path).size = 0) :
    ∃ e, readOutput files path = .error e ∧ e.code = .exportFailed := by
  cases hread : files.read path with
  | error fault => exact ⟨_, by rw [readOutput, hread], rfl⟩
  | ok pdf =>
      rw [FileTree.left_of_read hread] at h
      exact ⟨_, by rw [readOutput, hread]; exact if_pos h, rfl⟩

/-- What both staged files hold when the conversion begins, and what the input is called. -/
theorem staged_spec {files staged reserved : FileTree} {dir : Option String}
    {document : ByteArray} {format : Format} {extension path reservedPath : String}
    (hformat : format.extension? = some extension)
    (hstage : stageInput files dir document extension = .ok (path, staged))
    (hreserve : reserveOutput staged dir = .ok (reservedPath, reserved)) :
    reserved.read path = .ok document ∧ Path.extension? path = some extension
      ∧ reserved.read reservedPath = .ok .empty := by
  obtain ⟨created, hcreate, hwrite⟩ := stageInput_eq_ok hstage
  have hcreate' := reserveOutput_eq_ok hreserve
  obtain ⟨⟨number, rfl⟩, -⟩ := create_eq_ok hcreate
  obtain ⟨-, hreserved⟩ := create_eq_ok hcreate'
  exact ⟨read_of_reserved hcreate hwrite hcreate',
    extension?_path_of_format hformat _ number, FileTree.read_of_create hreserved⟩

end Staging

namespace Conversion

open World (Gains)

variable (host : Host ε δ κ) (format : Format) (options : Options) {document : ByteArray}

/-! ## A file -/

/-- What a conversion asks of the engine: to load the document and, if that went well, to export
it. -/
def asks (input output : String) (document : ByteArray) (format : Format) (options : Options)
    (exports : Bool) : List Event :=
  .loaded input options.password (some document) ::
    if exports then [.exported output format options] else []

/-- The engine is asked about a file that can be read. -/
theorem gains_convertFile (world : World ε κ) {input : String}
    (hinput : world.files.read input = .ok document) (output : String) :
    Gains world (convertFile host input output format options world).2
      (asks input output document format options
        (host.engine.load world.engine world.files input options.password).result.isOk) := by
  rw [convertFile, if_pos (FileTree.holds_of_read hinput), World.load]
  have hloaded : Gains world (world.record (.loaded input options.password (some document)))
      [.loaded input options.password (some document)] := .of_event rfl
  simp only [hinput]
  cases hresult : (host.engine.load world.engine world.files input options.password).result with
  | error e => exact hloaded
  | ok loaded => exact hloaded.trans (.of_event rfl)

/-- **Two files that hold the same and have the same extension** are converted alike: with the same
result, and leaving the same. -/
theorem convertFile_agrees (hc : host.engine.ByContent) (world world' : World ε κ)
    {input input' output output' : String} (hstates : hc.states world.engine world'.engine)
    (hinput : world.files.read input = .ok document)
    (hinput' : world'.files.read input' = .ok document)
    (hextension : Path.extension? input' = Path.extension? input)
    (houtput : hc.outputs world.files output) (houtput' : hc.outputs world'.files output') :
    (convertFile host input' output' format options world').1
        = (convertFile host input output format options world).1
      ∧ ((convertFile host input output format options world).1 = .ok () →
        (convertFile host input' output' format options world').2.files.left output'
          = (convertFile host input output format options world).2.files.left output) := by
  have hload := hc.load hstates hinput hinput' hextension houtput houtput' options.password
  rw [convertFile, convertFile, if_pos (FileTree.holds_of_read hinput),
    if_pos (FileTree.holds_of_read hinput'), World.load, World.load]
  revert hload
  rcases host.engine.load world.engine world.files input options.password with
    ⟨result, files, chatter, state⟩
  rcases host.engine.load world'.engine world'.files input' options.password with
    ⟨result', files', chatter', state'⟩
  -- both loads fail with one error, or both give documents that were loaded alike
  rintro (e | hloaded)
  · exact ⟨rfl, fun h => by cases h⟩
  · exact hc.exportPdf hloaded format options

/-! ## A document -/

variable {extension input path output reservedPath : String} {staged reserved : FileTree}

/-- Once both files are staged, the staged input is converted to the reserved output, and what was
left there is read. -/
theorem convertDocument_of_staged {world : World ε κ} (hdocument : document.size ≠ 0)
    (hformat : format.extension? = some extension)
    (hstage : Staging.stageInput world.files host.settings.stagingDirectory document extension
      = .ok (path, staged))
    (hreserve : Staging.reserveOutput staged host.settings.stagingDirectory
      = .ok (reservedPath, reserved)) :
    let converted := convertFile host path reservedPath format options
      { world with files := reserved }
    (convertDocument host document format options world).1
        = converted.1.bind (fun _ => Staging.readOutput converted.2.files reservedPath)
      ∧ (convertDocument host document format options world).2.log = converted.2.log := by
  simp only [convertDocument, if_neg hdocument, hformat, convertAs, hstage, convertToReserved,
    hreserve, convertStaged]
  rcases convertFile host path reservedPath format options { world with files := reserved } with
    ⟨e | u, next⟩
  · exact ⟨rfl, rfl⟩
  · exact ⟨rfl, rfl⟩

/-- How a document that was sent along fares where its file fared so: an error is the same error, a
PDF is what is sent back, and where there is none the export has failed. -/
inductive Fares (files : FileTree) (output : String) :
    Except EngineError Unit → Except EngineError ByteArray → Prop where
  | failed (e : EngineError) : Fares files output (.error e) (.error e)
  | converted {pdf : ByteArray} (hread : files.read output = .ok pdf) (hpdf : pdf.size ≠ 0) :
      Fares files output (.ok ()) (.ok pdf)
  | nothing {e : EngineError} (hread : ∀ pdf, files.read output = .ok pdf → pdf.size = 0)
      (he : e.code.number = 3) : Fares files output (.ok ()) (.error e)

/-- An output that was left alike is read like the file it was left in. -/
theorem fares_of_left {files files' : FileTree} {output' : String}
    (h : files'.left output' = files.left output) :
    Fares files output (.ok ()) (Staging.readOutput files' output') := by
  by_cases hleft : (files.left output).size = 0
  · obtain ⟨e, hread, he⟩ := Staging.readOutput_of_left_empty (h ▸ hleft)
    rw [hread]
    refine .nothing (fun pdf hpdf => ?_) (by rw [he]; rfl)
    rwa [FileTree.left_of_read hpdf] at hleft
  · rw [Staging.readOutput_of_left (h ▸ hleft), h]
    exact .converted (FileTree.read_of_left hleft) hleft

/-- **A document that is sent along fares like its file.** On an engine that goes by content, it
comes to the same whether a document is converted where it stands or sent along, if the staged files
can be made and written: the same error, or the PDF that the output would hold, or a failed export
if it would hold nothing. The staged input holds the document and has the extension of the format,
and the engine is asked the same on both ways, but for the paths. -/
theorem convertDocument_agrees (hc : host.engine.ByContent) {fileWorld world : World ε κ}
    (hdocument : document.size ≠ 0) (hformat : format.extension? = some extension)
    (hstates : hc.states fileWorld.engine world.engine)
    (hinput : fileWorld.files.read input = .ok document)
    (hextension : Path.extension? input = some extension)
    (houtput : hc.outputs fileWorld.files output)
    (hstage : Staging.stageInput world.files host.settings.stagingDirectory document extension
      = .ok (path, staged))
    (hreserve : Staging.reserveOutput staged host.settings.stagingDirectory
      = .ok (reservedPath, reserved)) (hwritable : reserved.Writable reservedPath) :
    let converted := convertFile host input output format options fileWorld
    let sent := convertDocument host document format options world
    Fares converted.2.files output converted.1 sent.1
      ∧ Path.extension? path = some extension
      ∧ ∃ exports, Gains fileWorld converted.2 (asks input output document format options exports)
        ∧ Gains world sent.2 (asks path reservedPath document format options exports) := by
  intro converted sent
  obtain ⟨hpath, hextension', hempty⟩ := Staging.staged_spec hformat hstage hreserve
  obtain ⟨hsent, hlog⟩ :=
    convertDocument_of_staged host format options hdocument hformat hstage hreserve
  have hsame : Path.extension? path = Path.extension? input := hextension'.trans hextension.symm
  -- the reserved output is the one file that is there beforehand on one side only
  have hreserved := hc.outputs_of_empty hempty hwritable
  -- so the staged conversion is a conversion of a file that agrees with the other
  obtain ⟨hresult, hleft⟩ := convertFile_agrees host format options hc fileWorld
    { world with files := reserved } hstates hinput hpath hsame houtput hreserved
  refine ⟨?_, hextension', _,
    gains_convertFile host format options fileWorld hinput output, ?_⟩
  · show Fares converted.2.files output converted.1
      (convertDocument host document format options world).1
    rw [hsent, hresult]
    revert hleft
    show (converted.1 = .ok () → _) → _
    cases converted.1 with
    | error e => exact fun _ => .failed e
    | ok u => exact fun hleft => fares_of_left (hleft rfl)
  · have hload := hc.load hstates hinput hpath hsame houtput hreserved options.password
    rw [← hload.isOk_eq]
    have hasks := gains_convertFile host format options { world with files := reserved } hpath
      reservedPath
    exact (congrArg Array.toList hlog).trans hasks

/-! ### A letter -/

/-- A desk with a letter on it. -/
def desk : World ScriptedEngine ScriptedCapture :=
  ⟨{ entries := [(["letter.docx"], .file "Dear".toUTF8)], here := [] }, {}, {}, {}, #[]⟩

/-- An office with a directory for temporary files, and nothing else. -/
def office : World ScriptedEngine ScriptedCapture :=
  ⟨{ entries := [(["tmp"], .directory)], here := [] }, {}, {}, {}, #[]⟩

theorem read_letter : desk.files.read "/letter.docx" = .ok "Dear".toUTF8 := by
  have hplace : desk.files.place "/letter.docx" = .ok ["letter.docx"] := by
    rw [FileTree.place_eq_follow (by decide) (by decide) (by decide)]
    decide +kernel
  exact FileTree.read_of_file hplace (by decide +kernel) rfl

/-- There is room on the desk for a PDF. -/
theorem vacant_desk : desk.files.Vacant "/letter.pdf" := by
  have hplace : desk.files.place "/letter.pdf" = .ok ["letter.pdf"] := by
    rw [FileTree.place_eq_follow (by decide) (by decide) (by decide)]
    decide +kernel
  have hfile := FileTree.filePlace_of_free hplace (by decide +kernel) rfl rfl
  refine ⟨FileTree.writable_of_filePlace hfile fun _ => rfl, ?_⟩
  rw [FileTree.left, FileTree.read, FileTree.get, hplace]
  rfl

/-- The office with the letter in the directory for temporary files. -/
def officeWith (letter : ByteArray) : FileTree :=
  { entries := [(["tmp"], .directory), (["tmp", "slimlo_000001.docx"], .file letter)], here := [] }

/-- Where the staged files stand, before and after the letter is put there. -/
theorem place_staged :
    office.files.place "/tmp/slimlo_000001.docx" = .ok ["tmp", "slimlo_000001.docx"]
      ∧ (officeWith .empty).place "/tmp/slimlo_000001.docx" = .ok ["tmp", "slimlo_000001.docx"]
      ∧ (officeWith "Dear".toUTF8).place "/tmp/slimlo_000002.pdf"
        = .ok ["tmp", "slimlo_000002.pdf"] := by
  refine ⟨?_, ?_, ?_⟩ <;>
  · rw [FileTree.place_eq_follow (by decide) (by decide) (by decide)]
    decide +kernel

theorem stage_letter : Staging.stageInput office.files none "Dear".toUTF8 "docx"
    = .ok ("/tmp/slimlo_000001.docx", officeWith "Dear".toUTF8) := by
  obtain ⟨hnew, hthere, -⟩ := place_staged
  have hends : FileTree.endsAsDirectory "/tmp/slimlo_000001.docx" = false := by decide +kernel
  have hcreate : Staging.create office.files none "docx"
      = .ok ("/tmp/slimlo_000001.docx", officeWith .empty) :=
    Staging.create_of_filePlace rfl (by decide +kernel)
      (FileTree.filePlace_of_free hnew hends rfl rfl) rfl
  have hwrite : (officeWith .empty).write "/tmp/slimlo_000001.docx" "Dear".toUTF8
      = .ok (officeWith "Dear".toUTF8) := by
    rw [FileTree.write, FileTree.filePlace_of_file hthere hends rfl]
    rfl
  rw [Staging.stageInput, hcreate]
  simp only [hwrite]

theorem reserve_letter : ∃ reserved,
    Staging.reserveOutput (officeWith "Dear".toUTF8) none
      = .ok ("/tmp/slimlo_000002.pdf", reserved)
    ∧ reserved.Writable "/tmp/slimlo_000002.pdf" := by
  obtain ⟨-, -, hplace⟩ := place_staged
  have hfile := FileTree.filePlace_of_free hplace (by decide +kernel) rfl rfl
  have hcreate : Staging.create (officeWith "Dear".toUTF8) none "pdf"
      = .ok ("/tmp/slimlo_000002.pdf", _) :=
    Staging.create_of_filePlace rfl (by decide +kernel) hfile rfl
  exact ⟨_, by rw [Staging.reserveOutput, hcreate],
    FileTree.writable_of_create (Staging.create_eq_ok hcreate).2 fun _ _ => rfl⟩

/-- A letter that is sent to the office gives the PDF that it gives on the desk. -/
theorem convertDocument_agrees_of_letter :
    (convertFile .scripted "/letter.docx" "/letter.pdf" .docx {} desk).1 = .ok ()
      ∧ (convertDocument .scripted "Dear".toUTF8 .docx {} office).1
        = .ok "%PDF-1.7 mock".toUTF8 := by
  obtain ⟨reserved, hreserve, hwritable⟩ := reserve_letter
  have hstates : Engine.byContent_scripted.states desk.engine office.engine := rfl
  obtain ⟨hfares, -, -⟩ := convertDocument_agrees .scripted .docx {} Engine.byContent_scripted
    (by decide) rfl hstates read_letter (by decide +kernel) vacant_desk stage_letter hreserve
    hwritable
  -- the script leaves the PDF on the desk, which tells what is sent back
  have hexport : convertFile .scripted "/letter.docx" "/letter.pdf" .docx {} desk
      = World.exportPdf .scripted {} "/letter.pdf" .docx {}
        (desk.load .scripted "/letter.docx" none).2 := by
    rw [convertFile, if_pos (FileTree.holds_of_read read_letter)]
    rfl
  obtain ⟨hresult, hleft⟩ := ScriptedEngine.exportPdf_of_vacant {} vacant_desk {}
  have hconverted :
      (convertFile .scripted "/letter.docx" "/letter.pdf" .docx {} desk).1 = .ok () := by
    rw [hexport]
    exact hresult
  have hpdf : (convertFile .scripted "/letter.docx" "/letter.pdf" .docx {} desk).2.files.left
      "/letter.pdf" = "%PDF-1.7 mock".toUTF8 := by
    rw [hexport]
    exact hleft
  have hread := FileTree.read_of_left (by rw [hpdf]; decide)
  rw [hpdf] at hread
  refine ⟨hconverted, ?_⟩
  rw [hconverted] at hfares
  generalize (convertDocument .scripted "Dear".toUTF8 .docx {} office).1 = sent at hfares
  cases hfares with
  | converted hsent hsize => rw [Except.ok.inj (hsent.symm.trans hread)]
  | nothing hsent he => exact absurd (hsent _ hread) (by decide)

end Conversion

end PdfWorker
