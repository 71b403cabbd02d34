import PdfWorker.Conversion
import PdfWorker.Engine.Scripted
import PdfWorker.Proofs.FileTree.Changes
set_option autoImplicit false

/-! # What staging leaves

A document that is not staged leaves nothing behind (`Staging.same_of_stageInput_error`). An engine is
`Tidy` if it changes no file but the output that it is told. The conversion of a document is a list of
calls (`Conversion.documentCalls`). On a tidy engine at most two staged files are there behind each of
them, and none behind the last, however the conversion goes (`Conversion.along_documentCalls`).
-/

namespace PdfWorker

open FileTree (Same AlikeBut ChangedAt)

variable {ε δ κ : Type}

/-- **An engine that changes no file but the output that it is told.** What it does there is its own
affair, as long as it makes no directory of it. -/
structure Engine.Tidy (engine : Engine ε δ) : Prop where
  load (state : ε) (files : FileTree) (path : String) (password : Option String) :
    Same files (engine.load state files path password).files
  exportPdf (state : ε) (files : FileTree) (document : δ) (output : String) (format : Format)
    (options : Options) :
    ChangedAt output files (engine.exportPdf state files document output format options).files

/-- The scripted engine removes its output, or writes it, or leaves it as it is. -/
theorem Engine.tidy_scripted : Engine.scripted.Tidy where
  load s files path password := by
    show Same files (s.load files).files
    unfold ScriptedEngine.load
    simp only
    split <;> exact .refl files
  exportPdf s files conversion output format options := by
    show ChangedAt output files (s.exportPdf files conversion output).files
    unfold ScriptedEngine.exportPdf
    simp only
    split
    · exact .refl output files
    · split
      · exact files.remove_changedAt output
      · split
        · exact .refl output files
        · have hchanged := files.write_changedAt output conversion.pdf
          split
          · rename_i written hwrite
            rw [hwrite] at hchanged
            exact hchanged
          · rename_i spoilt hwrite
            rw [hwrite] at hchanged
            exact hchanged

namespace Staging

variable {files created : FileTree} {dir : Option String} {extension path : String}

/-- The first path is taken if nothing stands there. -/
theorem create_of_filePlace {place : Place} {number : Nat} (hnumber : files.entries.length = number)
    (hpath : Staging.path (files.absolute (dir.getD systemDirectory)) extension number = path)
    (hfile : files.filePlace path = .ok place) (hfree : files.entry? place = none) :
    create files dir extension
      = .ok (path, files.withFile place .empty) := by
  rw [create, createFrom, hnumber, hpath, FileTree.create, hfile]
  simp only [hfree, Option.isSome_none, Bool.false_eq_true, if_false]

/-- **A document that is not staged** leaves nothing behind, also if a part of it was written. -/
theorem same_of_stageInput_error {document : ByteArray} {failure : Failure}
    (h : stageInput files dir document extension = .error failure) : Same files failure.files := by
  rcases stageInput_eq_error h with ⟨fault, -, rfl⟩ | ⟨path, created, spoilt, hcreate, hwrite, rfl⟩
  · exact .refl files
  · obtain ⟨-, hpath⟩ := create_eq_ok hcreate
    obtain ⟨place, hplace, hends, halike, -⟩ := FileTree.create_eq_ok hpath
    have hspoilt := halike.write hplace document
    rw [hwrite] at hspoilt
    exact hspoilt.remove hplace hends

/-- Where the system takes no file of that many octets whole, a document is not staged. -/
theorem stageInput_of_shortage {document : ByteArray}
    (hcreate : create files dir extension = .ok (path, created))
    (hshort : ∀ place, files.shortage place document.size ≠ none) :
    ∃ failure, stageInput files dir document extension = .error failure
      ∧ Same files failure.files := by
  rcases hstage : stageInput files dir document extension with failure | ⟨input, staged⟩
  · exact ⟨failure, rfl, same_of_stageInput_error hstage⟩
  · obtain ⟨created', hcreate', hwrite⟩ := stageInput_eq_ok hstage
    cases hcreate.symm.trans hcreate'
    obtain ⟨-, hpath⟩ := create_eq_ok hcreate
    rcases created.write_cases path document with ⟨fault, -, hw⟩ | ⟨place, -,
      ⟨hroom, -⟩ | ⟨shortage, -, hw⟩⟩
    · cases hwrite.symm.trans hw
    · rw [FileTree.shortage_of_create hpath] at hroom
      exact absurd hroom (hshort place)
    · cases hwrite.symm.trans hw

/-- **The document stands in its staged file**, also once the output is reserved. -/
theorem read_of_reserved {document : ByteArray} {input output : String}
    {staged reserved : FileTree} (hcreate : create files dir extension = .ok (input, created))
    (hwrite : created.write input document = .ok staged)
    (hreserve : create staged dir "pdf" = .ok (output, reserved)) :
    reserved.read input = .ok document := by
  obtain ⟨-, hinput⟩ := create_eq_ok hcreate
  obtain ⟨place, hplace, hends, halike, -⟩ := FileTree.create_eq_ok hinput
  obtain ⟨hstaged, hentry⟩ := halike.of_write hplace hwrite
  obtain ⟨-, houtput⟩ := create_eq_ok hreserve
  obtain ⟨place', -, -, hreserved, -⟩ := FileTree.create_eq_ok houtput
  -- nothing stood where the output is, so it is another place
  have hne : place ∉ [place'] := by
    intro hmem
    rw [List.mem_singleton.mp hmem, hreserved.fresh place' (List.mem_singleton.mpr rfl)] at hentry
    cases hentry
  refine FileTree.read_of_file ?_ hends ((hreserved.entry?_eq hne).trans hentry)
  exact (hreserved.place_iff input place).mpr ((hstaged.place_iff input place).mpr hplace)

end Staging

namespace Conversion

/-! ## Calls -/

/-- One call of a conversion, to the engine or to the file tree. -/
inductive Call (δ : Type) where
  /-- Makes an empty file. -/
  | create (path : String)
  | write (path : String) (content : ByteArray)
  | load (path : String) (password : Option String)
  | exportPdf (document : δ) (output : String) (format : Format) (options : Options)
  | remove (path : String)

/-- Makes the call. One that fails changes nothing, but for what a write leaves. -/
def Call.perform (host : Host ε δ κ) (call : Call δ) (world : World ε κ) : World ε κ :=
  match call with
  | create path => { world with files := (world.files.create path).toOption.getD world.files }
  | write path content => { world with files := FileTree.behind (world.files.write path content) }
  | load path password => (world.load host path password).2
  | exportPdf document output format options =>
    (world.exportPdf host document output format options).2
  | remove path => discard path world

/-- Makes calls, one after the other. -/
def performAll (host : Host ε δ κ) : List (Call δ) → World ε κ → World ε κ
  | [], world => world
  | call :: calls, world => performAll host calls (call.perform host world)

theorem performAll_append (host : Host ε δ κ) (front back : List (Call δ)) (world : World ε κ) :
    performAll host (front ++ back) world
      = performAll host back (performAll host front world) := by
  induction front generalizing world with
  | nil => rfl
  | cons call rest ih => exact ih _

/-- The calls of the conversion of a file. -/
def fileCalls (host : Host ε δ κ) (input output : String) (format : Format) (options : Options)
    (world : World ε κ) : List (Call δ) :=
  if world.files.holds input then
    .load input options.password ::
      match (world.load host input options.password).1 with
      | .error _ => []
      | .ok document => [.exportPdf document output format options]
  else []

/-- The calls of the conversion of a staged input. -/
def reservedCalls (host : Host ε δ κ) (input : String) (format : Format) (options : Options)
    (world : World ε κ) : List (Call δ) :=
  match Staging.create world.files host.settings.stagingDirectory "pdf" with
  | .error _ => []
  | .ok (output, files) =>
    .create output ::
      (fileCalls host input output format options { world with files } ++ [.remove output])

/-- The calls of the conversion of a document that is put into a new input. If it cannot be written,
there are no more of them. -/
def inputCalls (host : Host ε δ κ) (input : String) (document : ByteArray) (format : Format)
    (options : Options) (world : World ε κ) : List (Call δ) :=
  .write input document ::
    match world.files.write input document with
    | .error _ => []
    | .ok staged => reservedCalls host input format options { world with files := staged }

/-- The calls of the conversion of a document. -/
def documentCalls (host : Host ε δ κ) (document : ByteArray) (format : Format) (options : Options)
    (world : World ε κ) : List (Call δ) :=
  if document.size = 0 then []
  else match format.extension? with
    | none => []
    | some extension =>
      match Staging.create world.files host.settings.stagingDirectory extension with
      | .error _ => []
      | .ok (input, files) =>
        .create input ::
          (inputCalls host input document format options { world with files } ++ [.remove input])

theorem perform_create (host : Host ε δ κ) {path : String} {world : World ε κ} {files : FileTree}
    (h : world.files.create path = .ok files) :
    Call.perform host (.create path) world = { world with files } := by
  rw [Call.perform, h]
  rfl

theorem performAll_fileCalls (host : Host ε δ κ) (input output : String) (format : Format)
    (options : Options) (world : World ε κ) :
    performAll host (fileCalls host input output format options world) world
      = (convertFile host input output format options world).2 := by
  unfold fileCalls convertFile
  split
  · rw [performAll, Call.perform]
    rcases world.load host input options.password with ⟨e | document, next⟩ <;> rfl
  · rfl

theorem performAll_reservedCalls (host : Host ε δ κ) (input : String) (format : Format)
    (options : Options) (world : World ε κ) :
    performAll host (reservedCalls host input format options world) world
      = (convertToReserved host input format options world).2 := by
  unfold reservedCalls convertToReserved Staging.reserveOutput
  rcases hcreate : Staging.create world.files host.settings.stagingDirectory "pdf" with
    fault | ⟨output, files⟩
  · rfl
  · obtain ⟨-, hfiles⟩ := Staging.create_eq_ok hcreate
    have hstaged : (convertStaged host input output format options { world with files }).2
        = (convertFile host input output format options { world with files }).2 := by
      unfold convertStaged
      rcases convertFile host input output format options { world with files } with ⟨e | u, next⟩
        <;> rfl
    simp only
    rw [performAll, perform_create host hfiles, performAll_append, performAll_fileCalls, hstaged]
    rfl

theorem performAll_inputCalls (host : Host ε δ κ) (input : String) (document : ByteArray)
    (format : Format) (options : Options) (world : World ε κ) :
    performAll host (inputCalls host input document format options world) world
      = match world.files.write input document with
        | .error spoilt => { world with files := spoilt.files }
        | .ok staged =>
          (convertToReserved host input format options { world with files := staged }).2 := by
  rw [inputCalls, performAll, Call.perform]
  rcases hwrite : world.files.write input document with spoilt | staged
  · rfl
  · exact performAll_reservedCalls host input format options { world with files := staged }

/-- **The conversion of a document** is these calls. -/
theorem performAll_documentCalls (host : Host ε δ κ) (document : ByteArray) (format : Format)
    (options : Options) (world : World ε κ) :
    performAll host (documentCalls host document format options world) world
      = (convertDocument host document format options world).2 := by
  unfold documentCalls convertDocument
  split
  · rfl
  · cases format.extension? with
    | none => rfl
    | some extension =>
        simp only [convertAs]
        rcases hcreate : Staging.create world.files host.settings.stagingDirectory extension with
          fault | ⟨input, files⟩
        · simp only [Staging.stageInput, hcreate]
          rfl
        · obtain ⟨-, hfiles⟩ := Staging.create_eq_ok hcreate
          simp only [Staging.stageInput, hcreate]
          rw [performAll, perform_create host hfiles, performAll_append, performAll_inputCalls]
          -- either way it is the input that is removed
          rcases hwrite : files.write input document with spoilt | staged
          · rfl
          · rfl

/-! ## What is there behind each call -/

/-- It holds of the files at first and behind each of the calls. -/
def Along (host : Host ε δ κ) (holds : FileTree → Prop) : List (Call δ) → World ε κ → Prop
  | [], world => holds world.files
  | call :: calls, world => holds world.files ∧ Along host holds calls (call.perform host world)

section Along

variable {host : Host ε δ κ} {holds more : FileTree → Prop} {world : World ε κ}

theorem Along.mono (hmore : ∀ files, holds files → more files) {calls : List (Call δ)}
    (h : Along host holds calls world) : Along host more calls world := by
  induction calls generalizing world with
  | nil => exact hmore _ h
  | cons call rest ih => exact ⟨hmore _ h.1, ih h.2⟩

theorem Along.append {front back : List (Call δ)} (hf : Along host holds front world)
    (hb : Along host holds back (performAll host front world)) :
    Along host holds (front ++ back) world := by
  induction front generalizing world with
  | nil => exact hb
  | cons call rest ih => exact ⟨hf.1, ih hf.2 hb⟩

theorem Along.take {calls : List (Call δ)} (h : Along host holds calls world) (n : Nat) :
    holds (performAll host (calls.take n) world).files := by
  induction calls generalizing world n with
  | nil =>
      rw [List.take_nil]
      exact h
  | cons call rest ih =>
      cases n with
      | zero => exact h.1
      | succ n => exact ih h.2 n

theorem Along.last {calls : List (Call δ)} (h : Along host holds calls world) :
    holds (performAll host calls world).files := by
  have hall := h.take calls.length
  rwa [List.take_length] at hall

end Along

/-- **The staged files at one moment**, beside the files that were there before: none, the input, or
the input and the output, which are different new files. -/
inductive Staged (before : FileTree) (dir : String) (format : Format) (files : FileTree) : Prop where
  | nothing : Same before files → Staged before dir format files
  | input {extension number place} : format.extension? = some extension →
      before.place (Staging.path dir extension number) = .ok place →
      AlikeBut [place] before files → Staged before dir format files
  | both {extension number number' place place'} : format.extension? = some extension →
      before.place (Staging.path dir extension number) = .ok place →
      before.place (Staging.path dir "pdf" number') = .ok place' → place ≠ place' →
      AlikeBut [place, place'] before files → Staged before dir format files

/-- The directory of staged files. -/
def directory (host : Host ε δ κ) (files : FileTree) : String :=
  files.absolute (host.settings.stagingDirectory.getD Staging.systemDirectory)

/-- The output at one moment of the conversion of a staged input. -/
inductive Reserved (before : FileTree) (dir : String) (files : FileTree) : Prop where
  | nothing : Same before files → Reserved before dir files
  | output {number place} : before.place (Staging.path dir "pdf" number) = .ok place →
      AlikeBut [place] before files → Reserved before dir files

/-- An output that is new beside a staged input is another file than the input. -/
theorem Reserved.staged {before input files : FileTree} {dir extension : String} {number : Nat}
    {place : Place} {content : ByteArray} {format : Format}
    (hextension : format.extension? = some extension)
    (hplace : before.place (Staging.path dir extension number) = .ok place)
    (hinput : AlikeBut [place] before input)
    (hentry : input.entry? place = some (.file content)) (h : Reserved input dir files) :
    Staged before dir format files := by
  cases h with
  | nothing hsame => exact .input hextension hplace (hinput.trans_same hsame)
  | @output number' place' hplace' hnew =>
      have hne : place' ≠ place := by
        rintro rfl
        rw [hnew.fresh _ (List.mem_singleton.mpr rfl)] at hentry
        cases hentry
      have hboth := hinput.trans hnew (by simpa using hne)
      exact .both hextension hplace ((hinput.place_iff _ _).mp hplace') hne.symm hboth

/-- The directory is found from the current directory. -/
theorem directory_congr {host : Host ε δ κ} {files next : FileTree} (h : next.here = files.here) :
    directory host next = directory host files := by
  simp only [directory, FileTree.absolute, FileTree.herePath, h]

variable {host : Host ε δ κ}

/-- The conversion of a file changes nothing but its output. -/
theorem along_fileCalls (ht : host.engine.Tidy) (input output : String) (format : Format)
    (options : Options) (world : World ε κ) :
    Along host (ChangedAt output world.files)
      (fileCalls host input output format options world) world := by
  unfold fileCalls
  split
  · have hload : Same world.files (world.load host input options.password).2.files :=
      ht.load world.engine world.files input options.password
    refine ⟨.refl output _, ?_⟩
    rw [Call.perform]
    revert hload
    rcases world.load host input options.password with ⟨e | document, next⟩
    · intro hload
      exact hload.changedAt output
    · intro hload
      refine ⟨hload.changedAt output, hload.trans_changedAt ?_⟩
      exact ht.exportPdf next.engine next.files document output format options
  · exact .refl output _

/-- **A file that is made before other calls and removed behind them** leaves no trace, if at the end
of these calls nothing but it is new. -/
theorem along_staging {path : String} {place : Place} {world : World ε κ} {files : FileTree}
    {holds : FileTree → Prop} {calls : List (Call δ)}
    (hcreate : world.files.create path = .ok files)
    (hplace : world.files.place path = .ok place)
    (hsame : ∀ last, Same world.files last → holds last)
    (hcalls : Along host holds calls { world with files })
    (hnew : AlikeBut [place] world.files (performAll host calls { world with files }).files) :
    Along host holds (.create path :: (calls ++ [.remove path])) world
      ∧ Same world.files
        (performAll host (.create path :: (calls ++ [.remove path])) world).files := by
  obtain ⟨-, -, hends, -, -⟩ := FileTree.create_eq_ok hcreate
  have hremoved := hnew.remove hplace hends
  constructor
  · refine ⟨hsame _ (.refl _), ?_⟩
    rw [perform_create host hcreate]
    exact hcalls.append ⟨hcalls.last, hsame _ hremoved⟩
  · rw [performAll, perform_create host hcreate, performAll_append]
    exact hremoved

/-- The conversion of a staged input adds an output, and removes it again. -/
theorem along_reservedCalls (ht : host.engine.Tidy) (input : String) (format : Format)
    (options : Options) (world : World ε κ) :
    Along host (Reserved world.files (directory host world.files))
        (reservedCalls host input format options world) world
      ∧ Same world.files
        (performAll host (reservedCalls host input format options world) world).files := by
  unfold reservedCalls
  rcases hcreate : Staging.create world.files host.settings.stagingDirectory "pdf" with
    fault | ⟨output, files⟩
  · exact ⟨.nothing (.refl _), .refl _⟩
  · obtain ⟨⟨number, hpath⟩, hfiles⟩ := Staging.create_eq_ok hcreate
    obtain ⟨place, hplace, -, halike, -⟩ := FileTree.create_eq_ok hfiles
    have hcalls := along_fileCalls ht input output format options { world with files }
    -- whatever the engine does to the output, nothing else is new
    have hnew : ∀ changed, ChangedAt output files changed → AlikeBut [place] world.files changed :=
      fun changed hc => halike.changedAt hplace hc
    refine along_staging hfiles hplace (fun last => .nothing) (hcalls.mono ?_)
      (hnew _ hcalls.last)
    intro changed hc
    exact .output (hpath ▸ hplace) (hnew changed hc)

/-- The conversion of a document that is put into a new input leaves nothing new but the input,
whether or not all of the document is written. -/
theorem along_inputCalls (ht : host.engine.Tidy) (document : ByteArray) {format : Format}
    {extension : String} (hextension : format.extension? = some extension) (options : Options)
    {world : World ε κ} {files : FileTree} {number : Nat} {place : Place}
    (hplace : world.files.place (Staging.path (directory host world.files) extension number)
      = .ok place) (halike : AlikeBut [place] world.files files) :
    let input := Staging.path (directory host world.files) extension number
    let calls := inputCalls host input document format options { world with files }
    Along host (Staged world.files (directory host world.files) format) calls { world with files }
      ∧ AlikeBut [place] world.files (performAll host calls { world with files }).files := by
  intro input calls
  have hinput : ∀ next, AlikeBut [place] world.files next →
      Staged world.files (directory host world.files) format next :=
    fun next => .input hextension hplace
  have hbehind := halike.write hplace document
  have hperform : Call.perform host (.write input document) { world with files }
      = { world with files := FileTree.behind (files.write input document) } := rfl
  simp only [calls, inputCalls, performAll, Along, hperform]
  rcases hwrite : files.write input document with spoilt | staged
  · rw [hwrite] at hbehind
    exact ⟨⟨hinput files halike, hinput spoilt.files hbehind⟩, hbehind⟩
  · obtain ⟨hstaged, hentry⟩ := halike.of_write hplace hwrite
    obtain ⟨hcalls, hsame⟩ :=
      along_reservedCalls ht input format options { world with files := staged }
    rw [directory_congr hstaged.here] at hcalls
    refine ⟨⟨hinput files halike, hcalls.mono fun changed hc => ?_⟩, hstaged.trans_same hsame⟩
    exact hc.staged hextension hplace hstaged hentry

/-- **Behind each call at most two staged files are there**, and none behind the last. -/
theorem along_documentCalls (ht : host.engine.Tidy) (document : ByteArray) (format : Format)
    (options : Options) (world : World ε κ) :
    Along host (Staged world.files (directory host world.files) format)
        (documentCalls host document format options world) world
      ∧ Same world.files
        (performAll host (documentCalls host document format options world) world).files := by
  unfold documentCalls
  split
  · exact ⟨.nothing (.refl _), .refl _⟩
  · split
    · exact ⟨.nothing (.refl _), .refl _⟩
    · rename_i extension hextension
      rcases hcreate : Staging.create world.files host.settings.stagingDirectory extension with
        fault | ⟨input, files⟩
      · exact ⟨.nothing (.refl _), .refl _⟩
      · obtain ⟨⟨number, rfl⟩, hfiles⟩ := Staging.create_eq_ok hcreate
        obtain ⟨place, hplace, -, halike, -⟩ := FileTree.create_eq_ok hfiles
        obtain ⟨hcalls, hnew⟩ := along_inputCalls ht document hextension options hplace halike
        exact along_staging hfiles hplace (fun last => .nothing) hcalls hnew

end Conversion

end PdfWorker
