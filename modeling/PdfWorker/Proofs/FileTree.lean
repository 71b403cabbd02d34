import PdfWorker.Proofs.Text.Octets
import PdfWorker.Staging
set_option autoImplicit false

/-! # Faults of a file tree

A call on a file tree that fails reports one of a few faults, and none of them repeats a path
(`FileTree.create_brief`, `FileTree.write_brief`, `FileTree.read_brief`). A path that leads anywhere
is itself short (`FileTree.short_of_create`). So nothing that staging reports is long, whatever the
names of the directories are. `FileTree.Sized` says that a machine can tell the size of every file,
and every call keeps it so, also a write that breaks off.
-/

namespace PdfWorker

namespace Fault

/-- The message takes at most 64 octets. -/
def Brief (fault : Fault) : Prop := fault.message.utf8ByteSize ≤ 64

instance (fault : Fault) : Decidable fault.Brief :=
  inferInstanceAs (Decidable (fault.message.utf8ByteSize ≤ 64))

theorem brief_notFound : notFound.Brief := by decide

theorem brief_alreadyExists : alreadyExists.Brief := by decide

theorem brief_notADirectory : notADirectory.Brief := by decide

theorem brief_isADirectory : isADirectory.Brief := by decide

theorem brief_refusal (refusal : Refusal) : refusal.fault.Brief := by
  cases refusal <;> decide

theorem brief_nameTooLong : nameTooLong.Brief := by decide

theorem brief_nulInName : nulInName.Brief := by decide

end Fault

namespace FileTree

variable {tree : FileTree} {path : String} {fault : Fault}

theorem enter_brief {place : Place} (h : tree.enter place = .error fault) : fault.Brief := by
  unfold enter at h
  split at h
  · cases h
  · cases h
    exact Fault.brief_notADirectory
  · cases h
    exact Fault.brief_notFound

theorem follow_brief {place : Place} {names : List String}
    (h : tree.follow place names = .error fault) : fault.Brief := by
  induction names generalizing place with
  | nil => cases h
  | cons name rest ih =>
      rw [follow] at h
      split at h
      · rename_i f hf
        cases h
        exact enter_brief hf
      · split at h
        · exact ih h
        · split at h
          · cases h
            exact Fault.brief_nameTooLong
          · exact ih h

theorem place_brief (h : tree.place path = .error fault) : fault.Brief := by
  unfold place at h
  split at h
  · cases h
    exact Fault.brief_nulInName
  · split at h
    · cases h
      exact Fault.brief_notFound
    · split at h
      · cases h
        exact Fault.brief_nameTooLong
      · exact follow_brief h

/-- A path that leads to a place is short. -/
theorem short_of_place {place : Place} (h : tree.place path = .ok place) :
    path.utf8ByteSize < pathBound := by
  unfold FileTree.place at h
  split at h
  · cases h
  · split at h
    · cases h
    · split at h
      · cases h
      · rename_i hlt
        exact Nat.lt_of_not_le hlt

theorem get_brief (h : tree.get path = .error fault) : fault.Brief := by
  unfold get at h
  split at h
  · rename_i f hf
    cases h
    exact place_brief hf
  · split at h
    · cases h
      exact Fault.brief_notFound
    · cases h
    · split at h
      · cases h
        exact Fault.brief_notADirectory
      · cases h

/-- Nothing is held at a path that is too long. -/
theorem not_holds_of_long (h : pathBound ≤ path.utf8ByteSize) : tree.holds path = false := by
  unfold holds
  cases hget : tree.get path with
  | error fault => rfl
  | ok entry =>
      -- what is found stands at a place
      unfold get at hget
      split at hget
      · cases hget
      · rename_i place hplace
        have hshort := short_of_place hplace
        omega

theorem read_brief (h : tree.read path = .error fault) : fault.Brief := by
  unfold read at h
  split at h
  · cases h
  · cases h
    exact Fault.brief_isADirectory
  · rename_i f hf
    cases h
    exact get_brief hf

theorem allows_brief {place : Place} (h : tree.allows place = .error fault) : fault.Brief := by
  unfold allows at h
  split at h
  · rename_i f hf
    cases h
    exact enter_brief hf
  · split at h
    · cases h
      exact Fault.brief_refusal _
    · cases h

theorem filePlace_brief (h : tree.filePlace path = .error fault) : fault.Brief := by
  unfold filePlace at h
  split at h
  · rename_i f hf
    cases h
    exact place_brief hf
  · split at h
    · cases h
      exact Fault.brief_isADirectory
    · split at h
      · cases h
        exact Fault.brief_isADirectory
      · cases h
      · cases hallows : tree.allows _ with
        | error f =>
            rw [hallows] at h
            cases h
            exact allows_brief hallows
        | ok u =>
            rw [hallows] at h
            cases h

theorem short_of_filePlace {place : Place} (h : tree.filePlace path = .ok place) :
    path.utf8ByteSize < pathBound := by
  unfold filePlace at h
  split at h
  · cases h
  · rename_i hplace
    exact short_of_place hplace

/-! ## Calls -/

/-- The files behind a write, whether it worked or not. -/
def behind : Except Spoilt FileTree → FileTree
  | .ok files => files
  | .error spoilt => spoilt.files

/-- **How writing a file goes**: no file can stand there and nothing happens, or all of the content
is taken, or a part of it is and the write fails. -/
theorem write_cases (tree : FileTree) (path : String) (content : ByteArray) :
    (∃ fault, tree.filePlace path = .error fault
      ∧ tree.write path content = .error ⟨fault, tree⟩) ∨
    ∃ place, tree.filePlace path = .ok place ∧
      ((tree.shortage place content.size = none
          ∧ tree.write path content = .ok (tree.withFile place content)) ∨
        ∃ shortage, tree.shortage place content.size = some shortage
          ∧ tree.write path content = .error
            ⟨shortage.refusal.fault, tree.withFile place (content.extract 0 shortage.taken)⟩) := by
  unfold write
  rcases tree.filePlace path with fault | place
  · exact .inl ⟨fault, rfl, rfl⟩
  · refine .inr ⟨place, rfl, ?_⟩
    simp only
    rcases tree.shortage place content.size with _ | shortage
    · exact .inl ⟨rfl, rfl⟩
    · exact .inr ⟨shortage, rfl, rfl⟩

theorem write_brief {content : ByteArray} {spoilt : Spoilt}
    (h : tree.write path content = .error spoilt) : spoilt.fault.Brief := by
  rcases tree.write_cases path content with ⟨fault, hplace, hw⟩ | ⟨place, -,
    ⟨-, hw⟩ | ⟨shortage, -, hw⟩⟩
  · cases h.symm.trans hw
    exact filePlace_brief hplace
  · cases h.symm.trans hw
  · cases h.symm.trans hw
    exact Fault.brief_refusal shortage.refusal

theorem create_brief (h : tree.create path = .error fault) : fault.Brief := by
  unfold create at h
  split at h
  · rename_i f hf
    cases h
    exact filePlace_brief hf
  · split at h
    · cases h
      exact Fault.brief_alreadyExists
    · cases h

theorem short_of_create {next : FileTree} (h : tree.create path = .ok next) :
    path.utf8ByteSize < pathBound := by
  unfold create at h
  split at h
  · cases h
  · rename_i hplace
    exact short_of_filePlace hplace

/-! ## Sizes of files -/

/-- **Every file has a size that a machine can tell.** -/
def Sized (tree : FileTree) : Prop :=
  ∀ place content, (place, Entry.file content) ∈ tree.entries → content.size < UInt64.size

theorem mem_of_find? {place : Place} {entries : List (Place × Entry)} {entry : Entry}
    (h : find? place entries = some entry) : (place, entry) ∈ entries := by
  induction entries with
  | nil => cases h
  | cons e rest ih =>
      obtain ⟨p, e⟩ := e
      rw [find?] at h
      split at h
      · rename_i hp
        cases h
        rw [hp]
        exact List.mem_cons_self ..
      · exact List.mem_cons_of_mem _ (ih h)

theorem mem_put {place p : Place} {entry e : Entry} {entries : List (Place × Entry)}
    (h : (p, e) ∈ put place entry entries) : e = entry ∨ (p, e) ∈ entries := by
  induction entries with
  | nil =>
      obtain ⟨-, rfl⟩ := Prod.mk.inj (List.mem_singleton.mp h)
      exact .inl rfl
  | cons e' rest ih =>
      obtain ⟨p', e'⟩ := e'
      rw [put] at h
      split at h
      · rcases List.mem_cons.mp h with heq | hrest
        · obtain ⟨-, rfl⟩ := Prod.mk.inj heq
          exact .inl rfl
        · exact .inr (List.mem_cons_of_mem _ hrest)
      · rcases List.mem_cons.mp h with heq | hrest
        · exact .inr (heq ▸ List.mem_cons_self ..)
        · exact (ih hrest).imp id (List.mem_cons_of_mem _)

namespace Sized

variable (hs : tree.Sized) {content : ByteArray}

include hs

theorem read (h : tree.read path = .ok content) : content.size < UInt64.size := by
  unfold FileTree.read get at h
  split at h
  · -- what is read stands at a place other than the root, so it is an entry
    rename_i content' hget
    cases h
    split at hget
    · cases hget
    · rename_i place hplace
      split at hget
      · cases hget
      · cases hget
      · rename_i found hentry
        split at hget
        · cases hget
        · cases hget
          unfold entry? at hentry
          split at hentry
          · cases hentry
          · exact hs _ _ (mem_of_find? hentry)
  · cases h
  · cases h

theorem withFile (hc : content.size < UInt64.size) (place : Place) :
    (tree.withFile place content).Sized := by
  intro p c hmem
  rcases mem_put hmem with heq | hold
  · cases heq
    exact hc
  · exact hs p c hold

/-- Of what is written no more than all is left. -/
theorem write (hc : content.size < UInt64.size) (path : String) :
    (behind (tree.write path content)).Sized := by
  rcases tree.write_cases path content with ⟨fault, -, hw⟩ | ⟨place, -,
    ⟨-, hw⟩ | ⟨shortage, -, hw⟩⟩
  · rw [hw]
    exact hs
  · rw [hw]
    exact hs.withFile hc place
  · have htaken : (content.extract 0 shortage.taken).size ≤ content.size := by
      rw [ByteArray.size_extract]
      omega
    rw [hw]
    exact hs.withFile (Nat.lt_of_le_of_lt htaken hc) place

theorem create {next : FileTree} (h : tree.create path = .ok next) : next.Sized := by
  unfold FileTree.create at h
  split at h
  · cases h
  · split at h
    · cases h
    · cases h
      exact hs.withFile (by decide) _

theorem remove (path : String) : (tree.remove path).Sized := by
  unfold FileTree.remove
  split
  · intro p c hmem
    exact hs p c (List.mem_filter.mp hmem).1
  · exact hs

end Sized

end FileTree

namespace Staging

variable {files : FileTree} {dir : Option String} {extension : String}

theorem createFrom_brief {base : String} {tries number : Nat} {fault : Fault}
    (h : createFrom files base extension tries number = .error fault) : fault.Brief := by
  induction tries generalizing number with
  | zero =>
      cases h
      exact Fault.brief_alreadyExists
  | succ tries ih =>
      rw [createFrom] at h
      split at h
      · cases h
      · rename_i f hcreate
        split at h
        · exact ih h
        · cases h
          exact FileTree.create_brief hcreate

theorem createFrom_eq_ok {base path : String} {tries number : Nat} {created : FileTree}
    (h : createFrom files base extension tries number = .ok (path, created)) :
    (∃ number, path = Staging.path base extension number)
      ∧ files.create path = .ok created := by
  induction tries generalizing number with
  | zero => cases h
  | succ tries ih =>
      rw [createFrom] at h
      split at h
      · rename_i hcreate
        obtain ⟨rfl, rfl⟩ := Prod.mk.inj (Except.ok.inj h)
        exact ⟨⟨number, rfl⟩, hcreate⟩
      · split at h
        · exact ih h
        · cases h

/-- **A staged file is new**, and its name is one of those that staged files have. -/
theorem create_eq_ok {path : String} {created : FileTree}
    (h : create files dir extension = .ok (path, created)) :
    (∃ number, path = Staging.path (files.absolute (dir.getD systemDirectory)) extension number)
      ∧ files.create path = .ok created :=
  createFrom_eq_ok h

/-- **What staging cannot make** it reports in few words. -/
theorem create_brief {fault : Fault} (h : create files dir extension = .error fault) :
    fault.Brief :=
  createFrom_brief h

/-- **What staging makes** is at a short path. -/
theorem short_of_create {path : String} {created : FileTree}
    (h : create files dir extension = .ok (path, created)) :
    path.utf8ByteSize < FileTree.pathBound :=
  FileTree.short_of_create (create_eq_ok h).2

theorem sized_of_create (hs : files.Sized) {path : String} {created : FileTree}
    (h : create files dir extension = .ok (path, created)) : created.Sized :=
  hs.create (create_eq_ok h).2

/-- An input that is staged was made and written. -/
theorem stageInput_eq_ok {document : ByteArray} {path : String} {staged : FileTree}
    (h : stageInput files dir document extension = .ok (path, staged)) :
    ∃ created, create files dir extension = .ok (path, created)
      ∧ created.write path document = .ok staged := by
  unfold stageInput at h
  split at h
  · cases h
  · rename_i hcreate
    split at h
    · cases h
    · rename_i hwrite
      cases h
      exact ⟨_, hcreate, hwrite⟩

/-- An output that is reserved was made. -/
theorem reserveOutput_eq_ok {made : String × FileTree} (h : reserveOutput files dir = .ok made) :
    create files dir "pdf" = .ok made := by
  unfold reserveOutput at h
  split at h
  · cases h
  · rename_i hcreate
    cases h
    exact hcreate

/-- **An input that is not staged** was not made, or was made, not written, and removed. -/
theorem stageInput_eq_error {document : ByteArray} {failure : Failure}
    (h : stageInput files dir document extension = .error failure) :
    (∃ fault, create files dir extension = .error fault
      ∧ failure = ⟨.resource "Failed to create temporary input file" fault, files⟩) ∨
    ∃ path created spoilt, create files dir extension = .ok (path, created)
      ∧ created.write path document = .error spoilt
      ∧ failure = ⟨.resource "Failed to write temporary input file" spoilt.fault,
        spoilt.files.remove path⟩ := by
  unfold stageInput at h
  split at h
  · rename_i fault hcreate
    cases h
    exact .inl ⟨fault, hcreate, rfl⟩
  · rename_i path created hcreate
    split at h
    · rename_i spoilt hwrite
      cases h
      exact .inr ⟨path, created, spoilt, hcreate, hwrite, rfl⟩
    · cases h

theorem stageInput_error {document : ByteArray} {failure : Failure}
    (h : stageInput files dir document extension = .error failure) :
    ∃ context fault, failure.toEngineError = .resource context fault
      ∧ context.utf8ByteSize ≤ 64 ∧ fault.Brief := by
  rcases stageInput_eq_error h with ⟨fault, hcreate, rfl⟩ | ⟨path, created, spoilt, -, hwrite, rfl⟩
  · exact ⟨_, fault, rfl, by decide, create_brief hcreate⟩
  · exact ⟨_, spoilt.fault, rfl, by decide, FileTree.write_brief hwrite⟩

theorem sized_of_stageInput_error {document : ByteArray} {failure : Failure}
    (h : stageInput files dir document extension = .error failure) (hs : files.Sized)
    (hd : document.size < UInt64.size) : failure.files.Sized := by
  rcases stageInput_eq_error h with ⟨fault, -, rfl⟩ | ⟨path, created, spoilt, hcreate, hwrite, rfl⟩
  · exact hs
  · have hspoilt := (sized_of_create hs hcreate).write hd path
    rw [hwrite] at hspoilt
    exact hspoilt.remove path

theorem stageInput_ok {document : ByteArray} {path : String} {staged : FileTree}
    (h : stageInput files dir document extension = .ok (path, staged)) (hs : files.Sized)
    (hd : document.size < UInt64.size) : path.utf8ByteSize < FileTree.pathBound ∧ staged.Sized := by
  obtain ⟨created, hcreate, hwrite⟩ := stageInput_eq_ok h
  have hstaged := (sized_of_create hs hcreate).write hd path
  rw [hwrite] at hstaged
  exact ⟨short_of_create hcreate, hstaged⟩

theorem reserveOutput_error {e : EngineError} (h : reserveOutput files dir = .error e) :
    ∃ context fault, e = .resource context fault ∧ context.utf8ByteSize ≤ 64 ∧ fault.Brief := by
  unfold reserveOutput at h
  split at h
  · rename_i fault hcreate
    cases h
    exact ⟨_, fault, rfl, by decide, create_brief hcreate⟩
  · cases h

theorem reserveOutput_ok {path : String} {reserved : FileTree}
    (h : reserveOutput files dir = .ok (path, reserved)) (hs : files.Sized) : reserved.Sized :=
  sized_of_create hs (reserveOutput_eq_ok h)

end Staging

end PdfWorker
