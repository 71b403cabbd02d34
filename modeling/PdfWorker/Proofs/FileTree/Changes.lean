import PdfWorker.Proofs.FileTree
set_option autoImplicit false

/-! # What calls change in a file tree

Two trees are compared by what they show at each place (`FileTree.shows`). `AlikeBut places` says
that they show the same but at these places, where nothing stood before, and `ChangedAt path` that
nothing has changed but at the file that a path leads to. Making a file, writing it and removing it
are such changes, and a tree in which a new file was made, changed in any way and removed shows what
it showed before (`AlikeBut.remove`). Paths lead where they led all the while, since no directory
comes or goes (`AlikeBut.place_iff`).
-/

namespace PdfWorker.FileTree

variable {tree next : FileTree} {path : String} {place : Place} {content : ByteArray}

/-! ## What a tree shows -/

/-- What stands at a place, and whether it may be run. -/
def shows (tree : FileTree) (place : Place) : Option (Entry × Bool) :=
  (tree.entry? place).map fun entry => (entry, tree.programs.contains place)

theorem entry?_of_shows (h : next.shows place = tree.shows place) :
    next.entry? place = tree.entry? place := by
  have hfirst := congrArg (Option.map Prod.fst) h
  simpa only [shows, Option.map_map, Function.comp_def, Option.map_id'] using hfirst

theorem shows_congr (h : next.entry? place = tree.entry? place)
    (hp : next.programs.contains place = tree.programs.contains place) :
    next.shows place = tree.shows place := by
  rw [shows, shows, h, hp]

theorem shows_of_none (h : tree.entry? place = none) : tree.shows place = none := by
  rw [shows, h, Option.map_none]

/-- **The trees are the same but at these places**, where nothing stood in the first and no directory
stands in the second. -/
structure AlikeBut (places : List Place) (tree next : FileTree) : Prop where
  here : next.here = tree.here
  others : ∀ place, place ∉ places → next.shows place = tree.shows place
  fresh : ∀ place ∈ places, tree.entry? place = none
  plain : ∀ place ∈ places, next.entry? place ≠ some .directory

/-- The trees show the same everywhere. -/
def Same (tree next : FileTree) : Prop := AlikeBut [] tree next

/-- **Nothing has changed but at the file that the path leads to**: something else may stand there,
or nothing, but no directory. -/
structure ChangedAt (path : String) (tree next : FileTree) : Prop where
  here : next.here = tree.here
  others : ∀ place, tree.place path ≠ .ok place → next.shows place = tree.shows place
  plain : ∀ place, tree.place path = .ok place → next.entry? place = some .directory →
    tree.entry? place = some .directory

theorem Same.refl (tree : FileTree) : Same tree tree := ⟨rfl, fun _ _ => rfl, by simp, by simp⟩

theorem ChangedAt.refl (path : String) (tree : FileTree) : ChangedAt path tree tree :=
  ⟨rfl, fun _ _ => rfl, fun _ _ h => h⟩

/-! ## Where paths lead -/

theorem enter_eq_ok : tree.enter place = .ok () ↔ tree.entry? place = some .directory := by
  unfold enter
  split <;> simp_all

/-- A path that can be followed is followed. -/
theorem place_eq_follow (hnul : '\x00' ∉ path.toList) (hempty : path ≠ "")
    (hshort : path.utf8ByteSize < pathBound) (tree : FileTree) :
    tree.place path = tree.follow (tree.origin path) (Path.names path) := by
  have hcontains : path.contains '\x00' = false := by
    rw [String.contains_char_eq]
    simpa using hnul
  rw [FileTree.place, hcontains, if_neg Bool.false_ne_true, if_neg hempty,
    if_neg (Nat.not_le.mpr hshort)]

theorem follow_of_directories
    (h : ∀ place, tree.entry? place = some .directory → next.entry? place = some .directory)
    {names : List String} {start : Place} (hf : tree.follow start names = .ok place) :
    next.follow start names = .ok place := by
  induction names generalizing start with
  | nil => exact hf
  | cons name rest ih =>
      rw [follow] at hf ⊢
      split at hf
      · cases hf
      · rename_i henter
        rw [enter_eq_ok.mpr (h start (enter_eq_ok.mp henter))]
        simp only
        split at hf
        · rename_i hup
          rw [if_pos hup]
          exact ih hf
        · rename_i hup
          rw [if_neg hup]
          split at hf
          · cases hf
          · rename_i hlong
            rw [if_neg hlong]
            exact ih hf

theorem place_of_directories (here : next.here = tree.here)
    (h : ∀ place, tree.entry? place = some .directory → next.entry? place = some .directory)
    (hp : tree.place path = .ok place) : next.place path = .ok place := by
  unfold FileTree.place at hp ⊢
  split at hp
  · cases hp
  · rename_i hnul
    split at hp
    · cases hp
    · rename_i hempty
      split at hp
      · cases hp
      · rename_i hlong
        rw [if_neg hnul, if_neg hempty, if_neg hlong]
        have horigin : next.origin path = tree.origin path := by rw [origin, origin, here]
        rw [horigin]
        exact follow_of_directories h hp

/-- A path to a file that changes leads where it led. -/
theorem ChangedAt.place_eq_ok (h : ChangedAt path tree next) (hp : tree.place path = .ok place)
    (hplain : tree.entry? place ≠ some .directory) : next.place path = .ok place := by
  refine place_of_directories h.here (fun other hd => ?_) hp
  have hne : tree.place path ≠ .ok other := by
    rw [hp]
    rintro ⟨⟩
    exact hplain hd
  rw [entry?_of_shows (h.others other hne), hd]

namespace AlikeBut

variable {places more : List Place} {last : FileTree}

theorem entry?_eq (h : AlikeBut places tree next) (hp : place ∉ places) :
    next.entry? place = tree.entry? place :=
  entry?_of_shows (h.others place hp)

/-- No directory comes or goes. -/
theorem directory_iff (h : AlikeBut places tree next) (place : Place) :
    next.entry? place = some .directory ↔ tree.entry? place = some .directory := by
  by_cases hp : place ∈ places
  · rw [h.fresh place hp]
    exact ⟨fun hd => absurd hd (h.plain place hp), fun hd => by cases hd⟩
  · rw [h.entry?_eq hp]

/-- Every path leads where it led. -/
theorem place_iff (h : AlikeBut places tree next) (path : String) (place : Place) :
    next.place path = .ok place ↔ tree.place path = .ok place :=
  ⟨place_of_directories h.here.symm fun place => (h.directory_iff place).mp,
    place_of_directories h.here fun place => (h.directory_iff place).mpr⟩

theorem trans (h : AlikeBut places tree next) (h' : AlikeBut more next last)
    (hmore : ∀ place ∈ more, place ∉ places) : AlikeBut (places ++ more) tree last := by
  refine ⟨h'.here.trans h.here, ?_, ?_, ?_⟩
  · intro place hp
    obtain ⟨hp, hm⟩ := not_or.mp (mt List.mem_append.mpr hp)
    rw [h'.others place hm, h.others place hp]
  · intro place hp
    rcases List.mem_append.mp hp with hp | hm
    · exact h.fresh place hp
    · rw [← h.entry?_eq (hmore place hm)]
      exact h'.fresh place hm
  · intro place hp
    by_cases hm : place ∈ more
    · exact h'.plain place hm
    · rw [h'.entry?_eq hm]
      exact h.plain place ((List.mem_append.mp hp).resolve_right hm)

theorem trans_same (h : AlikeBut places tree next) (h' : Same next last) :
    AlikeBut places tree last := by
  have hboth := h.trans h' (by simp)
  rwa [List.append_nil] at hboth

/-- A new file may be changed. -/
theorem changedAt (h : AlikeBut [place] tree next) (hp : tree.place path = .ok place)
    (h' : ChangedAt path next last) : AlikeBut [place] tree last := by
  have hplace := (h.place_iff path place).mpr hp
  refine ⟨h'.here.trans h.here, ?_, h.fresh, ?_⟩
  · intro other ho
    rw [h'.others other, h.others other ho]
    intro heq
    rw [hplace] at heq
    cases heq
    exact ho (List.mem_singleton.mpr rfl)
  · intro other ho hd
    rw [List.mem_singleton.mp ho] at hd
    exact h.plain place (List.mem_singleton.mpr rfl) (h'.plain place hplace hd)

end AlikeBut

/-! ## Calls -/

theorem find?_put (place other : Place) (entry : Entry) (entries : List (Place × Entry)) :
    find? other (put place entry entries)
      = if place = other then some entry else find? other entries := by
  induction entries with
  | nil => rfl
  | cons e rest ih =>
      obtain ⟨p, e⟩ := e
      rw [put]
      split
      · rename_i hp
        rw [find?, find?, hp]
        split <;> rfl
      · rename_i hp
        rw [find?, find?, ih]
        split
        · rename_i ho
          rw [if_neg (fun heq => hp (ho.trans heq.symm))]
        · rfl

theorem entry?_withFile (content : ByteArray) (h : place ≠ []) (tree : FileTree) (other : Place) :
    FileTree.entry? (tree.withFile place content) other
      = if place = other then some (.file content) else tree.entry? other := by
  unfold entry? withFile
  simp only [find?_put]
  by_cases ho : other = []
  · rw [if_pos ho, if_pos ho, if_neg (fun heq => h (heq.trans ho))]
  · rw [if_neg ho, if_neg ho]

theorem find?_filter_ne (place other : Place) (entries : List (Place × Entry)) :
    find? other (entries.filter (·.1 ≠ place))
      = if place = other then none else find? other entries := by
  induction entries with
  | nil => simp [find?]
  | cons e rest ih =>
      obtain ⟨p, e⟩ := e
      by_cases hp : p = place
      · rw [List.filter_cons_of_neg (by simp [hp]), ih, find?, hp]
        by_cases ho : place = other
        · rw [if_pos ho, if_pos ho]
        · rw [if_neg ho, if_neg ho, if_neg ho]
      · rw [List.filter_cons_of_pos (by simp [hp]), find?, find?, ih]
        by_cases ho : p = other
        · rw [if_pos ho, if_pos ho, if_neg (fun heq => hp (ho.trans heq.symm))]
        · rw [if_neg ho, if_neg ho]

/-- A file can stand where a path leads to: it is not the root. -/
theorem ne_nil_of_plain (h : tree.entry? place ≠ some .directory) : place ≠ [] := by
  rintro rfl
  refine h ?_
  unfold entry?
  rw [if_pos rfl]

/-- The place of a file holds no directory, and its path does not tell a directory. -/
theorem filePlace_eq_ok (h : tree.filePlace path = .ok place) :
    tree.place path = .ok place ∧ endsAsDirectory path = false
      ∧ tree.entry? place ≠ some .directory := by
  unfold filePlace at h
  split at h
  · cases h
  · rename_i found hfound
    split at h
    · cases h
    · rename_i hends
      split at h
      · cases h
      · rename_i hentry
        cases h
        exact ⟨hfound, Bool.eq_false_iff.mpr hends, by simp [hentry]⟩
      · rename_i hentry
        cases hallows : tree.allows found with
        | error fault =>
            rw [hallows] at h
            cases h
        | ok u =>
            rw [hallows] at h
            cases h
            exact ⟨hfound, Bool.eq_false_iff.mpr hends, by simp [hentry]⟩

/-- Putting a file where its path leads changes nothing else. -/
theorem withFile_changedAt (h : tree.filePlace path = .ok place) (content : ByteArray) :
    ChangedAt path tree (tree.withFile place content) := by
  obtain ⟨hplace, -, hplain⟩ := filePlace_eq_ok h
  have hentry := entry?_withFile content (ne_nil_of_plain hplain) tree
  refine ⟨rfl, ?_, ?_⟩
  · intro other ho
    have hne : place ≠ other := fun heq => ho (heq ▸ hplace)
    exact shows_congr (by rw [hentry, if_neg hne]) rfl
  · intro other ho hd
    rw [hplace] at ho
    cases ho
    rw [hentry, if_pos rfl] at hd
    cases hd

/-- **Making a file** changes nothing but at a place where nothing stood. -/
theorem create_eq_ok (h : tree.create path = .ok next) :
    ∃ place, tree.place path = .ok place ∧ endsAsDirectory path = false
      ∧ AlikeBut [place] tree next ∧ next.entry? place = some (.file .empty) := by
  unfold create at h
  split at h
  · cases h
  · rename_i place hfile
    split at h
    · cases h
    · rename_i hfree
      obtain ⟨hplace, hends, hplain⟩ := filePlace_eq_ok hfile
      have hentry := entry?_withFile .empty (ne_nil_of_plain hplain) tree
      cases h
      have hnone : tree.entry? place = none := Option.not_isSome_iff_eq_none.mp hfree
      refine ⟨place, hplace, hends, ⟨rfl, ?_, ?_, ?_⟩, ?_⟩
      · intro other ho
        have hne : place ≠ other := fun heq => ho (List.mem_singleton.mpr heq.symm)
        exact shows_congr (by rw [hentry, if_neg hne]) rfl
      · exact List.forall_mem_singleton.mpr hnone
      · rw [List.forall_mem_singleton, hentry, if_pos rfl]
        simp
      · rw [hentry, if_pos rfl]

/-- **Writing a file** changes nothing but the file, also if it breaks off. -/
theorem write_changedAt (tree : FileTree) (path : String) (content : ByteArray) :
    ChangedAt path tree (behind (tree.write path content)) := by
  rcases tree.write_cases path content with ⟨fault, -, hw⟩ | ⟨place, hfile,
    ⟨-, hw⟩ | ⟨shortage, -, hw⟩⟩
  · rw [hw]
    exact .refl path tree
  · rw [hw]
    exact withFile_changedAt hfile content
  · rw [hw]
    exact withFile_changedAt hfile _

/-- Where writing works, the file is there with its content. -/
theorem write_eq_ok (h : tree.write path content = .ok next) :
    ∃ place, tree.place path = .ok place ∧ endsAsDirectory path = false
      ∧ tree.entry? place ≠ some .directory ∧ next.entry? place = some (.file content) := by
  rcases tree.write_cases path content with ⟨fault, -, hw⟩ | ⟨place, hfile,
    ⟨-, hw⟩ | ⟨shortage, -, hw⟩⟩
  · cases h.symm.trans hw
  · cases h.symm.trans hw
    obtain ⟨hplace, hends, hplain⟩ := filePlace_eq_ok hfile
    have hentry := entry?_withFile content (ne_nil_of_plain hplain) tree place
    exact ⟨place, hplace, hends, hplain, hentry.trans (if_pos rfl)⟩
  · cases h.symm.trans hw

/-- A new file may be written. -/
theorem AlikeBut.write (h : AlikeBut [place] tree next) (hp : tree.place path = .ok place)
    (content : ByteArray) : AlikeBut [place] tree (behind (next.write path content)) :=
  h.changedAt hp (next.write_changedAt path content)

/-- A new file that was written has its content. -/
theorem AlikeBut.of_write {last : FileTree} (h : AlikeBut [place] tree next)
    (hp : tree.place path = .ok place) (hw : next.write path content = .ok last) :
    AlikeBut [place] tree last ∧ last.entry? place = some (.file content) := by
  have hlast := h.write hp content
  obtain ⟨written, hplace, -, -, hentry⟩ := write_eq_ok hw
  rw [hw] at hlast
  rw [(h.place_iff path place).mpr hp] at hplace
  cases hplace
  exact ⟨hlast, hentry⟩

theorem filePlace_of_file {found : ByteArray} (hp : tree.place path = .ok place)
    (hends : endsAsDirectory path = false) (he : tree.entry? place = some (.file found)) :
    tree.filePlace path = .ok place := by
  simp only [filePlace, hp, hends, he, Bool.false_eq_true, if_false]

theorem filePlace_of_free (hp : tree.place path = .ok place)
    (hends : endsAsDirectory path = false) (hfree : tree.entry? place = none)
    (hallows : tree.allows place = .ok ()) : tree.filePlace path = .ok place := by
  simp only [filePlace, hp, hends, hfree, hallows, Bool.false_eq_true, if_false]
  rfl

/-- **Whatever is written here is taken.** -/
def Writable (tree : FileTree) (path : String) : Prop :=
  ∀ content, ∃ next, tree.write path content = .ok next

theorem writable_of_filePlace (h : tree.filePlace path = .ok place)
    (hroom : ∀ size, tree.shortage place size = none) : tree.Writable path := by
  intro content
  exact ⟨tree.withFile place content, by rw [write, h]; simp only [hroom]⟩

/-- Making a file leaves as much room as there was. -/
theorem shortage_of_create (h : tree.create path = .ok next) : next.shortage = tree.shortage := by
  unfold create at h
  split at h
  · cases h
  · split at h
    · cases h
    · cases h
      rfl

/-- A new file can be written if the system takes everything. -/
theorem writable_of_create (h : tree.create path = .ok next)
    (hroom : ∀ place size, tree.shortage place size = none) : next.Writable path := by
  obtain ⟨place, hplace, hends, halike, hentry⟩ := create_eq_ok h
  refine writable_of_filePlace
    (filePlace_of_file ((halike.place_iff path place).mpr hplace) hends hentry) ?_
  rw [shortage_of_create h]
  exact hroom place

/-- A file is read where its path leads to it. -/
theorem read_of_file (hp : tree.place path = .ok place) (hends : endsAsDirectory path = false)
    (he : tree.entry? place = some (.file content)) : tree.read path = .ok content := by
  simp only [read, get, hp, he, hends, Bool.false_eq_true, if_false]

/-- Where a path leads to the file that it reads. -/
theorem read_eq_ok (h : tree.read path = .ok content) :
    ∃ place, tree.place path = .ok place ∧ endsAsDirectory path = false
      ∧ tree.entry? place = some (.file content) := by
  unfold read get at h
  cases hp : tree.place path with
  | error fault => simp [hp] at h
  | ok place =>
      cases he : tree.entry? place with
      | none => simp [hp, he] at h
      | some entry =>
          cases entry with
          | directory => simp [hp, he] at h
          | file found =>
              cases hends : endsAsDirectory path with
              | true => simp [hp, he, hends] at h
              | false =>
                  have hfound : found = content := by simpa [hp, he, hends] using h
                  exact ⟨place, rfl, rfl, by rw [he, hfound]⟩

/-- A file that was made is empty. -/
theorem read_of_create (h : tree.create path = .ok next) : next.read path = .ok .empty := by
  obtain ⟨place, hplace, hends, halike, hentry⟩ := create_eq_ok h
  exact read_of_file ((halike.place_iff path place).mpr hplace) hends hentry

/-- **What was written is read.** -/
theorem read_of_write (h : tree.write path content = .ok next) :
    next.read path = .ok content := by
  obtain ⟨place, hplace, hends, hplain, hentry⟩ := write_eq_ok h
  have hchanged := tree.write_changedAt path content
  rw [h] at hchanged
  exact read_of_file (hchanged.place_eq_ok hplace hplain) hends hentry

theorem holds_of_read (h : tree.read path = .ok content) : tree.holds path = true := by
  unfold read at h
  unfold holds
  split at h
  · rename_i hget
    rw [hget]
  · cases h
  · cases h

/-- The place of the file to be removed. -/
theorem place_of_file? (h : tree.file? path = some place) : tree.place path = .ok place := by
  unfold file? at h
  split at h
  · cases hp : tree.place path with
    | error fault =>
        rw [hp] at h
        cases h
    | ok found =>
        rw [hp] at h
        cases h
        rfl
  · cases h

/-- What a tree shows where a file was removed, and elsewhere. -/
theorem shows_removed (hp : place ≠ []) (tree : FileTree) (other : Place) :
    shows { tree with
      entries := tree.entries.filter (·.1 ≠ place)
      programs := tree.programs.filter (· ≠ place) } other
      = if place = other then none else tree.shows other := by
  have hentry : entry? { tree with
      entries := tree.entries.filter (·.1 ≠ place)
      programs := tree.programs.filter (· ≠ place) } other
        = if place = other then none else tree.entry? other := by
    unfold entry?
    simp only [find?_filter_ne]
    by_cases ho : other = []
    · rw [if_pos ho, if_pos ho, if_neg (fun heq => hp (heq.trans ho))]
    · rw [if_neg ho, if_neg ho]
  by_cases ho : place = other
  · rw [shows_of_none (by rw [hentry, if_pos ho]), if_pos ho]
  · rw [if_neg ho]
    refine shows_congr (by rw [hentry, if_neg ho]) ?_
    rw [Bool.eq_iff_iff]
    simp [ne_comm.mp ho]

/-- What stands where a file is removed is no directory. -/
theorem plain_of_file? (h : tree.file? path = some place) :
    tree.entry? place ≠ some .directory := by
  have hplace := place_of_file? h
  intro hd
  unfold file? isFile get at h
  simp [hplace, hd] at h

theorem ne_nil_of_file? (h : tree.file? path = some place) : place ≠ [] :=
  ne_nil_of_plain (plain_of_file? h)

/-- **Removing a file** changes nothing but the file. -/
theorem remove_changedAt (tree : FileTree) (path : String) :
    ChangedAt path tree (tree.remove path) := by
  unfold remove
  split
  · rename_i place hfile
    have hplace := place_of_file? hfile
    have hshows := shows_removed (ne_nil_of_file? hfile) tree
    refine ⟨rfl, ?_, ?_⟩
    · intro other ho
      have hne : place ≠ other := fun heq => ho (heq ▸ hplace)
      rw [hshows, if_neg hne]
    · intro other ho hd
      rw [hplace] at ho
      cases ho
      have hnone := hshows place
      rw [if_pos rfl, shows, hd] at hnone
      cases hnone
  · exact .refl path tree

/-- A file that was removed cannot be read. -/
theorem read_of_remove (tree : FileTree) (path : String) (content : ByteArray) :
    (tree.remove path).read path ≠ .ok content := by
  intro hread
  have hchanged := tree.remove_changedAt path
  obtain ⟨place, hplace, hends, hentry⟩ := read_eq_ok hread
  cases hfile : tree.file? path with
  | none =>
      rw [remove, hfile] at hplace hentry
      simp only [file?, isFile, get, hplace, hentry, hends, Bool.false_eq_true, if_false,
        if_true] at hfile
      cases hfile
  | some removed =>
      -- the path leads where it led, and nothing stands there
      have hsame := hchanged.place_eq_ok (place_of_file? hfile) (plain_of_file? hfile)
      rw [hsame] at hplace
      cases hplace
      have hnone := shows_removed (ne_nil_of_file? hfile) tree place
      rw [remove, hfile] at hentry
      rw [if_pos rfl, shows, hentry] at hnone
      cases hnone

/-- **A new file that is removed** leaves no trace, whatever was done to it. -/
theorem AlikeBut.remove (h : AlikeBut [place] tree next) (hp : tree.place path = .ok place)
    (hends : endsAsDirectory path = false) : Same tree (next.remove path) := by
  have hplace := (h.place_iff path place).mpr hp
  have hmem : place ∈ [place] := List.mem_singleton.mpr rfl
  have hchanged := h.changedAt hp (next.remove_changedAt path)
  refine ⟨hchanged.here, fun other _ => ?_, by simp, by simp⟩
  by_cases ho : other = place
  · subst ho
    rw [shows_of_none (h.fresh other hmem)]
    -- either the file is still there, or it has been removed already
    cases hentry : next.entry? other with
    | none =>
        have hfile : next.file? path = none := by
          simp only [file?, isFile, get, hplace, hentry, Bool.false_eq_true, if_false]
        rw [FileTree.remove, hfile]
        exact shows_of_none hentry
    | some entry =>
        cases entry with
        | directory => exact absurd hentry (h.plain other hmem)
        | file content =>
            have hfile : next.file? path = some other := by
              simp only [file?, isFile, get, hplace, hentry, hends, Bool.false_eq_true, if_false,
                if_true]
              rfl
            rw [FileTree.remove, hfile]
            exact (shows_removed (ne_nil_of_file? hfile) next other).trans (if_pos rfl)
  · exact hchanged.others other (fun hm => ho (List.mem_singleton.mp hm))

/-- What is changed behind the same tree. -/
theorem Same.trans_changedAt {last : FileTree} (h : Same tree next)
    (h' : ChangedAt path next last) : ChangedAt path tree last := by
  refine ⟨h'.here.trans h.here, ?_, ?_⟩
  · intro place ho
    rw [h'.others place (mt (h.place_iff path place).mp ho), h.others place List.not_mem_nil]
  · intro place hp hd
    exact (h.directory_iff place).mp (h'.plain place ((h.place_iff path place).mpr hp) hd)

theorem Same.changedAt (h : Same tree next) (path : String) : ChangedAt path tree next :=
  h.trans_changedAt (.refl path next)

end PdfWorker.FileTree
