import Mathlib.Data.List.Induction
import PdfWorker.Proofs.Platform
import PdfWorker.Proofs.Text.Lines
set_option autoImplicit false

/-! # The search path of the loader

Paths are compared by their components: `Path.components` says what they are, and
`Path.same_eq_true_iff` that paths are the same exactly if their components are. A directory that is
given more than once, however it is spelled, is searched where it stands first
(`Platform.firstSpellings`). `Platform.librarySearchPath_lists` says when there is a search path, and
what stands between its colons: the first spellings of the directories, and behind them all that was
searched before.
-/

namespace PdfWorker

namespace Text

/-! ## Texts between marks -/

/-- The texts between the marks of a text. -/
def between (mark : Char) (text : String) : List String :=
  (text.toList.splitOn mark).map String.ofList

theorem intercalate_between (mark : Char) (text : String) :
    String.intercalate (String.singleton mark) (between mark text) = text := by
  rw [← String.toList_inj, String.toList_intercalate, between, List.map_map]
  have hid : String.toList ∘ String.ofList = id := funext fun _ => String.toList_ofList
  rw [hid, List.map_id, String.toList_singleton, List.intercalate_splitOn]

/-- Texts without the mark are what stands between the marks that join them. -/
theorem between_intercalate {mark : Char} {parts : List String} (hne : parts ≠ [])
    (hparts : ∀ part ∈ parts, mark ∉ part.toList) :
    between mark (String.intercalate (String.singleton mark) parts) = parts := by
  have hmarks : ∀ part ∈ parts.map String.toList, mark ∉ part := by
    simpa using hparts
  have hid : String.ofList ∘ String.toList = id := funext fun _ => String.ofList_toList
  rw [between, String.toList_intercalate, String.toList_singleton,
    List.splitOn_intercalate mark hmarks (by simpa using hne), List.map_map, hid, List.map_id]

theorem notMem_of_mem_splitOn {mark : Char} {text part : List Char} (h : part ∈ text.splitOn mark) :
    mark ∉ part := by
  induction text generalizing part with
  | nil =>
      rw [List.splitOn_nil, List.mem_singleton] at h
      rw [h]
      exact List.not_mem_nil
  | cons c cs ih =>
      rw [List.splitOn_cons_eq_if_modifyHead] at h
      split at h
      · rcases List.mem_cons.mp h with rfl | h
        · exact List.not_mem_nil
        · exact ih h
      · rename_i hc
        -- the character goes to the first part, and it is no mark
        obtain ⟨first, rest, hparts⟩ := List.exists_cons_of_ne_nil (List.splitOn_ne_nil mark cs)
        rw [hparts, List.modifyHead_cons] at h
        rcases List.mem_cons.mp h with rfl | h
        · have hfirst := ih (hparts ▸ List.mem_cons_self)
          have hne : mark ≠ c := fun he => hc (by simp [he])
          exact List.not_mem_cons_of_ne_of_not_mem hne hfirst
        · exact ih (hparts ▸ List.mem_cons_of_mem first h)

theorem notMem_of_mem_between {mark : Char} {text part : String} (h : part ∈ between mark text) :
    mark ∉ part.toList := by
  obtain ⟨piece, hpiece, rfl⟩ := List.mem_map.mp h
  rw [String.toList_ofList]
  exact notMem_of_mem_splitOn hpiece

/-- A character that is no mark stands between two marks, wherever it stands. -/
theorem mem_between {c mark : Char} (hc : c ≠ mark) (text : String) :
    c ∈ text.toList ↔ ∃ part ∈ between mark text, c ∈ part.toList := by
  rw [← Platform.mem_intercalate_singleton hc, intercalate_between]

end Text

namespace Path

/-! ## Components of paths -/

/-- What a path is made of: the root, the current directory, ways up, and names. -/
inductive Component where
  | root
  | here
  | up
  | name (text : String)
deriving DecidableEq

/-- What a text between slashes stands for, if anything. -/
def component? (piece : String) : Option Component :=
  if piece = "" ∨ piece = "." then none
  else if piece = ".." then some .up
  else some (.name piece)

/-- **The components of a path.** It starts at the root if a slash begins it, and in the current
directory if a single dot does. Texts between slashes are names or ways up; empty ones and further
single dots mean nothing. -/
def components (path : String) : List Component :=
  (if path.toList.head? = some '/' then [.root] else [])
    ++ (if (Text.between '/' path).head? = some "." then [.here] else [])
    ++ (Text.between '/' path).filterMap component?

theorem pieces_eq_between (path : String) : pieces path = Text.between '/' path := by
  rw [pieces, Text.split_eq_splitOn, Text.between]

/-- The texts of components. -/
def Component.text? : Component → Option String
  | root | here => none
  | up => some ".."
  | name text => some text

/-- An empty text and a single dot stand for nothing. -/
theorem component?_of_not_isName {piece : String} (h : isName piece = false) :
    component? piece = none := by
  refine if_pos ?_
  by_contra hneither
  rw [not_or] at hneither
  rw [isName, decide_eq_true hneither] at h
  cases h

theorem component?_of_isName {piece : String} (h : isName piece = true) :
    component? piece = some (if piece = ".." then .up else .name piece) := by
  obtain ⟨hempty, hdot⟩ := of_decide_eq_true h
  rw [component?, if_neg (not_or.mpr ⟨hempty, hdot⟩)]
  split <;> rfl

theorem text?_component? (piece : String) :
    (component? piece).bind Component.text? = if isName piece then some piece else none := by
  cases h : isName piece with
  | false =>
      rw [component?_of_not_isName h]
      rfl
  | true =>
      rw [component?_of_isName h, Option.bind_some]
      split
      · rename_i hup
        rw [hup]
        rfl
      · rfl

theorem component?_ne (piece : String) :
    component? piece ≠ some .root ∧ component? piece ≠ some .here := by
  unfold component?
  split
  · exact ⟨nofun, nofun⟩
  · split <;> exact ⟨nofun, nofun⟩

/-- Where a path begins, and its names, make up its components. -/
theorem components_eq (path : String) :
    components path = (if isAbsolute path then [.root] else [])
      ++ (if beginsHere path then [.here] else []) ++ (names path).filterMap component? := by
  have hskip : component? = fun piece => if isName piece then component? piece else none := by
    funext piece
    cases hname : isName piece with
    | true => rfl
    | false => exact component?_of_not_isName hname
  have hnames : (Text.between '/' path).filterMap component?
      = (names path).filterMap component? := by
    rw [names, pieces_eq_between, List.filterMap_filter, ← hskip]
  rw [components, hnames, isAbsolute, beginsHere, pieces_eq_between]
  simp only [decide_eq_true_eq]

theorem mem_filterMap_component? {c : Component} {pieces : List String}
    (h : c ∈ pieces.filterMap component?) : c ≠ .root ∧ c ≠ .here := by
  obtain ⟨piece, -, hpiece⟩ := List.mem_filterMap.mp h
  obtain ⟨hroot, hhere⟩ := component?_ne piece
  rw [hpiece] at hroot hhere
  exact ⟨fun he => hroot (he ▸ rfl), fun he => hhere (he ▸ rfl)⟩

theorem root_mem_components_iff {path : String} :
    .root ∈ components path ↔ isAbsolute path = true := by
  have hnames : .root ∉ (names path).filterMap component? :=
    fun h => (mem_filterMap_component? h).1 rfl
  rw [components_eq, List.mem_append, List.mem_append]
  simp [hnames]

theorem here_mem_components_iff {path : String} :
    .here ∈ components path ↔ beginsHere path = true := by
  have hnames : .here ∉ (names path).filterMap component? :=
    fun h => (mem_filterMap_component? h).2 rfl
  rw [components_eq, List.mem_append, List.mem_append]
  simp [hnames]

/-- The names of a path are the texts of its components. -/
theorem filterMap_text?_components (path : String) :
    (components path).filterMap Component.text? = names path := by
  have htexts : (fun piece => (component? piece).bind Component.text?)
      = Option.guard isName := funext text?_component?
  have hnames : ((names path).filterMap component?).filterMap Component.text? = names path := by
    rw [List.filterMap_filterMap, htexts, List.filterMap_eq_filter, names, List.filter_filter]
    simp only [Bool.and_self]
  rw [components_eq, List.filterMap_append, List.filterMap_append, hnames]
  split <;> split <;> rfl

/-- **Paths are the same exactly if their components are.** -/
theorem same_eq_true_iff {a b : String} : same a b = true ↔ components a = components b := by
  rw [same, decide_eq_true_iff]
  constructor
  · rintro ⟨habsolute, hhere, hnames⟩
    rw [components_eq, components_eq, habsolute, hhere, hnames]
  · intro h
    refine ⟨?_, ?_, ?_⟩
    · rw [Bool.eq_iff_iff, ← root_mem_components_iff, ← root_mem_components_iff, h]
    · rw [Bool.eq_iff_iff, ← here_mem_components_iff, ← here_mem_components_iff, h]
    · rw [← filterMap_text?_components, h, filterMap_text?_components]

/-- A slash more at the end or a single dot changes nothing; a dot at the front does. -/
example : components "/p" = components "/p/" ∧ components "/p" = components "/p/."
    ∧ components "/p" ≠ components "p" ∧ components "p" ≠ components "./p" := by
  decide +kernel

theorem eq_of_component?_eq_name {piece text : String} (h : component? piece = some (.name text)) :
    piece = text := by
  have htext := text?_component? piece
  rw [h, Option.bind_some, Component.text?] at htext
  split at htext
  · exact (Option.some.inj htext).symm
  · cases htext

/-- The names among the components are the texts between slashes that are names. -/
theorem name_mem_components_iff {path text : String} :
    .name text ∈ components path
      ↔ text ∈ Text.between '/' path ∧ component? text = some (.name text) := by
  rw [components, List.mem_append, List.mem_append, List.mem_filterMap]
  constructor
  · rintro ((h | h) | ⟨piece, hpiece, hname⟩)
    · split at h <;> simp at h
    · split at h <;> simp at h
    · obtain rfl := eq_of_component?_eq_name hname
      exact ⟨hpiece, hname⟩
  · rintro ⟨hpiece, hname⟩
    exact .inr ⟨text, hpiece, hname⟩

/-- A character that is neither slash nor dot stands in a path exactly if it stands in a name. -/
theorem mem_iff_mem_name {c : Char} (hslash : c ≠ '/') (hdot : c ≠ '.') (path : String) :
    c ∈ path.toList ↔ ∃ text, .name text ∈ components path ∧ c ∈ text.toList := by
  rw [Text.mem_between hslash]
  constructor
  · rintro ⟨piece, hpiece, hc⟩
    -- a text of dots would not have the character
    have hother : ∀ dots : String, c ∉ dots.toList → piece ≠ dots := by
      rintro dots hdots rfl
      exact hdots hc
    have hup : piece ≠ ".." := hother ".." (by simp [hdot])
    have hisName : isName piece = true :=
      decide_eq_true ⟨hother "" (by simp), hother "." (by simp [hdot])⟩
    have hname : component? piece = some (.name piece) := by
      rw [component?_of_isName hisName, if_neg hup]
    exact ⟨piece, name_mem_components_iff.mpr ⟨hpiece, hname⟩, hc⟩
  · rintro ⟨text, htext, hc⟩
    exact ⟨text, (name_mem_components_iff.mp htext).1, hc⟩

end Path

namespace Platform

/-! ## Directories that are given more than once -/

/-- **The first spellings of directories**: those that no directory before them names in the same
way, in their order. -/
def firstSpellings (dirs : List String) : List String :=
  (dirs.zipIdx.filter fun (dir, i) =>
    ∀ earlier ∈ dirs.take i, Path.components earlier ≠ Path.components dir).map Prod.fst

theorem firstSpellings_concat (dirs : List String) (dir : String) :
    firstSpellings (dirs ++ [dir]) = firstSpellings dirs
      ++ if ∃ earlier ∈ dirs, Path.components earlier = Path.components dir then [] else [dir] := by
  have hbefore : ∀ entry ∈ dirs.zipIdx, (dirs ++ [dir]).take entry.2 = dirs.take entry.2 := by
    rintro ⟨d, i⟩ hentry
    have hi := (List.mem_zipIdx' hentry).1
    exact List.take_append_of_le_length (Nat.le_of_lt hi)
  rw [firstSpellings, List.zipIdx_append, List.filter_append, List.map_append, firstSpellings]
  congr 1
  · refine congrArg (List.map Prod.fst) (List.filter_congr fun entry hentry => ?_)
    simp only [hbefore entry hentry]
  · have htake : (dirs ++ [dir]).take dirs.length = dirs := List.take_left
    rw [List.zipIdx_singleton, Nat.zero_add]
    by_cases h : ∃ earlier ∈ dirs, Path.components earlier = Path.components dir
    · have hdrop : ¬ ∀ earlier ∈ dirs, Path.components earlier ≠ Path.components dir := by
        push Not
        exact h
      rw [if_pos h, List.filter_cons_of_neg (by simpa [htake] using hdrop)]
      rfl
    · have hkeep : ∀ earlier ∈ dirs, Path.components earlier ≠ Path.components dir := by
        push Not at h
        exact h
      rw [if_neg h, List.filter_cons_of_pos (by simpa [htake] using hkeep)]
      rfl

/-- A directory is named among the first spellings, if not as it is spelled. -/
theorem mem_components_firstSpellings {dirs : List String} {named : List Path.Component} :
    named ∈ (firstSpellings dirs).map Path.components ↔ named ∈ dirs.map Path.components := by
  induction dirs using List.reverseRecOn with
  | nil => rfl
  | append_singleton dirs dir ih =>
      rw [firstSpellings_concat, List.map_append, List.map_append, List.mem_append,
        List.mem_append, ih]
      split
      · rename_i hnamed
        have hdir : Path.components dir ∈ dirs.map Path.components := by
          simpa using hnamed
        constructor
        · rintro (h | h)
          · exact .inl h
          · cases h
        · rintro (h | h)
          · exact .inl h
          · rw [List.map_singleton, List.mem_singleton] at h
            exact .inl (h ▸ hdir)
      · rfl

theorem firstSpellings_ne_nil {dirs : List String} (hdirs : dirs ≠ []) :
    firstSpellings dirs ≠ [] := by
  obtain ⟨dir, hdir⟩ := List.exists_mem_of_ne_nil dirs hdirs
  have hnamed : Path.components dir ∈ (firstSpellings dirs).map Path.components :=
    mem_components_firstSpellings.mpr (List.mem_map_of_mem hdir)
  obtain ⟨first, hfirst, -⟩ := List.mem_map.mp hnamed
  exact List.ne_nil_of_mem hfirst

theorem firstSpellings_subset (dirs : List String) : firstSpellings dirs ⊆ dirs := by
  intro dir hdir
  obtain ⟨⟨d, i⟩, hentry, rfl⟩ := List.mem_map.mp hdir
  obtain ⟨hi, hd⟩ := List.mem_zipIdx' (List.mem_filter.mp hentry).1
  rw [hd]
  exact List.getElem_mem hi

/-- **The directories are added in their first spellings**, although each is compared only with
those that were added before. -/
theorem foldl_addDirectory (dirs : List String) :
    dirs.foldl addDirectory [] = firstSpellings dirs := by
  induction dirs using List.reverseRecOn with
  | nil => rfl
  | append_singleton dirs dir ih =>
      have hfound : (firstSpellings dirs).any (Path.same dir) = true
          ↔ ∃ earlier ∈ dirs, Path.components earlier = Path.components dir := by
        calc (firstSpellings dirs).any (Path.same dir) = true
            ↔ Path.components dir ∈ (firstSpellings dirs).map Path.components := by
              rw [List.any_eq_true, List.mem_map]
              simp only [Path.same_eq_true_iff, eq_comm (a := Path.components dir)]
          _ ↔ Path.components dir ∈ dirs.map Path.components := mem_components_firstSpellings
          _ ↔ ∃ earlier ∈ dirs, Path.components earlier = Path.components dir := List.mem_map
      rw [List.foldl_append, List.foldl_cons, List.foldl_nil, ih, firstSpellings_concat,
        addDirectory]
      by_cases h : ∃ earlier ∈ dirs, Path.components earlier = Path.components dir
      · rw [if_pos h, if_pos (hfound.mpr h), List.append_nil]
      · rw [if_neg h, if_neg (mt hfound.mp h)]

/-! ## The search path -/

/-- What stands between the colons of a search path. -/
def listed (path : String) : List String := Text.between ':' path

/-- A search path as it is set lists what stands between its colons; an empty one lists nothing. -/
theorem searchedDirectories_eq (existing : Option String) :
    searchedDirectories existing = ((existing.filter (· ≠ "")).map listed).getD [] := by
  cases existing with
  | none => rfl
  | some value =>
      rw [searchedDirectories, Option.filter_some]
      by_cases h : value = ""
      · simp [h]
      · simp [h, listed, Text.between, Text.split_eq_splitOn, searchSeparator]

/-- A colon stands in a first spelling if it stands in a directory: it is part of a name. -/
theorem colon_mem_firstSpellings (dirs : List String) :
    (∃ dir ∈ firstSpellings dirs, ':' ∈ dir.toList) ↔ ∃ dir ∈ dirs, ':' ∈ dir.toList := by
  constructor
  · rintro ⟨dir, hdir, hcolon⟩
    exact ⟨dir, firstSpellings_subset dirs hdir, hcolon⟩
  · rintro ⟨dir, hdir, hcolon⟩
    obtain ⟨text, htext, hc⟩ := (Path.mem_iff_mem_name (by decide) (by decide) dir).mp hcolon
    obtain ⟨first, hfirst, hsame⟩ := List.mem_map.mp
      (mem_components_firstSpellings.mpr (List.mem_map_of_mem hdir))
    refine ⟨first, hfirst, (Path.mem_iff_mem_name (by decide) (by decide) first).mpr ?_⟩
    exact ⟨text, hsame ▸ htext, hc⟩

/-- What was searched before is cut at its colons, so only a directory can hold one. -/
theorem colon_mem_all_iff (dirs : List String) (existing : Option String) :
    (∃ dir ∈ firstSpellings dirs ++ searchedDirectories existing, ':' ∈ dir.toList)
      ↔ ∃ dir ∈ dirs, ':' ∈ dir.toList := by
  have hexisting : ∀ dir ∈ searchedDirectories existing, ':' ∉ dir.toList := by
    intro dir hdir
    rw [searchedDirectories_eq] at hdir
    cases hvalue : existing.filter (· ≠ "") with
    | none =>
        rw [hvalue] at hdir
        cases hdir
    | some value =>
        rw [hvalue] at hdir
        exact Text.notMem_of_mem_between hdir
  rw [← colon_mem_firstSpellings dirs]
  constructor
  · rintro ⟨dir, hdir, hcolon⟩
    rcases List.mem_append.mp hdir with hdir | hdir
    · exact ⟨dir, hdir, hcolon⟩
    · exact absurd hcolon (hexisting dir hdir)
  · rintro ⟨dir, hdir, hcolon⟩
    exact ⟨dir, List.mem_append_left _ hdir, hcolon⟩

/-- **What the loader searches.** There is no search path exactly if a directory holds a colon.
Otherwise its colons separate the directories, each where it stands first and as it is spelled
there, and behind them everything that was searched before, unless that was empty. -/
theorem librarySearchPath_lists {dirs : List String} (hdirs : dirs ≠ [])
    (existing : Option String) :
    (librarySearchPath dirs existing = none ↔ ∃ dir ∈ dirs, ':' ∈ dir.toList)
      ∧ ∀ path, librarySearchPath dirs existing = some path →
        listed path = firstSpellings dirs ++ ((existing.filter (· ≠ "")).map listed).getD [] := by
  have hcontains : ∀ dir : String, dir.contains searchSeparator = decide (':' ∈ dir.toList) :=
    fun _ => String.contains_char_eq
  have hcolon : (firstSpellings dirs ++ searchedDirectories existing).any
      (·.contains searchSeparator) = true ↔ ∃ dir ∈ dirs, ':' ∈ dir.toList := by
    rw [← colon_mem_all_iff dirs existing, List.any_eq_true]
    simp only [hcontains, decide_eq_true_eq]
  rw [librarySearchPath, foldl_addDirectory]
  split
  · rename_i hsome
    exact ⟨iff_of_true rfl (hcolon.mp hsome), fun path hpath => by cases hpath⟩
  · rename_i hnone
    have hnot : ¬ ∃ dir ∈ dirs, ':' ∈ dir.toList := fun h => hnone (hcolon.mpr h)
    refine ⟨iff_of_false nofun hnot, ?_⟩
    rintro path ⟨⟩
    -- there is a first directory, so something stands between the colons
    have hne : firstSpellings dirs ++ searchedDirectories existing ≠ [] :=
      List.append_ne_nil_of_left_ne_nil (firstSpellings_ne_nil hdirs) _
    have hparts : ∀ dir ∈ firstSpellings dirs ++ searchedDirectories existing,
        ':' ∉ dir.toList := by
      intro dir hdir hmem
      exact hnot ((colon_mem_all_iff dirs existing).mp ⟨dir, hdir, hmem⟩)
    rw [← searchedDirectories_eq, listed, searchSeparator, Text.between_intercalate hne hparts]

/-- Directories that are spelled in several ways, before a search path with empty entries. -/
theorem librarySearchPath_lists_spellings :
    ["/p", "/q/", "/p/.", "/q"] ≠ [] ∧ ∃ path,
      librarySearchPath ["/p", "/q/", "/p/.", "/q"] (some ":/p::/lib") = some path
        ∧ listed path = ["/p", "/q/", "", "/p", "", "/lib"] := by
  have hne : ["/p", "/q/", "/p/.", "/q"] ≠ [] := List.cons_ne_nil _ _
  obtain ⟨hnone, hsome⟩ := librarySearchPath_lists hne (some ":/p::/lib")
  have hcolon : ¬ ∃ dir ∈ ["/p", "/q/", "/p/.", "/q"], ':' ∈ dir.toList := by decide +kernel
  obtain ⟨path, hpath⟩ := Option.ne_none_iff_exists'.mp (mt hnone.mp hcolon)
  have hfirst : firstSpellings ["/p", "/q/", "/p/.", "/q"] = ["/p", "/q/"] := by decide +kernel
  have hbefore : (((some ":/p::/lib").filter (· ≠ "")).map listed).getD []
      = ["", "/p", "", "/lib"] := by decide +kernel
  refine ⟨hne, path, hpath, ?_⟩
  rw [hsome path hpath, hfirst, hbefore]
  rfl

end Platform

end PdfWorker
