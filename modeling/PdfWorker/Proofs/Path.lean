import PdfWorker.Options
import PdfWorker.Staging
import Mathlib.Data.List.TakeWhile
set_option autoImplicit false

/-! # The extension of a path

`Path.extension?` is the usual rule: what follows the last dot of the last name. A staged file has
the extension that it was made with, whatever directory it stands in (`Staging.extension?_path`).
-/

namespace PdfWorker

namespace Text

theorem splitFrom_of_notMem {mark : Char} {text : List Char} (h : mark ∉ text)
    (done : List (List Char)) (begun : List Char) :
    splitFrom mark done begun text = done.reverse ++ [begun.reverse ++ text] := by
  induction text generalizing begun with
  | nil => rw [splitFrom, List.append_nil, List.reverse_cons]
  | cons c rest ih =>
      obtain ⟨hc, hrest⟩ := not_or.mp (mt List.mem_cons.mpr h)
      rw [splitFrom, if_neg (Ne.symm hc), ih hrest, List.reverse_cons, List.append_assoc,
        List.singleton_append]

/-- The last piece is what follows the last mark. -/
theorem getLast?_splitFrom {mark : Char} {last : List Char} (h : mark ∉ last) (front : List Char)
    (done : List (List Char)) (begun : List Char) :
    (splitFrom mark done begun (front ++ mark :: last)).getLast? = some last := by
  induction front generalizing done begun with
  | nil =>
      rw [List.nil_append, splitFrom, if_pos rfl, splitFrom_of_notMem h, List.reverse_nil,
        List.nil_append, List.getLast?_append, List.getLast?_singleton]
      rfl
  | cons c rest ih =>
      rw [List.cons_append, splitFrom]
      split
      · exact ih _ _
      · exact ih _ _

end Text

namespace Path

/-- **The extension of a path**: what follows the last dot of its last name, unless the name leads
up or there is nothing before the dot. -/
def extension? (path : String) : Option String :=
  ((names path).getLast?.filter (· ≠ "..")).bind fun name =>
    match name.toList.reverse.dropWhile (· ≠ '.') with
    | _ :: _ :: _ => some (String.ofList (name.toList.reverse.takeWhile (· ≠ '.')).reverse)
    | _ => none

/-- A joined path is the name, or it ends in a slash and the name. -/
theorem join_cases (dir name : String) :
    join dir name = name ∨ ∃ front, (join dir name).toList = front ++ '/' :: name.toList := by
  unfold join
  split
  · exact .inl rfl
  · split
    · rename_i hslash
      obtain ⟨front, hfront⟩ := List.getLast?_eq_some_iff.mp hslash
      exact .inr ⟨front, by rw [String.toList_append, hfront]; simp⟩
    · exact .inr ⟨dir.toList, by rw [String.toList_append, String.toList_append]; simp⟩

/-- The last name of a joined path is the name. -/
theorem getLast?_names_join {name : String} (hslash : '/' ∉ name.toList)
    (hname : isName name = true) (dir : String) :
    (names (join dir name)).getLast? = some name := by
  have hpieces : (pieces (join dir name)).getLast? = some name := by
    rw [pieces, Text.split, List.getLast?_map]
    rcases join_cases dir name with hjoin | ⟨front, hjoin⟩
    · rw [hjoin, Text.splitFrom_of_notMem hslash]
      simp
    · rw [hjoin, Text.getLast?_splitFrom hslash, Option.map_some, String.ofList_toList]
  obtain ⟨front, hfront⟩ := List.getLast?_eq_some_iff.mp hpieces
  rw [names, hfront, List.filter_append, List.filter_cons_of_pos hname, List.filter_nil,
    List.getLast?_append, List.getLast?_singleton]
  rfl

/-- The extension of a name that is put together. -/
theorem extension?_join {stem extension : String} (hslash : '/' ∉ (stem ++ "." ++ extension).toList)
    (hdot : '.' ∉ extension.toList) (hstem : stem ≠ "") (hextension : extension ≠ "")
    (dir : String) : extension? (join dir (stem ++ "." ++ extension)) = some extension := by
  have hchars : (stem ++ "." ++ extension).toList.reverse
      = extension.toList.reverse ++ '.' :: stem.toList.reverse := by
    rw [String.toList_append, String.toList_append]
    simp
  have hkept : ∀ c ∈ extension.toList.reverse, decide (c ≠ '.') = true := by
    intro c hc
    refine decide_eq_true fun heq => hdot ?_
    rwa [heq, List.mem_reverse] at hc
  have hstem' : stem.toList ≠ [] := fun h => hstem (String.toList_eq_nil_iff.mp h)
  have hextension' : extension.toList ≠ [] := fun h => hextension (String.toList_eq_nil_iff.mp h)
  have hlength : 3 ≤ (stem ++ "." ++ extension).toList.length := by
    have h₁ := List.length_pos_iff.mpr hstem'
    have h₂ := List.length_pos_iff.mpr hextension'
    rw [← List.length_reverse, hchars, List.length_append, List.length_cons, List.length_reverse,
      List.length_reverse]
    omega
  have hne : ∀ short : String, short.toList.length < 3 → stem ++ "." ++ extension ≠ short := by
    intro short hshort heq
    rw [heq] at hlength
    omega
  -- it is longer than the names that mean nothing or lead up
  have hname : isName (stem ++ "." ++ extension) = true :=
    decide_eq_true ⟨hne "" (by decide), hne "." (by decide)⟩
  have hup : decide (stem ++ "." ++ extension ≠ "..") = true :=
    decide_eq_true (hne ".." (by decide))
  rw [extension?, getLast?_names_join hslash hname, Option.filter_some, if_pos hup,
    Option.bind_some, hchars, List.takeWhile_append_of_pos hkept,
    List.dropWhile_append_of_pos hkept]
  obtain ⟨c, rest, hrest⟩ := List.exists_cons_of_ne_nil (mt List.reverse_eq_nil_iff.mp hstem')
  rw [hrest]
  simp

end Path

namespace Staging

/-- No slash stands in the number of a staged file. -/
theorem slash_notMem_tag (number : Nat) : '/' ∉ (tag number).toList := by
  intro h
  rw [tag, String.toList_ofList, List.mem_append] at h
  rcases h with h | h
  · cases (List.mem_replicate.mp h).2
  · have hdigit := Nat.isDigit_of_mem_toDigits (by decide) (by decide) h
    revert hdigit
    decide

/-- **A staged file has the extension that it was made with.** -/
theorem extension?_path {extension : String} (hslash : '/' ∉ extension.toList)
    (hdot : '.' ∉ extension.toList) (hextension : extension ≠ "") (dir : String) (number : Nat) :
    Path.extension? (path dir extension number) = some extension := by
  refine Path.extension?_join ?_ hdot ?_ hextension dir
  · have htag := slash_notMem_tag number
    simp [String.toList_append, stem, htag, hslash]
  · intro h
    have hfront := congrArg String.toList h
    simp [String.toList_append, stem] at hfront

/-- So the staged file of a document has the extension of its format. -/
theorem extension?_path_of_format {format : Format} {extension : String}
    (h : format.extension? = some extension) (dir : String) (number : Nat) :
    Path.extension? (path dir extension number) = some extension := by
  cases format with
  | unknown => cases h
  | docx | xlsx | pptx =>
      cases h
      exact extension?_path (by decide) (by decide) (by decide) dir number

end Staging

end PdfWorker
