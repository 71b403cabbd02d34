import PdfWorker.Platform
set_option autoImplicit false

/-! # Font paths in the environment

No environment variable can hold a NUL character. `applyFontPaths_eq_none_iff` says exactly when
font paths cannot be put into the environment: when one of them holds such a character.
-/

namespace PdfWorker.Platform

theorem nul_ne_fontSeparator (p : Platform) : '\x00' ≠ p.fontSeparator := by
  cases p <;> decide

/-- A character that is no separator stands in a joined text exactly if it stands in a part. -/
theorem mem_intercalate_singleton {c separator : Char} (hc : c ≠ separator)
    (parts : List String) :
    c ∈ (String.intercalate (String.singleton separator) parts).toList
      ↔ ∃ part ∈ parts, c ∈ part.toList := by
  rw [String.toList_intercalate]
  induction parts with
  | nil => simp
  | cons part rest ih =>
      cases rest with
      | nil => simp
      | cons next more =>
          rw [List.map_cons, List.map_cons, List.intercalate_cons_cons, ← List.map_cons,
            List.mem_append, List.mem_append, ih]
          simp [hc]

theorem joinFontPaths_eq_none_iff {p : Platform} {paths : List String} :
    p.joinFontPaths paths = none ↔ ∀ path ∈ paths, path = "" := by
  unfold joinFontPaths
  simp

/-- **Joined font paths hold a NUL character** exactly if one of the paths does. -/
theorem nul_mem_joinFontPaths_iff {p : Platform} {paths : List String} {joined : String}
    (h : p.joinFontPaths paths = some joined) :
    '\x00' ∈ joined.toList ↔ ∃ path ∈ paths, '\x00' ∈ path.toList := by
  have hjoined : String.intercalate (String.singleton p.fontSeparator) (paths.filter (· ≠ ""))
      = joined := by
    unfold joinFontPaths at h
    dsimp only at h
    split at h
    · cases h
    · exact Option.some.inj h
  rw [← hjoined, mem_intercalate_singleton p.nul_ne_fontSeparator]
  constructor
  · rintro ⟨path, hm, hnul⟩
    exact ⟨path, (List.mem_filter.mp hm).1, hnul⟩
  · rintro ⟨path, hm, hnul⟩
    refine ⟨path, List.mem_filter.mpr ⟨hm, ?_⟩, hnul⟩
    -- an empty path holds no character at all
    have hne : path ≠ "" := by
      rintro rfl
      cases hnul
    exact decide_eq_true hne

/-- **Exactly the font paths with a NUL character are refused by the environment.** -/
theorem applyFontPaths_eq_none_iff (p : Platform) (paths : List String) (env : Environment) :
    p.applyFontPaths paths env = none ↔ ∃ path ∈ paths, '\x00' ∈ path.toList := by
  unfold applyFontPaths
  cases hjoin : p.joinFontPaths paths with
  | none =>
      constructor
      · rintro ⟨⟩
      · rintro ⟨path, hm, hnul⟩
        rw [joinFontPaths_eq_none_iff.mp hjoin path hm] at hnul
        cases hnul
  | some joined =>
      rw [← nul_mem_joinFontPaths_iff hjoin]
      dsimp only
      rw [Environment.set?, String.contains_char_eq]
      simp

end PdfWorker.Platform
