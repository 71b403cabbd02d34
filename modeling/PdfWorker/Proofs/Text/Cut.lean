import PdfWorker.Proofs.Text.Octets
set_option autoImplicit false

/-! # Where a text is cut

A text is cut to a number of octets, but only between two characters: `Longest` says which beginning
that is in terms of the UTF-8 form, and `longest_fit` that `fit` gives it. `afterColons_eq_some` and
`count_of_afterColons` say where a text is cut at colons.
-/

namespace PdfWorker.Text

/-! ## Beginnings of a text -/

theorem octets_le_of_front {front text : List Char} (h : front <+: text) :
    octets front ≤ octets text := by
  obtain ⟨back, rfl⟩ := h
  rw [octets_append]
  exact Nat.le_add_right _ _

theorem fit_front (limit : Nat) (text : List Char) : fit limit text <+: text := by
  induction text generalizing limit with
  | nil => exact List.prefix_refl []
  | cons c cs ih =>
      rw [fit]
      split
      · exact List.cons_prefix_cons.mpr ⟨rfl, ih _⟩
      · exact List.nil_prefix

theorem octets_fit_le (limit : Nat) (text : List Char) : octets (fit limit text) ≤ limit := by
  induction text generalizing limit with
  | nil => exact Nat.zero_le limit
  | cons c cs ih =>
      rw [fit]
      split
      · have htail := ih (limit - c.utf8Size)
        rw [octets_cons]
        omega
      · exact Nat.zero_le limit

/-- Every beginning that is short enough is a beginning of the one that fits. -/
theorem prefix_fit {limit : Nat} {front text : List Char} (h : front <+: text)
    (hlimit : octets front ≤ limit) : front <+: fit limit text := by
  induction text generalizing limit front with
  | nil =>
      rw [List.prefix_nil.mp h]
      exact List.nil_prefix
  | cons c cs ih =>
      cases front with
      | nil => exact List.nil_prefix
      | cons d ds =>
          obtain ⟨rfl, htail⟩ := List.cons_prefix_cons.mp h
          rw [octets_cons] at hlimit
          rw [fit, if_pos (by omega)]
          exact List.cons_prefix_cons.mpr ⟨rfl, ih htail (by omega)⟩

theorem fit_of_le {limit : Nat} {text : List Char} (h : octets text ≤ limit) :
    fit limit text = text :=
  (fit_front limit text).eq_of_length_le (prefix_fit (List.prefix_refl text) h).length_le

/-- What fits of a longer text falls short of the limit by less than a character. -/
theorem lt_octets_fit {limit : Nat} {text : List Char} (h : limit < octets text) :
    limit < octets (fit limit text) + 4 := by
  obtain ⟨back, hback⟩ := fit_front limit text
  cases back with
  | nil =>
      have hle := octets_fit_le limit text
      rw [List.append_nil] at hback
      rw [hback] at hle
      omega
  | cons c cs =>
      -- the next character does not fit any more
      by_contra hshort
      have hc := c.utf8Size_le_four
      have hnext : fit limit text ++ [c] <+: text := ⟨cs, by simpa using hback⟩
      have hlonger : fit limit text ++ [c] <+: fit limit text := by
        refine prefix_fit hnext ?_
        rw [octets_append, octets_cons, octets_nil]
        omega
      have hlength := hlonger.length_le
      rw [List.length_append, List.length_singleton] at hlength
      omega

/-- **The longest beginning** of a text that takes at most `limit` octets and ends between two
characters. -/
structure Longest (limit : Nat) (text front : String) : Prop where
  beginning : front.toByteArray = text.toByteArray.extract 0 front.utf8ByteSize
  boundary : String.Pos.Raw.IsValid text ⟨front.utf8ByteSize⟩
  within : front.utf8ByteSize ≤ limit
  longest : ∀ n, n ≤ limit → String.Pos.Raw.IsValid text ⟨n⟩ → n ≤ front.utf8ByteSize

/-- **What fits is the longest beginning.** -/
theorem longest_fit (limit : Nat) (text : List Char) :
    Longest limit (String.ofList text) (String.ofList (fit limit text)) := by
  obtain ⟨back, hback⟩ := fit_front limit text
  have hparts : String.ofList text = String.ofList (fit limit text) ++ String.ofList back := by
    rw [← String.ofList_append, hback]
  constructor
  · rw [hparts, String.toByteArray_append, ByteArray.extract_append_eq_left]
    exact (String.size_toByteArray ..).symm
  · exact String.Pos.Raw.isValid_iff_exists_append.mpr ⟨_, _, hparts, rfl⟩
  · rw [utf8ByteSize_ofList]
    exact octets_fit_le limit text
  · intro n hn hvalid
    -- a boundary is the end of a beginning, and this one is short enough
    obtain ⟨i, hi⟩ := String.Pos.Raw.isValid_ofList.mp hvalid
    rw [utf8ByteSize_ofList] at hi ⊢
    have hsize : n = octets (text.take i) := hi
    rw [hsize] at hn ⊢
    exact octets_le_of_front (prefix_fit (List.take_prefix i text) hn)

/-! ## Colons -/

theorem afterColons_eq_some {n : Nat} {text rest : List Char}
    (h : afterColons (n + 1) text = some rest) :
    ∃ front, text = front ++ ':' :: rest ∧ front.count ':' = n := by
  induction text generalizing n with
  | nil => cases h
  | cons c cs ih =>
      rw [afterColons] at h
      split at h
      · rename_i hc
        cases n with
        | zero =>
            rw [afterColons] at h
            cases h
            exact ⟨[], by rw [hc, List.nil_append], rfl⟩
        | succ n =>
            obtain ⟨front, rfl, hcount⟩ := ih h
            exact ⟨c :: front, rfl, by rw [hc, List.count_cons_self, hcount]⟩
      · rename_i hc
        obtain ⟨front, rfl, hcount⟩ := ih h
        exact ⟨c :: front, rfl, by rw [List.count_cons_of_ne hc, hcount]⟩

theorem count_of_afterColons {n : Nat} {text : List Char} (h : afterColons n text = none) :
    text.count ':' < n := by
  induction text generalizing n with
  | nil =>
      cases n with
      | zero => cases h
      | succ n => exact Nat.succ_pos n
  | cons c cs ih =>
      cases n with
      | zero => cases h
      | succ n =>
          rw [afterColons] at h
          split at h
          · rename_i hc
            have htail := ih h
            rw [hc, List.count_cons_self]
            omega
          · rename_i hc
            rw [List.count_cons_of_ne hc]
            exact ih h

end PdfWorker.Text
