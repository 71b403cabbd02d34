import Mathlib.Algebra.Order.Ring.Nat
import PdfWorker.Text.Cut
import PdfWorker.Text.Lossy
set_option autoImplicit false

/-! # How long texts are

`Text.octets` measures the UTF-8 form of a text, and adds up over its parts. Cutting a text makes
nothing longer: what is dropped is dropped, and the lines of a text are together no longer than the
text. `length_decodeLossy` says that reading octets leniently gives at most one character for each.
-/

namespace PdfWorker.Text

/-! ## Octets -/

theorem foldl_utf8Size (n : Nat) (text : List Char) :
    text.foldl (fun n c => n + c.utf8Size) n = n + octets text := by
  induction text generalizing n with
  | nil => rfl
  | cons c cs ih =>
      have hoctets : octets (c :: cs) = 0 + c.utf8Size + octets cs := ih (0 + c.utf8Size)
      rw [List.foldl_cons, ih, hoctets]
      omega

@[simp] theorem octets_nil : octets [] = 0 := rfl

@[simp] theorem octets_cons (c : Char) (cs : List Char) :
    octets (c :: cs) = c.utf8Size + octets cs := by
  have h : octets (c :: cs) = 0 + c.utf8Size + octets cs := foldl_utf8Size (0 + c.utf8Size) cs
  rw [h, Nat.zero_add]

@[simp] theorem octets_append (front back : List Char) :
    octets (front ++ back) = octets front + octets back := by
  induction front with
  | nil => rw [List.nil_append, octets_nil, Nat.zero_add]
  | cons c cs ih => rw [List.cons_append, octets_cons, octets_cons, ih, Nat.add_assoc]

/-- A character takes at least one octet. -/
theorem length_le_octets (text : List Char) : text.length ≤ octets text := by
  induction text with
  | nil => exact Nat.le_refl 0
  | cons c cs ih =>
      have hc := c.utf8Size_pos
      rw [List.length_cons, octets_cons]
      omega

/-- The octets of a string are those of its characters. -/
theorem utf8ByteSize_ofList (text : List Char) :
    (String.ofList text).utf8ByteSize = octets text := by
  rw [← String.size_toByteArray, String.toByteArray_ofList]
  induction text with
  | nil => rfl
  | cons c cs ih =>
      have hc : [c].utf8Encode.size = c.utf8Size := by
        rw [List.utf8Encode_singleton, List.size_toByteArray, String.length_utf8EncodeChar]
      rw [List.utf8Encode_cons, ByteArray.size_append, hc, ih, octets_cons]

theorem octets_toList (s : String) : octets s.toList = s.utf8ByteSize := by
  rw [← utf8ByteSize_ofList, String.ofList_toList]

theorem length_le_utf8ByteSize (s : String) : s.toList.length ≤ s.utf8ByteSize := by
  rw [← octets_toList]
  exact length_le_octets s.toList

/-! ## Parts of a text -/

theorem length_fit (limit : Nat) (text : List Char) : (fit limit text).length ≤ text.length := by
  induction text generalizing limit with
  | nil => exact Nat.le_refl 0
  | cons c cs ih =>
      rw [fit]
      split
      · have htail := ih (limit - c.utf8Size)
        simp only [List.length_cons]
        omega
      · exact Nat.zero_le _

theorem afterColons_suffix {n : Nat} {text rest : List Char} (h : afterColons n text = some rest) :
    rest <:+ text := by
  induction text generalizing n with
  | nil =>
      cases n with
      | zero =>
          cases h
          exact List.suffix_refl _
      | succ n => cases h
  | cons c cs ih =>
      cases n with
      | zero =>
          cases h
          exact List.suffix_refl _
      | succ n =>
          rw [afterColons] at h
          split at h
          · exact (ih h).trans (List.suffix_cons c cs)
          · exact (ih h).trans (List.suffix_cons c cs)

theorem length_withoutReturn (line : List Char) : (withoutReturn line).length ≤ line.length := by
  unfold withoutReturn
  split
  · rw [List.length_dropLast]
    omega
  · exact Nat.le_refl _

/-- The pieces of a text have its characters, but for the marks between them. -/
theorem sum_length_splitFrom (mark : Char) (done : List (List Char)) (begun text : List Char) :
    ((splitFrom mark done begun text).map List.length).sum
      ≤ (done.map List.length).sum + begun.length + text.length := by
  induction text generalizing done begun with
  | nil =>
      rw [splitFrom, List.map_reverse, List.sum_reverse, List.map_cons, List.sum_cons,
        List.length_reverse]
      omega
  | cons c cs ih =>
      rw [splitFrom]
      split
      · have hrest := ih (begun.reverse :: done) []
        simp only [List.map_cons, List.sum_cons, List.length_reverse, List.length_nil] at hrest
        rw [List.length_cons]
        omega
      · have hrest := ih done (c :: begun)
        simp only [List.length_cons] at hrest ⊢
        omega

/-- **The lines of a text** are together no longer than the text. -/
theorem sum_length_lines (text : List Char) : ((lines text).map List.length).sum ≤ text.length := by
  have h := sum_length_splitFrom '\n' [] [] text
  rw [List.map_nil, List.sum_nil, List.length_nil, Nat.zero_add] at h
  exact h

/-! ## Lenient decoding -/

namespace Lossy

/-- The characters that a state has found, with one for a begun sequence. -/
def State.size (s : State) : Nat :=
  s.found.length + if s.begun.isSome then 1 else 0

theorem size_fresh (found : List Char) (b : UInt8) : (fresh found b).size ≤ found.length + 1 := by
  unfold fresh
  split
  · exact Nat.le_refl _
  · split
    · exact Nat.le_refl _
    · exact Nat.le_refl _

/-- **An octet gives at most one character.** -/
theorem size_octet (s : State) (b : UInt8) : (octet s b).size ≤ s.size + 1 := by
  obtain ⟨found, begun⟩ := s
  unfold octet
  cases begun with
  | none => exact size_fresh found b
  | some p =>
      -- the begun sequence has been counted, so ending it costs nothing
      simp only
      split
      · split
        · simp [State.size]
        · simp [State.size]
      · exact size_fresh (replacement :: found) b

theorem length_text (s : State) : s.text.length = s.size := by
  obtain ⟨found, begun⟩ := s
  cases begun with
  | none => simp [State.text, State.size]
  | some p => simp [State.text, State.size]

theorem size_foldl_octet (raw : List UInt8) (s : State) :
    (raw.foldl octet s).size ≤ s.size + raw.length := by
  induction raw generalizing s with
  | nil => exact Nat.le_refl _
  | cons b rest ih =>
      have hstep := size_octet s b
      have hrest := ih (octet s b)
      rw [List.foldl_cons, List.length_cons]
      omega

end Lossy

/-- There are no more characters than octets. -/
theorem length_decodeLossy (raw : List UInt8) : (decodeLossy raw).length ≤ raw.length := by
  have h := Lossy.size_foldl_octet raw Lossy.start
  have hstart : Lossy.start.size = 0 := rfl
  rw [decodeLossy, Lossy.length_text]
  omega

/-- The octets of an array, taken one by one. -/
theorem toList_loop (raw : ByteArray) (i : Nat) (seen : List UInt8) :
    ByteArray.toList.loop raw i seen = seen.reverse ++ raw.data.toList.drop i := by
  fun_induction ByteArray.toList.loop raw i seen with
  | case1 i seen h ih =>
      have hi : i < raw.data.toList.length := h
      have hget : raw.get! i = raw.data.toList[i] := getElem!_pos raw.data i h
      rw [ih, List.reverse_cons, List.append_assoc, List.singleton_append, hget,
        ← List.drop_eq_getElem_cons hi]
  | case2 i seen h =>
      have hi : raw.data.toList.length ≤ i := Nat.le_of_not_lt h
      rw [List.drop_eq_nil_of_le hi, List.append_nil]

theorem toList_eq (raw : ByteArray) : raw.toList = raw.data.toList :=
  toList_loop raw 0 []

theorem length_toList (raw : ByteArray) : raw.toList.length = raw.size := by
  rw [toList_eq]
  rfl

end PdfWorker.Text
