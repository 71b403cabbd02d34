import PdfWorker.Proofs.Text.Cut
import PdfWorker.Proofs.Text.Occurrences
set_option autoImplicit false

/-! # Slices of texts between offsets

An offset counts octets of the UTF-8 form of a text. `slice?` takes what stands between two offsets,
and fails unless they are in order and both of them boundaries, where a character begins or the text
ends. `offsets` are where the octets of a pattern stand among those of a text. No character has the
first octet of another one inside, so the octets of a pattern stand where its characters do
(`offsets_cons`), and the first of these offsets is where `find?` cuts (`head?_offsets`).
-/

namespace PdfWorker.Text

/-! ## Boundaries -/

/-- **A boundary** of a text is an offset where a character begins, or the end. -/
def IsBoundary (text : String) (offset : Nat) : Prop :=
  String.Pos.Raw.IsValid text ⟨offset⟩

instance (text : String) (offset : Nat) : Decidable (IsBoundary text offset) :=
  inferInstanceAs (Decidable (String.Pos.Raw.IsValid text ⟨offset⟩))

theorem IsBoundary.le_utf8ByteSize {text : String} {offset : Nat} (h : IsBoundary text offset) :
    offset ≤ text.utf8ByteSize :=
  h.le_rawEndPos

/-- Where a beginning of a text ends, there is a boundary. -/
theorem isBoundary_octets (front back : List Char) :
    IsBoundary (String.ofList (front ++ back)) (octets front) := by
  refine String.Pos.Raw.isValid_iff_exists_append.mpr
    ⟨String.ofList front, String.ofList back, String.ofList_append, ?_⟩
  rw [String.Pos.Raw.ext_iff, String.byteIdx_rawEndPos, utf8ByteSize_ofList]

/-- The text between two offsets, if they are boundaries and in order. -/
def slice? (text : String) (start stop : Nat) : Option String :=
  if h : start ≤ stop ∧ IsBoundary text start ∧ IsBoundary text stop then
    some (text.extract ⟨⟨start⟩, h.2.1⟩ ⟨⟨stop⟩, h.2.2⟩)
  else none

/-- The text from an offset on. -/
def sliceFrom? (text : String) (start : Nat) : Option String :=
  slice? text start text.utf8ByteSize

/-- The text up to an offset. -/
def sliceTo? (text : String) (stop : Nat) : Option String :=
  slice? text 0 stop

/-- **Which slices there are.** -/
theorem isSome_slice?_iff {text : String} {start stop : Nat} :
    (slice? text start stop).isSome
      ↔ start ≤ stop ∧ stop ≤ text.utf8ByteSize ∧ IsBoundary text start ∧ IsBoundary text stop := by
  unfold slice?
  split
  · rename_i h
    exact iff_of_true rfl ⟨h.1, h.2.2.le_utf8ByteSize, h.2⟩
  · rename_i h
    exact iff_of_false nofun fun hall => h ⟨hall.1, hall.2.2⟩

/-- A slice is the part of the text that stands between the offsets. -/
theorem slice?_append (front part back : List Char) :
    slice? (String.ofList (front ++ part ++ back)) (octets front) (octets (front ++ part))
      = some (String.ofList part) := by
  have hstart : IsBoundary (String.ofList (front ++ part ++ back)) (octets front) := by
    rw [List.append_assoc]
    exact isBoundary_octets front (part ++ back)
  have hstop := isBoundary_octets (front ++ part) back
  have hle : octets front ≤ octets (front ++ part) := octets_le_of_front (List.prefix_append _ _)
  rw [slice?, dif_pos ⟨hle, hstart, hstop⟩]
  have hfront : (String.ofList (front ++ part ++ back)).toByteArray
      = (String.ofList (front ++ part)).toByteArray ++ (String.ofList back).toByteArray := by
    rw [String.ofList_append, String.toByteArray_append]
  have hpart : (String.ofList (front ++ part)).toByteArray
      = (String.ofList front).toByteArray ++ (String.ofList part).toByteArray := by
    rw [String.ofList_append, String.toByteArray_append]
  have hsize : ∀ text : List Char, (String.ofList text).toByteArray.size = octets text := by
    intro text
    rw [String.size_toByteArray, utf8ByteSize_ofList]
  refine congrArg some (String.toByteArray_inj.mp ?_)
  rw [String.toByteArray_extract, hfront]
  dsimp only
  rw [← hsize (front ++ part), ByteArray.extract_append_size_left, hpart]
  refine ByteArray.extract_append_eq_right (hsize front).symm ?_
  rw [ByteArray.size_append]

theorem sliceFrom?_append (front back : List Char) :
    sliceFrom? (String.ofList (front ++ back)) (octets front) = some (String.ofList back) := by
  have h := slice?_append front back []
  rw [List.append_nil] at h
  rw [sliceFrom?, utf8ByteSize_ofList]
  exact h

theorem sliceTo?_append (front back : List Char) :
    sliceTo? (String.ofList (front ++ back)) (octets front) = some (String.ofList front) :=
  slice?_append [] front back

/-- No slice begins or ends inside a character. -/
example : slice? "é\"" 0 1 = none ∧ slice? "é\"" 0 2 = some "é" := by
  decide +kernel

/-! ## The last boundary before a limit -/

/-- The last boundary that is not behind an offset, looked for by going back from it. It fails if it
would have to go back behind the beginning of the text. -/
def lastBoundary? (text : String) : Nat → Option Nat
  | 0 => if IsBoundary text 0 then some 0 else none
  | n + 1 => if IsBoundary text (n + 1) then some (n + 1) else lastBoundary? text n

/-- It is where the longest beginning within the limit ends. -/
theorem lastBoundary?_eq (limit : Nat) (text : List Char) :
    lastBoundary? (String.ofList text) limit = some (octets (fit limit text)) := by
  obtain ⟨-, hboundary, hwithin, hlongest⟩ := longest_fit limit text
  rw [utf8ByteSize_ofList] at hboundary hwithin hlongest
  have hback : ∀ n, octets (fit limit text) ≤ n → n ≤ limit →
      lastBoundary? (String.ofList text) n = some (octets (fit limit text)) := by
    intro n hle hlimit
    induction n with
    | zero =>
        have hzero : octets (fit limit text) = 0 := Nat.le_zero.mp hle
        rw [hzero] at hboundary ⊢
        exact if_pos hboundary
    | succ n ih =>
        rw [lastBoundary?]
        split
        · rename_i hn
          exact congrArg some (Nat.le_antisymm (hlongest (n + 1) hlimit hn) hle)
        · rename_i hn
          have hne : octets (fit limit text) ≠ n + 1 := fun he => hn (he ▸ hboundary)
          exact ih (by omega) (by omega)
  exact hback limit hwithin (Nat.le_refl limit)

/-! ## Where a pattern stands -/

/-- The octets of a text. -/
def octetList (text : String) : List UInt8 := text.toByteArray.data.toList

/-- **The offsets of a pattern**: those where its octets stand among the octets of the text. -/
def offsets (pattern : List Char) (text : String) : List Nat :=
  (List.range (text.utf8ByteSize + 1)).filter fun offset =>
    (octetList (String.ofList pattern)).isPrefixOf ((octetList text).drop offset)

theorem octetList_append (front back : List Char) :
    octetList (String.ofList (front ++ back))
      = octetList (String.ofList front) ++ octetList (String.ofList back) := by
  rw [octetList, String.ofList_append, String.toByteArray_append, ByteArray.data_append,
    Array.toList_append]
  rfl

theorem octetList_cons (c : Char) (cs : List Char) :
    octetList (String.ofList (c :: cs))
      = String.utf8EncodeChar c ++ octetList (String.ofList cs) := by
  have hc : octetList (String.ofList [c]) = String.utf8EncodeChar c := by
    rw [octetList, String.toByteArray_ofList, List.utf8Encode_singleton,
      List.toList_data_toByteArray]
  rw [← List.singleton_append, octetList_append, hc]

/-- The octets of a pattern begin those of a text exactly if its characters begin the text. -/
theorem octetList_prefix_iff {pattern text : List Char} :
    octetList (String.ofList pattern) <+: octetList (String.ofList text) ↔ pattern <+: text := by
  constructor
  · rintro ⟨rest, hrest⟩
    refine List.isPrefix_of_utf8Encode_append_eq_utf8Encode rest.toByteArray ?_
    rw [← String.toByteArray_ofList, ← String.toByteArray_ofList]
    refine ByteArray.ext (Array.toList_inj.mp ?_)
    rw [ByteArray.data_append, Array.toList_append, List.toList_data_toByteArray]
    exact hrest
  · rintro ⟨rest, rfl⟩
    rw [octetList_append]
    exact List.prefix_append _ _

/-- Inside a character no character begins, and so no pattern. -/
theorem not_prefix_inside {pattern : List Char} (hne : pattern ≠ []) {c : Char} {n : Nat}
    (hpos : 0 < n) (hinside : n < c.utf8Size) (back : List UInt8) :
    ¬ octetList (String.ofList pattern) <+: (String.utf8EncodeChar c ++ back).drop n := by
  obtain ⟨d, ds, rfl⟩ := List.exists_cons_of_ne_nil hne
  rintro ⟨rest, hrest⟩
  have hd : 0 < (String.utf8EncodeChar d).length := by
    rw [String.length_utf8EncodeChar]
    exact d.utf8Size_pos
  have hc : n < (String.utf8EncodeChar c).length := by
    rw [String.length_utf8EncodeChar]
    exact hinside
  -- the octet at the offset would be the first octet of a character
  have hsame : (String.utf8EncodeChar d)[0] = (String.utf8EncodeChar c)[n] := by
    have hoctet := congrArg (fun octets => octets[0]?) hrest
    rw [octetList_cons, List.append_assoc] at hoctet
    simp only [List.getElem?_drop, Nat.add_zero] at hoctet
    rw [List.getElem?_append_left hd, List.getElem?_append_left hc, List.getElem?_eq_getElem hd,
      List.getElem?_eq_getElem hc] at hoctet
    exact Option.some.inj hoctet
  have hfirst : (String.utf8EncodeChar c)[n].IsUTF8FirstByte := by
    rw [← hsame]
    exact UInt8.isUTF8FirstByte_getElem_zero_utf8EncodeChar
  have hzero := UInt8.isUTF8FirstByte_getElem_utf8EncodeChar.mp hfirst
  omega

/-- **Where a pattern stands in a text**: at its front, or where it stands behind its first
character. -/
theorem offsets_cons {pattern : List Char} (hne : pattern ≠ []) (c : Char) (cs : List Char) :
    offsets pattern (String.ofList (c :: cs))
      = (if pattern <+: c :: cs then [0] else [])
        ++ (offsets pattern (String.ofList cs)).map (c.utf8Size + ·) := by
  have hsize : (String.ofList (c :: cs)).utf8ByteSize + 1
      = c.utf8Size + ((String.ofList cs).utf8ByteSize + 1) := by
    rw [utf8ByteSize_ofList, utf8ByteSize_ofList, octets_cons, Nat.add_assoc]
  rw [offsets, hsize, List.range_add, List.filter_append]
  congr 1
  · -- up to the second character, only the front can be an offset
    obtain ⟨k, hk⟩ := Nat.exists_eq_succ_of_ne_zero (Nat.ne_of_gt c.utf8Size_pos)
    have hinside : ((List.range k).map Nat.succ).filter (fun offset =>
        (octetList (String.ofList pattern)).isPrefixOf
          ((octetList (String.ofList (c :: cs))).drop offset)) = [] := by
      refine List.filter_eq_nil_iff.mpr fun offset hoffset => ?_
      obtain ⟨n, hn, rfl⟩ := List.mem_map.mp hoffset
      have hlt : n.succ < c.utf8Size := by
        have hn' := List.mem_range.mp hn
        omega
      rw [List.isPrefixOf_iff_prefix, octetList_cons]
      exact not_prefix_inside hne n.succ_pos hlt _
    rw [hk, List.range_succ_eq_map, List.filter_cons, hinside, List.drop_zero]
    simp only [List.isPrefixOf_iff_prefix, octetList_prefix_iff]
  · -- from the second character on
    rw [List.filter_map, offsets]
    refine congrArg (List.map (c.utf8Size + ·)) (List.filter_congr fun n _ => ?_)
    have hdrop : (octetList (String.ofList (c :: cs))).drop (c.utf8Size + n)
        = (octetList (String.ofList cs)).drop n := by
      rw [octetList_cons, ← String.length_utf8EncodeChar c, List.drop_length_add_append]
    rw [Function.comp_apply, hdrop]

theorem offsets_nil {pattern : List Char} (hne : pattern ≠ []) :
    offsets pattern (String.ofList []) = [] := by
  refine List.filter_eq_nil_iff.mpr fun offset _ => ?_
  have hnil : (octetList (String.ofList [])).drop offset = octetList (String.ofList []) :=
    List.drop_nil
  rw [List.isPrefixOf_iff_prefix, hnil, octetList_prefix_iff, List.prefix_nil]
  exact hne

/-- **The first offset of a pattern** is where a text is cut at it. -/
theorem head?_offsets {pattern : List Char} (hne : pattern ≠ []) (text : List Char) :
    (offsets pattern (String.ofList text)).head?
      = (find? pattern text).map fun cut => octets cut.1 := by
  induction text with
  | nil =>
      have hmiss : find? pattern [] = none :=
        find?_eq_none_iff.mpr fun h => hne (List.infix_nil.mp h)
      rw [offsets_nil hne, hmiss]
      rfl
  | cons c cs ih =>
      rw [offsets_cons hne]
      by_cases h : pattern <+: c :: cs
      · obtain ⟨rest, hrest⟩ := h
        rw [if_pos ⟨rest, hrest⟩, ← hrest, find?_append_self]
        rfl
      · rw [if_neg h, List.nil_append, List.head?_map, ih, find?_cons_of_miss h, Option.map_map,
          Option.map_map]
        refine congrArg (fun f => Option.map f _) (funext fun cut => ?_)
        exact (octets_cons c cut.1).symm

/-! ## Where a character stands -/

section Mark

variable (mark : Char)

theorem offsets_mark_cons (c : Char) (cs : List Char) :
    offsets [mark] (String.ofList (c :: cs))
      = (if c = mark then [0] else [])
        ++ (offsets [mark] (String.ofList cs)).map (c.utf8Size + ·) := by
  have hfront : [mark] <+: c :: cs ↔ c = mark := by
    rw [List.cons_prefix_cons, eq_comm]
    simp
  rw [offsets_cons (List.cons_ne_nil mark [])]
  simp only [hfront]

theorem length_offsets_mark (text : List Char) :
    (offsets [mark] (String.ofList text)).length = text.count mark := by
  induction text with
  | nil =>
      rw [offsets_nil (List.cons_ne_nil mark [])]
      rfl
  | cons c cs ih =>
      rw [offsets_mark_cons, List.length_append, List.length_map, ih, List.count_cons]
      by_cases h : c = mark
      · simp [h, Nat.add_comm]
      · simp [h]

/-- A mark stands behind its front, and separates the offsets before it from those behind it. -/
theorem offsets_mark_append (front back : List Char) :
    offsets [mark] (String.ofList (front ++ mark :: back))
      = offsets [mark] (String.ofList front)
        ++ octets front :: (offsets [mark] (String.ofList back)).map
            (octets front + mark.utf8Size + ·) := by
  induction front with
  | nil =>
      rw [List.nil_append, offsets_mark_cons, if_pos rfl, offsets_nil (List.cons_ne_nil mark [])]
      simp
  | cons c cs ih =>
      rw [List.cons_append, offsets_mark_cons, offsets_mark_cons, ih]
      simp [Nat.add_assoc, Function.comp_def]

theorem offsets_mark_eq_nil {text : List Char} (h : mark ∉ text) :
    offsets [mark] (String.ofList text) = [] := by
  rw [← List.length_eq_zero_iff, length_offsets_mark, List.count_eq_zero]
  exact h

/-- Behind a mark of one octet there is a boundary. -/
theorem sliceFrom?_mark (hmark : mark.utf8Size = 1) (front back : List Char) :
    sliceFrom? (String.ofList (front ++ mark :: back)) (octets front + 1)
      = some (String.ofList back) := by
  have h := sliceFrom?_append (front ++ [mark]) back
  rw [octets_append, octets_cons, octets_nil, hmark, List.append_assoc, List.singleton_append] at h
  exact h

end Mark

end PdfWorker.Text
