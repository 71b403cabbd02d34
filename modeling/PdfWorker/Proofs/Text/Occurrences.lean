import PdfWorker.Text.Cut
import Mathlib.Data.List.TakeWhile
set_option autoImplicit false

/-! # Where a pattern occurs first

`find?` cuts a text where the pattern occurs first, and finds it wherever it occurs
(`find?_eq_none_iff`). A pattern without quotes lies between two quotes of the text or beside them:
`joined` puts pieces of text together with quotes between them, and the lemmas about it say what
`find?`, `quoted?` and `lastQuoted?` give by looking at one piece at a time.
-/

namespace PdfWorker.Text

/-! ## Occurrences -/

theorem isPrefixOf?_append (pattern rest : List Char) :
    pattern.isPrefixOf? (pattern ++ rest) = some rest := by
  induction pattern with
  | nil => rfl
  | cons c cs ih =>
      have hstep : (c :: cs).isPrefixOf? (c :: (cs ++ rest))
          = if c == c then cs.isPrefixOf? (cs ++ rest) else none := rfl
      rw [List.cons_append, hstep, if_pos (beq_self_eq_true c), ih]

theorem isPrefixOf?_eq_none_iff {pattern text : List Char} :
    pattern.isPrefixOf? text = none ↔ ¬ pattern <+: text := by
  constructor
  · rintro h ⟨rest, rfl⟩
    rw [isPrefixOf?_append] at h
    cases h
  · intro h
    cases hrest : pattern.isPrefixOf? text with
    | none => rfl
    | some rest => exact absurd ⟨rest, (isPrefixOf?_eq_some hrest).symm⟩ h

theorem findFrom_eq_map (pattern seen text : List Char) :
    findFrom pattern seen text
      = (find? pattern text).map fun cut => (seen.reverse ++ cut.1, cut.2) := by
  induction text generalizing seen with
  | nil =>
      rw [find?, findFrom, findFrom]
      split
      · simp
      · rfl
  | cons c cs ih =>
      rw [find?, findFrom, findFrom]
      cases pattern.isPrefixOf? (c :: cs) with
      | some rest => simp
      | none => simp [ih, Function.comp_def]

theorem find?_append_self (pattern rest : List Char) :
    find? pattern (pattern ++ rest) = some ([], rest) := by
  cases h : pattern ++ rest with
  | nil =>
      obtain ⟨rfl, rfl⟩ := List.append_eq_nil_iff.mp h
      rfl
  | cons c cs =>
      have hrest := isPrefixOf?_append pattern rest
      rw [h] at hrest
      rw [find?, findFrom, hrest]
      rfl

theorem find?_cons_of_miss {pattern : List Char} {c : Char} {cs : List Char}
    (h : ¬ pattern <+: c :: cs) :
    find? pattern (c :: cs) = (find? pattern cs).map fun cut => (c :: cut.1, cut.2) := by
  rw [find?, findFrom, isPrefixOf?_eq_none_iff.mpr h]
  exact findFrom_eq_map pattern [c] cs

/-- **A pattern is found wherever it occurs.** -/
theorem find?_eq_none_iff {pattern text : List Char} :
    find? pattern text = none ↔ ¬ pattern <:+: text := by
  induction text with
  | nil =>
      rw [List.infix_nil]
      cases pattern with
      | nil => simp [find?, findFrom]
      | cons c cs => simp [find?, findFrom]
  | cons c cs ih =>
      by_cases h : pattern <+: c :: cs
      · obtain ⟨rest, hrest⟩ := h
        rw [← hrest, find?_append_self]
        simp [(List.prefix_append pattern rest).isInfix]
      · rw [find?_cons_of_miss h, Option.map_eq_none_iff, ih, List.infix_cons_iff]
        simp [h]

theorem occurs_iff {pattern text : List Char} : occurs pattern text = true ↔ pattern <:+: text := by
  rw [occurs, Option.isSome_iff_ne_none, ne_eq, find?_eq_none_iff, Decidable.not_not]

theorem occurs_eq_false_iff {pattern text : List Char} :
    occurs pattern text = false ↔ ¬ pattern <:+: text := by
  rw [← occurs_iff, Bool.not_eq_true]

theorem exists_find? {pattern text : List Char} (h : pattern <:+: text) :
    ∃ before rest, find? pattern text = some (before, rest) ∧ text = before ++ pattern ++ rest := by
  cases hfind : find? pattern text with
  | none => exact absurd h (find?_eq_none_iff.mp hfind)
  | some cut => exact ⟨cut.1, cut.2, rfl, find?_eq_some hfind⟩

/-- What follows a text does not change where the pattern is found in it. -/
theorem find?_append_of_some {pattern text before rest : List Char}
    (h : find? pattern text = some (before, rest)) (more : List Char) :
    find? pattern (text ++ more) = some (before, rest ++ more) := by
  induction text generalizing before with
  | nil =>
      have hall := find?_eq_some h
      obtain ⟨rfl, rfl, rfl⟩ : before = [] ∧ pattern = [] ∧ rest = [] := by
        simpa using hall.symm
      exact find?_append_self [] more
  | cons c cs ih =>
      by_cases hstart : pattern <+: c :: cs
      · obtain ⟨tail, htail⟩ := hstart
        rw [← htail, find?_append_self] at h
        cases h
        rw [← htail, List.append_assoc, find?_append_self]
      · rw [find?_cons_of_miss hstart] at h
        obtain ⟨cut, hcut, heq⟩ := Option.map_eq_some_iff.mp h
        cases heq
        -- the pattern is found further on, so it is no longer than what is left
        have hlength : pattern.length ≤ (c :: cs).length := by
          have hcs := congrArg List.length (find?_eq_some hcut)
          simp only [List.length_append] at hcs
          rw [List.length_cons]
          omega
        have hlonger : ¬ pattern <+: c :: (cs ++ more) := by
          intro hlong
          exact hstart (List.prefix_of_prefix_length_le hlong (List.prefix_append _ more) hlength)
        rw [List.cons_append, find?_cons_of_miss hlonger, ih hcut]
        rfl

/-- A pattern does not reach over a mark that it does not contain. -/
theorem find?_append_cons {pattern : List Char} {mark : Char} (hmark : mark ∉ pattern)
    {front : List Char} (hfront : ¬ pattern <:+: front) (back : List Char) :
    find? pattern (front ++ mark :: back)
      = (find? pattern back).map fun cut => (front ++ mark :: cut.1, cut.2) := by
  have hmiss : ∀ piece, piece <:+ front → ¬ pattern <+: piece ++ mark :: back := by
    intro piece hpiece hpattern
    have hsplit : piece ++ [mark] <+: piece ++ mark :: back := ⟨back, by simp⟩
    -- the pattern either ends before the mark or contains it
    rcases List.prefix_or_prefix_of_prefix hpattern hsplit with h | h
    · rcases List.prefix_concat_iff.mp h with rfl | h
      · simp at hmark
      · exact hfront (h.isInfix.trans hpiece.isInfix)
    · exact hmark (h.subset (by simp))
  induction front with
  | nil => exact find?_cons_of_miss (hmiss [] (List.suffix_refl []))
  | cons c front ih =>
      have hshort : ¬ pattern <:+: front :=
        fun h => hfront (h.trans (List.suffix_cons c front).isInfix)
      have htail := ih hshort fun piece hpiece =>
        hmiss piece (hpiece.trans (List.suffix_cons c front))
      have hhead := hmiss (c :: front) (List.suffix_refl _)
      rw [List.cons_append] at hhead ⊢
      rw [find?_cons_of_miss hhead, htail, Option.map_map]
      rfl

/-! ## Pieces between quotes -/

/-- Puts pieces together with a double quote between every two. -/
def joined : List (List Char) → List Char
  | [] => []
  | [piece] => piece
  | piece :: next :: more => piece ++ '"' :: joined (next :: more)

theorem unquoted_of_notMem {piece : List Char} (h : '"' ∉ piece) :
    ∀ c ∈ piece, unquoted c = true := by
  intro c hc
  have hne : c ≠ '"' := fun he => h (he ▸ hc)
  simp [unquoted, hne]

theorem takeWhile_unquoted (piece : List Char) (h : '"' ∉ piece) (rest : List Char) :
    (piece ++ '"' :: rest).takeWhile unquoted = piece
      ∧ (piece ++ '"' :: rest).dropWhile unquoted = '"' :: rest := by
  have hall := unquoted_of_notMem h
  rw [List.takeWhile_append_of_pos hall, List.dropWhile_append_of_pos hall]
  simp [unquoted]

theorem dropWhile_unquoted_of_notMem {piece : List Char} (h : '"' ∉ piece) :
    piece.dropWhile unquoted = [] :=
  List.dropWhile_eq_nil_iff.mpr (unquoted_of_notMem h)

theorem quoted?_of_notMem {text : List Char} (h : '"' ∉ text) : quoted? text = none := by
  rw [quoted?, dropWhile_unquoted_of_notMem h]

theorem lastQuoted?_of_notMem {text : List Char} (h : '"' ∉ text) : lastQuoted? text = none := by
  rw [lastQuoted?, dropWhile_unquoted_of_notMem (by simpa using h)]

/-- A front without quotes hides no name behind it. -/
theorem quoted?_append_of_notMem {front : List Char} (h : '"' ∉ front) (rest : List Char) :
    quoted? (front ++ rest) = quoted? rest := by
  rw [quoted?, quoted?, List.dropWhile_append_of_pos (unquoted_of_notMem h)]

/-- The first quoted name is the second piece, if there is a third. -/
theorem quoted?_joined {front name : List Char} (hfront : '"' ∉ front) (hname : '"' ∉ name)
    (next : List Char) (more : List (List Char)) :
    quoted? (joined (front :: name :: next :: more)) = some (name, joined (next :: more)) := by
  have houter := takeWhile_unquoted front hfront (joined (name :: next :: more))
  have hinner := takeWhile_unquoted name hname (joined (next :: more))
  rw [joined, quoted?, houter.2]
  simp only [joined] at hinner ⊢
  rw [hinner.2, hinner.1]

/-- One quote encloses nothing. -/
theorem quoted?_joined_pair {front back : List Char} (hfront : '"' ∉ front) (hback : '"' ∉ back) :
    quoted? (joined [front, back]) = none := by
  have houter := takeWhile_unquoted front hfront back
  rw [joined, joined, quoted?, houter.2]
  simp only
  rw [dropWhile_unquoted_of_notMem hback]

theorem lastQuoted?_joined {front name last : List Char} (hname : '"' ∉ name) (hlast : '"' ∉ last) :
    lastQuoted? (joined [front, name, last]) = some (name, last) := by
  have hreverse : (joined [front, name, last]).reverse
      = last.reverse ++ '"' :: (name.reverse ++ '"' :: front.reverse) := by
    simp [joined]
  have houter := takeWhile_unquoted last.reverse (by simpa using hlast)
    (name.reverse ++ '"' :: front.reverse)
  have hinner := takeWhile_unquoted name.reverse (by simpa using hname) front.reverse
  rw [lastQuoted?, hreverse, houter.2, houter.1]
  simp only
  rw [hinner.2, hinner.1, List.reverse_reverse, List.reverse_reverse]

theorem lastQuoted?_joined_pair {front last : List Char} (hfront : '"' ∉ front)
    (hlast : '"' ∉ last) : lastQuoted? (joined [front, last]) = none := by
  have hreverse : (joined [front, last]).reverse = last.reverse ++ '"' :: front.reverse := by
    simp [joined]
  have houter := takeWhile_unquoted last.reverse (by simpa using hlast) front.reverse
  rw [lastQuoted?, hreverse, houter.2]
  simp only
  rw [dropWhile_unquoted_of_notMem (by simpa using hfront)]

/-- **A pattern without quotes** is found in the first piece in which it occurs, which is cut there;
the pieces before it and behind it stay. -/
theorem find?_joined {pattern : List Char} (hpattern : '"' ∉ pattern) {front : List (List Char)}
    (hfront : ∀ piece ∈ front, ¬ pattern <:+: piece) {piece before rest : List Char}
    (h : find? pattern piece = some (before, rest)) (more : List (List Char)) :
    find? pattern (joined (front ++ piece :: more))
      = some (joined (front ++ [before]), joined (rest :: more)) := by
  induction front with
  | nil =>
      cases more with
      | nil => exact h
      | cons next more => exact find?_append_of_some h _
  | cons first front ih =>
      obtain ⟨hfirst, hothers⟩ := List.forall_mem_cons.mp hfront
      have hjoin : ∀ (last : List Char) (more : List (List Char)),
          joined (first :: (front ++ last :: more))
            = first ++ '"' :: joined (front ++ last :: more) := by
        intro last more
        cases front <;> rfl
      rw [List.cons_append, List.cons_append, hjoin, hjoin, find?_append_cons hpattern hfirst,
        ih hothers]
      rfl

theorem find?_joined_eq_none {pattern : List Char} (hpattern : '"' ∉ pattern)
    {pieces : List (List Char)} (hne : pieces ≠ []) (h : ∀ piece ∈ pieces, ¬ pattern <:+: piece) :
    find? pattern (joined pieces) = none := by
  induction pieces with
  | nil => exact absurd rfl hne
  | cons first pieces ih =>
      obtain ⟨hfirst, hothers⟩ := List.forall_mem_cons.mp h
      cases pieces with
      | nil => exact find?_eq_none_iff.mpr hfirst
      | cons next more =>
          rw [joined, find?_append_cons hpattern hfirst, ih (List.cons_ne_nil next more) hothers]
          rfl

theorem infix_joined {pieces : List (List Char)} {piece : List Char} (h : piece ∈ pieces) :
    piece <:+: joined pieces := by
  induction pieces with
  | nil => cases h
  | cons first pieces ih =>
      cases pieces with
      | nil => exact List.mem_singleton.mp h ▸ List.infix_refl _
      | cons next more =>
          rcases List.mem_cons.mp h with rfl | h
          · exact (List.prefix_append piece _).isInfix
          · exact (ih h).trans ((List.suffix_cons '"' _).trans (List.suffix_append first _)).isInfix

/-- A pattern without quotes occurs where it occurs in a piece. -/
theorem occurs_joined {pattern : List Char} (hpattern : '"' ∉ pattern) {pieces : List (List Char)}
    (hne : pieces ≠ []) : occurs pattern (joined pieces) = pieces.any (occurs pattern) := by
  rw [Bool.eq_iff_iff, List.any_eq_true]
  constructor
  · intro h
    by_contra hnone
    have hmiss : find? pattern (joined pieces) = none := by
      refine find?_joined_eq_none hpattern hne fun piece hpiece hinfix => ?_
      exact hnone ⟨piece, hpiece, occurs_iff.mpr hinfix⟩
    rw [occurs, hmiss] at h
    cases h
  · rintro ⟨piece, hpiece, h⟩
    exact occurs_iff.mpr ((occurs_iff.mp h).trans (infix_joined hpiece))

end PdfWorker.Text
