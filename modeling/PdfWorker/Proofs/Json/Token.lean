import PdfWorker.Json.Printer
import PdfWorker.Proofs.Json.Spelling
set_option autoImplicit false

/-! # Tokens that are written

What `Json.text` writes for a string or an integer is one of its spellings (`Token.spelling_quote`,
`Token.spelling_digits`).
-/

namespace PdfWorker.Json

/-! ## Strings -/

namespace Token

/-- Four digits write a character below U+0020. -/
theorem unit?_hexDigit {n : Nat} (h : n < 32) :
    unit? '0' '0' (hexDigit (n / 16)) (hexDigit (n % 16)) = some n := by
  revert n
  decide

/-- How a character stands in a string: behind a backslash as a letter, as four digits, or as it
is. -/
theorem escape_cases (c : Char) :
    (∃ e, escape c = ['\\', e] ∧ e ≠ 'u' ∧ shortEscape? e = some c) ∨
    (c.toNat < 32 ∧ escape c
      = ['\\', 'u', '0', '0', hexDigit (c.toNat / 16), hexDigit (c.toNat % 16)]) ∨
    (c ≠ '"' ∧ c ≠ '\\' ∧ 32 ≤ c.toNat ∧ escape c = [c]) := by
  by_cases h₁ : c = '"'
  · exact .inl ⟨'"', by rw [h₁]; rfl, by decide, by rw [h₁]; rfl⟩
  by_cases h₂ : c = '\\'
  · exact .inl ⟨'\\', by rw [h₂]; rfl, by decide, by rw [h₂]; rfl⟩
  by_cases h₃ : c = '\x08'
  · exact .inl ⟨'b', by rw [h₃]; rfl, by decide, by rw [h₃]; rfl⟩
  by_cases h₄ : c = '\x0c'
  · exact .inl ⟨'f', by rw [h₄]; rfl, by decide, by rw [h₄]; rfl⟩
  by_cases h₅ : c = '\n'
  · exact .inl ⟨'n', by rw [h₅]; rfl, by decide, by rw [h₅]; rfl⟩
  by_cases h₆ : c = '\r'
  · exact .inl ⟨'r', by rw [h₆]; rfl, by decide, by rw [h₆]; rfl⟩
  by_cases h₇ : c = '\t'
  · exact .inl ⟨'t', by rw [h₇]; rfl, by decide, by rw [h₇]; rfl⟩
  -- the other characters have no letter of their own
  rw [escape, if_neg h₁, if_neg h₂, if_neg h₃, if_neg h₄, if_neg h₅, if_neg h₆, if_neg h₇]
  by_cases h₈ : c.toNat < 0x20
  · exact .inr (.inl ⟨h₈, if_pos h₈⟩)
  · exact .inr (.inr ⟨h₁, h₂, Nat.le_of_not_lt h₈, if_neg h₈⟩)

/-- A character is spelled as it is written. -/
theorem charSpelling_escape (c : Char) : CharSpelling c (escape c) := by
  rcases escape_cases c with ⟨e, he, -, hc⟩ | ⟨hsmall, he⟩ | ⟨hquote, hslash, hlarge, he⟩
  · rw [he]
    exact .letter hc
  -- a character below U+0020 is no half of a surrogate pair
  · have hunit := CharSpelling.unit (unit?_hexDigit hsmall) (.inl (by omega))
    rw [Char.ofNat_toNat] at hunit
    rw [he]
    exact hunit
  · rw [he]
    exact .bare hquote hslash hlarge

theorem charsSpelling_flatMap (cs : List Char) : CharsSpelling cs (cs.flatMap escape) := by
  induction cs with
  | nil => exact .nil
  | cons c cs ih => exact .cons (charSpelling_escape c) ih

/-- **A string is spelled as it is written.** -/
theorem spelling_quote {Fits : Literal → Prop} (s : String) :
    Spelling Fits (.string s) (quote s) := by
  have hstring : Spelling Fits (.string (String.ofList s.toList)) (quote s) :=
    .string (charsSpelling_flatMap s.toList)
  rw [String.ofList_toList] at hstring
  exact hstring

end Token

/-! ## Numbers -/

namespace Literal

theorem continued_eq_ofDigitChars (n : Nat) (ds : List Char) :
    continued n ds = Nat.ofDigitChars 10 ds n := by
  induction ds generalizing n with
  | nil => rw [Nat.ofDigitChars_nil]; rfl
  | cons d ds ih =>
      rw [Nat.ofDigitChars_cons, ← ih, Nat.mul_comm]
      rfl

/-- The digits of a number write it. -/
theorem ofDigitsBelow?_toDigits {bound n : Nat} (h : n < bound) :
    ofDigitsBelow? bound (Nat.toDigits 10 n) = some n := by
  have hn : continued 0 (Nat.toDigits 10 n) = n := by
    rw [continued_eq_ofDigitChars, Nat.ofDigitChars_ten_toDigits]
  rw [ofDigitsBelow?_eq (by omega), hn, if_pos h]

/-- Only zero begins with zero. -/
theorem toDigits_ne_zero_cons {n : Nat} {d : Char} {ds : List Char} :
    Nat.toDigits 10 n ≠ '0' :: d :: ds := by
  induction n using Nat.strongRecOn generalizing d ds with
  | ind n ih =>
      intro h
      rw [Nat.toDigits_eq_if (by decide)] at h
      split at h
      · simp at h
      · -- the digits of the tenth part begin as those of the whole
        rename_i hn
        rcases hq : Nat.toDigits 10 (n / 10) with _ | ⟨c, cs⟩
        · exact Nat.toDigits_ne_nil hq
        · rw [hq, List.cons_append] at h
          obtain ⟨rfl, h⟩ := List.cons.inj h
          cases cs with
          | cons c' cs => exact ih (n / 10) (by omega) hq
          | nil =>
              have hz := congrArg (Nat.ofDigitChars 10 · 0) hq
              simp only [Nat.ofDigitChars_ten_toDigits] at hz
              simp [Nat.ofDigitChars_cons, Nat.ofDigitChars_nil] at hz
              omega

theorem whole_toDigits (n : Nat) : Whole (Nat.toDigits 10 n) := by
  refine ⟨⟨Nat.toDigits_ne_nil, fun c hc => Nat.isDigit_of_mem_toDigits (by decide) (by decide) hc⟩,
    fun hzero => ?_⟩
  cases hq : Nat.toDigits 10 n with
  | nil => exact absurd hq Nat.toDigits_ne_nil
  | cons d ds =>
      rw [hq] at hzero
      cases hzero
      cases ds with
      | nil => rfl
      | cons e more => exact absurd hq toDigits_ne_zero_cons

/-- An integer is written as a number without fraction and exponent. -/
theorem spelling_digits (n : Int) :
    Spelling ⟨decide (n < 0), Nat.toDigits 10 n.natAbs, [], none, true⟩ (digits n) := by
  unfold digits
  split
  · rename_i hn
    have hspelling := Spelling.negative (whole_toDigits n.natAbs) .none .none
    rw [List.append_nil, List.append_nil] at hspelling
    rw [decide_eq_true hn]
    exact hspelling
  · rename_i hn
    have hspelling := Spelling.unsigned (whole_toDigits n.natAbs) .none .none
    rw [List.append_nil, List.append_nil] at hspelling
    rw [decide_eq_false hn]
    exact hspelling

/-- An integer of 64 bits, signed or unsigned, is the value of its literal. -/
theorem integer?_digits {n : Int} (hl : Int64.minValue.toInt ≤ n) (hu : n < UInt64.size) :
    integer? ⟨decide (n < 0), Nat.toDigits 10 n.natAbs, [], none, true⟩ = some n := by
  rw [Int64.toInt_minValue] at hl
  have hbelow : ofDigitsBelow? UInt64.size (Nat.toDigits 10 n.natAbs) = some n.natAbs :=
    ofDigitsBelow?_toDigits (by unfold UInt64.size at hu ⊢; omega)
  simp only [integer?, not_true_eq_false, if_false, hbelow]
  by_cases hneg : n < 0
  · have hrange : 0 < n.natAbs ∧ n.natAbs ≤ 1 <<< 63 := by omega
    simp only [decide_eq_true hneg, not_true_eq_false, if_false, if_pos hrange]
    rw [Option.some.injEq]
    omega
  · simp only [decide_eq_false hneg, Bool.false_eq_true, not_false_eq_true, if_true]
    rw [Option.some.injEq]
    omega

end Literal

namespace Token

/-- **An integer is spelled as it is written**, if it fits 64 bits. -/
theorem spelling_digits {n : Int} (hl : Int64.minValue.toInt ≤ n) (hu : n < UInt64.size) :
    Spelling (·.tooLarge = false) (.atom (.int n)) (digits n) := by
  have hinteger := Literal.integer?_digits hl hu
  have hspelling := Literal.spelling_digits n
  have hvalue : Json.int n
      = Literal.json ⟨decide (n < 0), Nat.toDigits 10 n.natAbs, [], none, true⟩ := by
    rw [Literal.json, hinteger]
  rw [hvalue]
  exact .number hspelling (Literal.tooLarge_of_integer? hspelling hinteger)

end Token

end PdfWorker.Json
