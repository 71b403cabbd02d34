import PdfWorker.Json.Basic
set_option autoImplicit false

/-! # JSON numbers

`Literal.scan?` takes a number off the front of a text by the grammar (no leading zero, at least
one digit on either side of a point and in an exponent). `Literal.value?` decides what it is: an
integer of 64 bits, another number, or none because it is too large for a double.

The size of a number is judged as two factors: its digits, as far as they fit 64 bits, and a power
of ten. Both are taken as the nearest doubles, and the number is too large if their product would
round past the largest double. -/

namespace PdfWorker.Json

/-- A number as it is written. -/
structure Literal where
  negative : Bool
  whole : List Char
  /-- The digits after the point; empty if there is no point. -/
  fraction : List Char
  /-- The written exponent, with true for a minus sign. -/
  exponent : Option (Bool × List Char)
  /-- Whether the number has neither point nor exponent. -/
  plain : Bool

namespace Literal

/-! ## The grammar -/

/-- The leading digits of a text and the rest of it; there must be at least one. -/
def digits? (text : List Char) : Option (List Char × List Char) :=
  match text.takeWhile Char.isDigit with
  | [] => none
  | ds => some (ds, text.dropWhile Char.isDigit)

/-- Digits before the point: a single zero, or digits that do not begin with zero. -/
def whole? (text : List Char) : Option (List Char × List Char) :=
  match digits? text with
  | some ('0' :: _ :: _, _) => none
  | found => found

/-- An optional point with digits. -/
def fraction? : List Char → Option (List Char × List Char)
  | '.' :: rest => digits? rest
  | rest => some ([], rest)

/-- The exponent after its letter, with an optional sign. -/
def exponentDigits? : List Char → Option ((Bool × List Char) × List Char)
  | '+' :: rest => (digits? rest).map fun (ds, r) => ((false, ds), r)
  | '-' :: rest => (digits? rest).map fun (ds, r) => ((true, ds), r)
  | rest => (digits? rest).map fun (ds, r) => ((false, ds), r)

/-- An optional exponent. -/
def exponent? : List Char → Option (Option (Bool × List Char) × List Char)
  | 'e' :: rest => (exponentDigits? rest).map fun (e, r) => (some e, r)
  | 'E' :: rest => (exponentDigits? rest).map fun (e, r) => (some e, r)
  | rest => some (none, rest)

/-- A number without its sign. -/
def unsigned? (negative : Bool) (text : List Char) : Option (Literal × List Char) := do
  let (whole, rest₁) ← whole? text
  let (fraction, rest₂) ← fraction? rest₁
  let (exponent, rest₃) ← exponent? rest₂
  return (⟨negative, whole, fraction, exponent, fraction.isEmpty && exponent.isNone⟩, rest₃)

/-- The number at the front of a text, and what follows it. -/
def scan? : List Char → Option (Literal × List Char)
  | '-' :: rest => unsigned? true rest
  | text => unsigned? false text

/-! ## Its value -/

/-- The number that a decimal digit writes. -/
def digit (d : Char) : Nat := d.toNat - '0'.toNat

/-- Continues `n` with digits. -/
def continued (n : Nat) (ds : List Char) : Nat :=
  ds.foldl (fun n d => n * 10 + digit d) n

/-- Continues `n` with one digit, if the number stays below `bound`. -/
def next? (bound n : Nat) (d : Char) : Option Nat :=
  let next := n * 10 + digit d
  if next < bound then some next else none

/-- The number that digits write, if it is below `bound`. Digits past the bound are not looked
at. -/
def ofDigitsBelow? (bound : Nat) (ds : List Char) : Option Nat :=
  ds.foldlM (next? bound) 0

theorem le_continued (n : Nat) (ds : List Char) : n ≤ continued n ds := by
  induction ds generalizing n with
  | nil => exact Nat.le_refl n
  | cons d ds ih => exact Nat.le_trans (by omega) (ih (n * 10 + digit d))

theorem foldlM_eq_continued {bound n : Nat} (h : n < bound) (ds : List Char) :
    ds.foldlM (next? bound) n =
      if continued n ds < bound then some (continued n ds) else none := by
  induction ds generalizing n with
  | nil => simp [continued, h]
  | cons d ds ih =>
    have hc : continued n (d :: ds) = continued (n * 10 + digit d) ds := rfl
    by_cases hn : n * 10 + digit d < bound
    · simpa [next?, hn, hc] using ih hn
    · have := le_continued (n * 10 + digit d) ds
      simp [next?, hn, hc, show ¬ continued (n * 10 + digit d) ds < bound by omega]

/-- Stopping at the bound changes nothing: later digits only make the number larger. -/
theorem ofDigitsBelow?_eq {bound : Nat} (h : 0 < bound) (ds : List Char) :
    ofDigitsBelow? bound ds = if continued 0 ds < bound then some (continued 0 ds) else none :=
  foldlM_eq_continued h ds

/-- Continues `n`, which `taken` digits wrote, with digits as long as it fits 64 bits; also the
number of digits taken. -/
def gather (n taken : Nat) : List Char → Nat × Nat
  | [] => (n, taken)
  | d :: ds =>
    let next := n * 10 + digit d
    if next < UInt64.size then gather next (taken + 1) ds else (n, taken)

/-- The nearest number with at most 53 significant bits, a tie going to the even one. -/
def nearestDouble (n : Nat) : Nat :=
  if n.log2 < 53 then n
  else
    let unit := 1 <<< (n.log2 - 52)
    let (q, r) := (n / unit, n % unit)
    if 2 * r < unit ∨ (2 * r = unit ∧ q % 2 = 0) then q * unit else (q + 1) * unit

/-- The least number that rounds past the largest double. -/
def pastLargest : Nat := (1 <<< 1024) - (1 <<< 970)

/-- An exponent of this size outweighs the digits of any text; a larger one counts as this one. -/
def exponentBound : Nat := 1 <<< 31

/-- The written exponent. -/
def exponentValue (l : Literal) : Int :=
  match l.exponent with
  | none => 0
  | some (minus, ds) =>
    let size := (ofDigitsBelow? exponentBound ds).getD exponentBound
    if minus then - (size : Int) else size

/-- Whether the number is too large for a double. -/
def tooLarge (l : Literal) : Bool :=
  let (front, wholeTaken) := gather 0 0 l.whole
  let (factor, fractionTaken) := gather front 0 l.fraction
  let power : Int :=
    (l.whole.length - wholeTaken : Nat) - (fractionTaken : Int) + l.exponentValue
  factor ≠ 0 && (power > 308 ||
    (0 ≤ power && pastLargest ≤ nearestDouble factor * nearestDouble (Nat.pow 10 power.toNat)))

/-- The number as it was written. -/
def spelling (l : Literal) : List Char :=
  (if l.negative then ['-'] else []) ++ l.whole
    ++ (if l.fraction.isEmpty then [] else '.' :: l.fraction)
    ++ (match l.exponent with
      | none => []
      | some (minus, ds) => 'e' :: (if minus then '-' :: ds else ds))

/-- The integer a plain number writes, if it fits 64 bits; a zero with a minus sign is none. -/
def integer? (l : Literal) : Option Int :=
  if ¬ l.plain then none
  else match ofDigitsBelow? UInt64.size l.whole with
    | none => none
    | some n =>
      if ¬ l.negative then some n
      else if 0 < n ∧ n ≤ 1 <<< 63 then some (-n)
      else none

/-- The value of a number, none if it is too large for a double. -/
def value? (l : Literal) : Option Json :=
  match l.integer? with
  | some n => some (.int n)
  | none => if l.tooLarge then none else some (.real l.spelling)

/-! ## A number takes at least one character -/

theorem length_digits? {text ds rest : List Char} (h : digits? text = some (ds, rest)) :
    rest.length < text.length := by
  simp only [digits?] at h
  split at h
  · simp at h
  · rename_i hds
    simp only [Option.some.injEq, Prod.mk.injEq] at h
    obtain ⟨rfl, rfl⟩ := h
    have e := congrArg List.length (@List.takeWhile_append_dropWhile _ Char.isDigit text)
    rw [List.length_append] at e
    have : (text.takeWhile Char.isDigit).length ≠ 0 := by simpa using hds
    omega

theorem length_whole? {text ds rest : List Char} (h : whole? text = some (ds, rest)) :
    rest.length < text.length := by
  simp only [whole?] at h
  split at h
  · simp at h
  · exact length_digits? h

theorem length_fraction? {text ds rest : List Char} (h : fraction? text = some (ds, rest)) :
    rest.length ≤ text.length := by
  unfold fraction? at h
  split at h
  · have := length_digits? h
    simp only [List.length_cons]
    omega
  · simp_all

theorem length_of_map {text rest : List Char} {e : Bool × List Char} {minus : Bool}
    (h : (digits? text).map (fun (ds, r) => ((minus, ds), r)) = some (e, rest)) :
    rest.length < text.length := by
  obtain ⟨⟨ds, r⟩, hd, he⟩ := Option.map_eq_some_iff.1 h
  simp only [Prod.mk.injEq] at he
  exact he.2 ▸ length_digits? hd

theorem length_exponentDigits? {text rest : List Char} {e : Bool × List Char}
    (h : exponentDigits? text = some (e, rest)) : rest.length < text.length := by
  unfold exponentDigits? at h
  split at h
  · exact Nat.lt_succ_of_lt (length_of_map h)
  · exact Nat.lt_succ_of_lt (length_of_map h)
  · exact length_of_map h

theorem length_exponent? {text rest : List Char} {e : Option (Bool × List Char)}
    (h : exponent? text = some (e, rest)) : rest.length ≤ text.length := by
  unfold exponent? at h
  split at h
  · obtain ⟨⟨e', r⟩, hd, he⟩ := Option.map_eq_some_iff.1 h
    have := length_exponentDigits? hd
    simp only [Prod.mk.injEq] at he
    obtain ⟨-, rfl⟩ := he
    simp only [List.length_cons]
    omega
  · obtain ⟨⟨e', r⟩, hd, he⟩ := Option.map_eq_some_iff.1 h
    have := length_exponentDigits? hd
    simp only [Prod.mk.injEq] at he
    obtain ⟨-, rfl⟩ := he
    simp only [List.length_cons]
    omega
  · simp_all

theorem length_unsigned? {negative : Bool} {text rest : List Char} {l : Literal}
    (h : unsigned? negative text = some (l, rest)) : rest.length < text.length := by
  simp only [unsigned?, Option.bind_eq_bind, Option.bind_eq_some_iff, Prod.exists] at h
  obtain ⟨w, r₁, hw, f, r₂, hf, e, r₃, he, hl⟩ := h
  have h₁ := length_whole? hw
  have h₂ := length_fraction? hf
  have h₃ := length_exponent? he
  simp only [pure, Option.some.injEq, Prod.mk.injEq] at hl
  obtain ⟨-, rfl⟩ := hl
  omega

theorem length_scan? {text rest : List Char} {l : Literal} (h : scan? text = some (l, rest)) :
    rest.length < text.length := by
  unfold scan? at h
  split at h
  · have := length_unsigned? h
    simp only [List.length_cons]
    omega
  · exact length_unsigned? h

end Literal

end PdfWorker.Json
