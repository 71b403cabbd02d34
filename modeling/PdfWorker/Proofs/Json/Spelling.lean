import PdfWorker.Json.Token
set_option autoImplicit false

/-! # How tokens are spelled

The grammar of JSON, token by token: the spellings of a number (`Literal.Spelling`), of a character
in a string (`Token.CharSpelling`) and of any token (`Token.Spelling`). A number may be spelled that
no double holds; `Fits` says which numbers may stand in a text. A token is read off a text exactly
where one of its spellings stands, if what follows a number cannot belong to it (`Literal.Ends`).
-/

namespace PdfWorker.Json

/-! ## Numbers -/

namespace Literal

/-- One digit or more. -/
def Digits (ds : List Char) : Prop := ds ≠ [] ∧ ∀ c ∈ ds, c.isDigit

/-- The digits before the point: a single zero, or digits that do not begin with zero. -/
def Whole (ds : List Char) : Prop := Digits ds ∧ (ds.head? = some '0' → ds = ['0'])

/-- The digits behind a point, if there is one. -/
inductive Fraction : List Char → List Char → Prop where
  | none : Fraction [] []
  | digits {ds} (h : Digits ds) : Fraction ds ('.' :: ds)

/-- An exponent, if there is one, with true for a minus sign. -/
inductive Exponent : Option (Bool × List Char) → List Char → Prop where
  | none : Exponent none []
  | bare {mark ds} (hmark : mark = 'e' ∨ mark = 'E') (h : Digits ds) :
      Exponent (some (false, ds)) (mark :: ds)
  | plus {mark ds} (hmark : mark = 'e' ∨ mark = 'E') (h : Digits ds) :
      Exponent (some (false, ds)) (mark :: '+' :: ds)
  | minus {mark ds} (hmark : mark = 'e' ∨ mark = 'E') (h : Digits ds) :
      Exponent (some (true, ds)) (mark :: '-' :: ds)

/-- A number. -/
inductive Spelling : Literal → List Char → Prop where
  | unsigned {whole fraction exponent behind last} (hw : Whole whole)
      (hf : Fraction fraction behind) (he : Exponent exponent last) :
      Spelling ⟨false, whole, fraction, exponent, fraction.isEmpty && exponent.isNone⟩
        (whole ++ behind ++ last)
  | negative {whole fraction exponent behind last} (hw : Whole whole)
      (hf : Fraction fraction behind) (he : Exponent exponent last) :
      Spelling ⟨true, whole, fraction, exponent, fraction.isEmpty && exponent.isNone⟩
        ('-' :: (whole ++ behind ++ last))

/-- The value of a number: an integer if it is written as one and fits 64 bits. -/
def json (l : Literal) : Json :=
  match l.integer? with
  | some n => .int n
  | none => .real l.spelling

/-- What follows a number cannot belong to it. -/
def Ends (rest : List Char) : Prop :=
  ∀ c ∈ rest.head?, c.isDigit = false ∧ c ≠ '.' ∧ c ≠ 'e' ∧ c ≠ 'E'

/-! ### What is read is a spelling -/

theorem eq_append_of_digits? {text ds rest : List Char} (h : digits? text = some (ds, rest)) :
    text = ds ++ rest ∧ Digits ds := by
  unfold digits? at h
  split at h
  · cases h
  · rename_i hne
    cases h
    refine ⟨List.takeWhile_append_dropWhile.symm, fun he => hne he, ?_⟩
    exact List.all_eq_true.mp List.all_takeWhile

theorem eq_append_of_whole? {text ds rest : List Char} (h : whole? text = some (ds, rest)) :
    text = ds ++ rest ∧ Whole ds := by
  unfold whole? at h
  split at h
  · cases h
  · rename_i hzero
    obtain ⟨htext, hds⟩ := eq_append_of_digits? h
    refine ⟨htext, hds, fun hhead => ?_⟩
    cases ds with
    | nil => cases hhead
    | cons d more =>
        cases hhead
        cases more with
        | nil => rfl
        | cons e more => exact absurd h (hzero e more rest)

theorem eq_append_of_fraction? {text ds rest : List Char} (h : fraction? text = some (ds, rest)) :
    ∃ behind, text = behind ++ rest ∧ Fraction ds behind := by
  unfold fraction? at h
  split at h
  · obtain ⟨rfl, hds⟩ := eq_append_of_digits? h
    exact ⟨'.' :: ds, rfl, .digits hds⟩
  · cases h
    exact ⟨[], rfl, .none⟩

theorem eq_append_of_exponentDigits? {text rest ds : List Char} {minus : Bool}
    (h : exponentDigits? text = some ((minus, ds), rest)) :
    ∃ sign, text = sign ++ ds ++ rest ∧ Digits ds
      ∧ (sign = [] ∧ minus = false ∨ sign = ['+'] ∧ minus = false
        ∨ sign = ['-'] ∧ minus = true) := by
  unfold exponentDigits? at h
  split at h
  all_goals
    obtain ⟨⟨found, more⟩, hdigits, heq⟩ := Option.map_eq_some_iff.mp h
    cases heq
    obtain ⟨rfl, hds⟩ := eq_append_of_digits? hdigits
  · exact ⟨['+'], rfl, hds, .inr (.inl ⟨rfl, rfl⟩)⟩
  · exact ⟨['-'], rfl, hds, .inr (.inr ⟨rfl, rfl⟩)⟩
  · exact ⟨[], rfl, hds, .inl ⟨rfl, rfl⟩⟩

theorem eq_append_of_exponent? {text rest : List Char} {e : Option (Bool × List Char)}
    (h : exponent? text = some (e, rest)) : ∃ last, text = last ++ rest ∧ Exponent e last := by
  have hmark : ∀ (mark : Char) (text : List Char), mark = 'e' ∨ mark = 'E' →
      (exponentDigits? text).map (fun p => (some p.1, p.2)) = some (e, rest) →
      ∃ last, mark :: text = last ++ rest ∧ Exponent e last := by
    intro mark text hmark h
    obtain ⟨⟨⟨minus, ds⟩, more⟩, hdigits, heq⟩ := Option.map_eq_some_iff.mp h
    cases heq
    obtain ⟨sign, rfl, hds, ⟨rfl, rfl⟩ | ⟨rfl, rfl⟩ | ⟨rfl, rfl⟩⟩ :=
      eq_append_of_exponentDigits? hdigits
    · exact ⟨mark :: ds, rfl, .bare hmark hds⟩
    · exact ⟨mark :: '+' :: ds, rfl, .plus hmark hds⟩
    · exact ⟨mark :: '-' :: ds, rfl, .minus hmark hds⟩
  unfold exponent? at h
  split at h
  · exact hmark 'e' _ (.inl rfl) h
  · exact hmark 'E' _ (.inr rfl) h
  · cases h
    exact ⟨[], rfl, .none⟩

/-- **A number that is read is spelled in the text.** -/
theorem spelling_of_scan? {text rest : List Char} {l : Literal} (h : scan? text = some (l, rest)) :
    ∃ written, text = written ++ rest ∧ Spelling l written := by
  have hunsigned : ∀ (negative : Bool) (text : List Char),
      unsigned? negative text = some (l, rest) →
      ∃ whole fraction exponent behind last, text = whole ++ behind ++ last ++ rest
        ∧ Whole whole ∧ Fraction fraction behind ∧ Exponent exponent last
        ∧ l = ⟨negative, whole, fraction, exponent, fraction.isEmpty && exponent.isNone⟩ := by
    intro negative text h
    simp only [unsigned?, Option.bind_eq_bind, Option.bind_eq_some_iff, Prod.exists] at h
    obtain ⟨whole, rest₁, hwhole, fraction, rest₂, hfraction, exponent, rest₃, hexponent, hl⟩ := h
    cases hl
    obtain ⟨rfl, hw⟩ := eq_append_of_whole? hwhole
    obtain ⟨behind, rfl, hf⟩ := eq_append_of_fraction? hfraction
    obtain ⟨last, rfl, he⟩ := eq_append_of_exponent? hexponent
    exact ⟨whole, fraction, exponent, behind, last, by simp, hw, hf, he, rfl⟩
  unfold scan? at h
  split at h
  · obtain ⟨whole, fraction, exponent, behind, last, rfl, hw, hf, he, rfl⟩ := hunsigned true _ h
    exact ⟨_, rfl, .negative hw hf he⟩
  · obtain ⟨whole, fraction, exponent, behind, last, rfl, hw, hf, he, rfl⟩ := hunsigned false _ h
    exact ⟨_, rfl, .unsigned hw hf he⟩

/-! ### Every spelling is read -/

theorem digits?_append {ds rest : List Char} (h : Digits ds)
    (hr : ∀ c ∈ rest.head?, c.isDigit = false) : digits? (ds ++ rest) = some (ds, rest) := by
  obtain ⟨hne, hd⟩ := h
  have htake : rest.takeWhile Char.isDigit = [] := by
    cases rest with
    | nil => rfl
    | cons c rest => rw [List.takeWhile_cons_of_neg (by simp [hr c rfl])]
  have hdrop : rest.dropWhile Char.isDigit = rest := by
    cases rest with
    | nil => rfl
    | cons c rest => rw [List.dropWhile_cons_of_neg (by simp [hr c rfl])]
  rw [digits?, List.takeWhile_append_of_pos hd, htake, List.append_nil,
    List.dropWhile_append_of_pos hd, hdrop]
  cases ds with
  | nil => exact absurd rfl hne
  | cons d ds => rfl

theorem whole?_append {ds rest : List Char} (h : Whole ds)
    (hr : ∀ c ∈ rest.head?, c.isDigit = false) : whole? (ds ++ rest) = some (ds, rest) := by
  rw [whole?, digits?_append h.1 hr]
  split
  · rename_i heq
    cases heq
    cases h.2 rfl
  · rfl

theorem fraction?_append {ds behind rest : List Char} (h : Fraction ds behind)
    (hr : ∀ c ∈ rest.head?, c.isDigit = false ∧ c ≠ '.') :
    fraction? (behind ++ rest) = some (ds, rest) := by
  cases h with
  | none =>
      unfold fraction?
      split
      · rename_i tail heq
        have hrest : rest = '.' :: tail := heq
        exact absurd rfl (hr '.' (hrest ▸ rfl)).2
      · rfl
  | digits h => exact digits?_append h fun c hc => (hr c hc).1

theorem Digits.isDigit_of_eq_cons {ds rest tail : List Char} {c : Char} (h : Digits ds)
    (heq : ds ++ rest = c :: tail) : c.isDigit := by
  obtain ⟨d, more, rfl⟩ := List.exists_cons_of_ne_nil h.1
  cases heq
  exact h.2 c (List.mem_cons_self ..)

theorem exponent?_append {e : Option (Bool × List Char)} {last rest : List Char}
    (h : Exponent e last) (hr : Ends rest) : exponent? (last ++ rest) = some (e, rest) := by
  have hdigit : ∀ c ∈ rest.head?, c.isDigit = false := fun c hc => (hr c hc).1
  have hmark : ∀ {mark : Char}, mark = 'e' ∨ mark = 'E' → ∀ text,
      exponent? (mark :: text) = (exponentDigits? text).map fun p => (some p.1, p.2) := by
    rintro mark (rfl | rfl) text <;> rfl
  cases h with
  | none =>
      unfold exponent?
      split
      · rename_i tail heq
        have hrest : rest = 'e' :: tail := heq
        exact absurd rfl (hr 'e' (hrest ▸ rfl)).2.2.1
      · rename_i tail heq
        have hrest : rest = 'E' :: tail := heq
        exact absurd rfl (hr 'E' (hrest ▸ rfl)).2.2.2
      · rfl
  | @bare mark ds hm h =>
      have hds : exponentDigits? (ds ++ rest) = some ((false, ds), rest) := by
        unfold exponentDigits?
        -- no digit is a sign
        split
        · rename_i heq
          exact absurd (h.isDigit_of_eq_cons heq) (by decide)
        · rename_i heq
          exact absurd (h.isDigit_of_eq_cons heq) (by decide)
        · rw [digits?_append h hdigit]
          rfl
      rw [List.cons_append, hmark hm, hds]
      rfl
  | plus hm h =>
      rw [List.cons_append, hmark hm, List.cons_append, exponentDigits?, digits?_append h hdigit]
      rfl
  | minus hm h =>
      rw [List.cons_append, hmark hm, List.cons_append, exponentDigits?, digits?_append h hdigit]
      rfl

/-- **Every spelling of a number is read**, if the number ends there. -/
theorem scan?_append {l : Literal} {written rest : List Char} (h : Spelling l written)
    (hr : Ends rest) : scan? (written ++ rest) = some (l, rest) := by
  have hunsigned : ∀ (negative : Bool) {whole fraction behind last : List Char}
      {exponent : Option (Bool × List Char)}, Whole whole → Fraction fraction behind →
      Exponent exponent last → unsigned? negative (whole ++ behind ++ last ++ rest) = some
        (⟨negative, whole, fraction, exponent, fraction.isEmpty && exponent.isNone⟩, rest) := by
    intro negative whole fraction behind last exponent hw hf he
    -- an exponent begins with its letter, and a fraction with the point
    have hlast : ∀ c ∈ (last ++ rest).head?, c.isDigit = false ∧ c ≠ '.' := by
      intro c hc
      cases he with
      | none => exact ⟨(hr c hc).1, (hr c hc).2.1⟩
      | bare hm | plus hm | minus hm =>
          cases hc
          rcases hm with rfl | rfl <;> decide
    have hbehind : ∀ c ∈ (behind ++ (last ++ rest)).head?, c.isDigit = false := by
      intro c hc
      cases hf with
      | none => exact (hlast c hc).1
      | digits =>
          cases hc
          decide
    rw [List.append_assoc, List.append_assoc, unsigned?, whole?_append hw hbehind]
    simp [fraction?_append hf hlast, exponent?_append he hr]
  cases h with
  | @unsigned whole _ _ _ _ hw hf he =>
      rw [← hunsigned false hw hf he]
      unfold scan?
      split
      · -- no digit is a minus sign
        rename_i heq
        rw [List.append_assoc, List.append_assoc] at heq
        exact absurd (hw.1.isDigit_of_eq_cons heq) (by decide)
      · rfl
  | negative hw hf he => exact hunsigned true hw hf he

/-- A number begins with a digit or a minus sign. -/
theorem Spelling.eq_cons {l : Literal} {written : List Char} (h : Spelling l written) :
    ∃ c more, written = c :: more ∧ (c.isDigit ∨ c = '-') := by
  cases h with
  | unsigned hw =>
      obtain ⟨d, more, rfl⟩ := List.exists_cons_of_ne_nil hw.1.1
      exact ⟨d, _, rfl, .inl (hw.1.2 d (List.mem_cons_self ..))⟩
  | negative => exact ⟨'-', _, rfl, .inr rfl⟩

/-! ### The value of a number -/

theorem gather_eq {n taken : Nat} {ds : List Char} (h : continued n ds < UInt64.size) :
    gather n taken ds = (continued n ds, taken + ds.length) := by
  induction ds generalizing n taken with
  | nil => rfl
  | cons d ds ih =>
      have hnext : n * 10 + digit d < UInt64.size := Nat.lt_of_le_of_lt (le_continued _ ds) h
      rw [gather, if_pos hnext, ih h, List.length_cons, Nat.add_right_comm, Nat.add_assoc]
      rfl

theorem nearestDouble_le (n : Nat) : nearestDouble n ≤ 2 * n := by
  unfold nearestDouble
  split
  · omega
  · rename_i hlarge
    have hne : n ≠ 0 := by
      rintro rfl
      exact hlarge (by decide)
    have hunit : 1 <<< (n.log2 - 52) ≤ n := by
      rw [Nat.one_shiftLeft]
      exact Nat.le_trans (Nat.pow_le_pow_right (by decide) (Nat.sub_le ..)) (Nat.log2_self_le hne)
    have hquotient := Nat.div_mul_le_self n (1 <<< (n.log2 - 52))
    have hnext := Nat.add_one_mul (n / 1 <<< (n.log2 - 52)) (1 <<< (n.log2 - 52))
    simp only
    split <;> omega

theorem tooLarge_plain {negative : Bool} {whole : List Char}
    (h : continued 0 whole < UInt64.size) : tooLarge ⟨negative, whole, [], none, true⟩ = false := by
  have hfront : gather 0 0 whole = (continued 0 whole, whole.length) := by
    rw [gather_eq h, Nat.zero_add]
  have hone : nearestDouble 1 = 1 := rfl
  have hsmall : nearestDouble (continued 0 whole) * nearestDouble 1 < pastLargest := by
    have hdouble := nearestDouble_le (continued 0 whole)
    have hbound : 2 * UInt64.size < pastLargest := by decide
    rw [hone, Nat.mul_one]
    omega
  rw [tooLarge, hfront]
  simp [gather, exponentValue, hsmall]

/-- An integer of 64 bits is not too large for a double. -/
theorem tooLarge_of_integer? {l : Literal} {written : List Char} (h : Spelling l written) {n : Int}
    (hn : l.integer? = some n) : l.tooLarge = false := by
  have hplain : l.plain = true ∧ continued 0 l.whole < UInt64.size := by
    unfold integer? at hn
    split at hn
    · cases hn
    · rename_i hplain
      refine ⟨Decidable.not_not.mp hplain, ?_⟩
      split at hn
      · cases hn
      · rename_i hbelow
        rw [ofDigitsBelow?_eq (by decide)] at hbelow
        split at hbelow
        · assumption
        · cases hbelow
  cases h with
  | unsigned | negative =>
    obtain ⟨hnone, hsize⟩ := hplain
    obtain ⟨hf, he⟩ := Bool.and_eq_true_iff.mp hnone
    cases List.isEmpty_iff.mp hf
    cases Option.isNone_iff_eq_none.mp he
    exact tooLarge_plain hsize

/-- **The value of a number** is the one that it spells, unless it is too large for a double. -/
theorem value?_eq_some_iff {l : Literal} {written : List Char} (h : Spelling l written) {v : Json} :
    l.value? = some v ↔ v = l.json ∧ l.tooLarge = false := by
  unfold value? json
  cases hn : l.integer? with
  | some n => simp [tooLarge_of_integer? h hn, eq_comm]
  | none =>
      cases hlarge : l.tooLarge with
      | true => simp
      | false => simp [eq_comm]

end Literal

/-! ## Strings -/

namespace Token

/-- A character of a string: as it is, as a letter behind a backslash, as four hexadecimal digits or,
past U+FFFF, as two times four. -/
inductive CharSpelling : Char → List Char → Prop where
  | bare {c} (hquote : c ≠ '"') (hslash : c ≠ '\\') (hcontrol : 0x20 ≤ c.toNat) : CharSpelling c [c]
  | letter {e c} (h : shortEscape? e = some c) : CharSpelling c ['\\', e]
  | unit {a b c d u} (h : unit? a b c d = some u) (hu : u < 0xD800 ∨ 0xDFFF < u) :
      CharSpelling (Char.ofNat u) ['\\', 'u', a, b, c, d]
  | pair {a b c d high a' b' c' d' low} (hhigh : unit? a b c d = some high)
      (hlow : unit? a' b' c' d' = some low) (hu : 0xD800 ≤ high ∧ high ≤ 0xDBFF)
      (hu' : 0xDC00 ≤ low ∧ low ≤ 0xDFFF) :
      CharSpelling (Char.ofNat (0x10000 + (high - 0xD800) * 0x400 + (low - 0xDC00)))
        ['\\', 'u', a, b, c, d, '\\', 'u', a', b', c', d']

/-- The characters of a string, one after the other. -/
inductive CharsSpelling : List Char → List Char → Prop where
  | nil : CharsSpelling [] []
  | cons {c cs written more} (h : CharSpelling c written) (hs : CharsSpelling cs more) :
      CharsSpelling (c :: cs) (written ++ more)

/-- **A string that is read is spelled in the text.** -/
theorem spelling_of_stringFrom {seen text rest : List Char} {s : String}
    (h : stringFrom seen text = some (s, rest)) :
    ∃ cs written, text = written ++ '"' :: rest ∧ CharsSpelling cs written
      ∧ s = String.ofList (seen.reverse ++ cs) := by
  -- a character goes from the front of the text to the end of what has been seen
  have hcons : ∀ {seen : List Char} {c : Char} {written text : List Char}, CharSpelling c written →
      (∃ cs more, text = more ++ '"' :: rest ∧ CharsSpelling cs more
        ∧ s = String.ofList ((c :: seen).reverse ++ cs)) →
      ∃ cs all, written ++ text = all ++ '"' :: rest ∧ CharsSpelling cs all
        ∧ s = String.ofList (seen.reverse ++ cs) := by
    rintro seen c written _ hc ⟨cs, more, rfl, hcs, rfl⟩
    exact ⟨c :: cs, written ++ more, by simp, .cons hc hcs, by simp⟩
  fun_induction stringFrom seen text with
  | case2 seen rest' =>
      cases h
      exact ⟨[], [], rfl, .nil, by simp⟩
  | case5 seen a b c d u hu hhigh a' b' c' d' rest' ch hpair ih =>
      obtain ⟨low, hlow, hch⟩ := Option.bind_eq_some_iff.mp hpair
      unfold pair? at hch
      split at hch
      · rename_i hrange
        obtain rfl := Option.some.inj hch
        exact hcons (.pair hu hlow hhigh hrange) (ih h)
      · cases hch
  | case8 seen a b c d rest' u hu hhigh hlow ih =>
      exact hcons (.unit hu (by omega)) (ih h)
  | case10 seen e rest' hunit ch hshort ih =>
      exact hcons (.letter hshort) (ih h)
  | case12 seen c rest' hquote hunit hshort hbare ih =>
      rw [not_or, Nat.not_lt] at hbare
      exact hcons (.bare hquote hbare.1 hbare.2) (ih h)
  | case1 | case3 | case4 | case6 | case7 | case9 | case11 => cases h

theorem stringFrom_append {c : Char} {written : List Char} (h : CharSpelling c written)
    (seen rest : List Char) : stringFrom seen (written ++ rest) = stringFrom (c :: seen) rest := by
  cases h with
  | bare hquote hslash hcontrol =>
      have hplain : ¬ (c = '\\' ∨ c.toNat < 0x20) := by
        rw [not_or, Nat.not_lt]
        exact ⟨hslash, hcontrol⟩
      rw [List.singleton_append, stringFrom, if_neg hplain]
      · exact hquote
      · rintro a b c' d rest' rfl
        exact absurd rfl hslash
      · rintro c' rest' rfl
        exact absurd rfl hslash
  | letter h =>
      rw [List.cons_append, List.singleton_append, stringFrom, h]
      rintro a b c' d rest' rfl -
      cases h
  | @unit a b c d u h hu =>
      have hhigh : ¬ (0xD800 ≤ u ∧ u ≤ 0xDBFF) := by omega
      have hlow : ¬ (0xDC00 ≤ u ∧ u ≤ 0xDFFF) := by omega
      simp only [List.cons_append, List.nil_append]
      rw [stringFrom, h]
      simp only [if_neg hhigh, if_neg hlow]
  | @pair a b c d high a' b' c' d' low hhigh hlow hu hu' =>
      simp only [List.cons_append, List.nil_append]
      rw [stringFrom, hhigh]
      simp only [if_pos hu, hlow, Option.bind_some, pair?, if_pos hu']

/-- **Every spelling of a string is read.** -/
theorem stringFrom_of_spelling {cs written : List Char} (h : CharsSpelling cs written)
    (seen rest : List Char) :
    stringFrom seen (written ++ '"' :: rest) = some (String.ofList (seen.reverse ++ cs), rest) := by
  induction h generalizing seen with
  | nil => simp [stringFrom]
  | cons hc _ ih =>
      rw [List.append_assoc, stringFrom_append hc, ih, List.reverse_cons, List.append_assoc,
        List.singleton_append]

/-! ## Tokens -/

/-- A token, where the numbers that fit may stand in a text. -/
inductive Spelling (Fits : Literal → Prop) : Token → List Char → Prop where
  | openArray : Spelling Fits .openArray ['[']
  | closeArray : Spelling Fits .closeArray [']']
  | openObject : Spelling Fits .openObject ['\x7b']
  | closeObject : Spelling Fits .closeObject ['\x7d']
  | comma : Spelling Fits .comma [',']
  | colon : Spelling Fits .colon [':']
  | string {cs written} (h : CharsSpelling cs written) :
      Spelling Fits (.string (String.ofList cs)) ('"' :: written ++ ['"'])
  | null : Spelling Fits (.atom .null) ['n', 'u', 'l', 'l']
  | truth : Spelling Fits (.atom (.bool true)) ['t', 'r', 'u', 'e']
  | falsity : Spelling Fits (.atom (.bool false)) ['f', 'a', 'l', 's', 'e']
  | number {l written} (h : Literal.Spelling l written) (hfits : Fits l) :
      Spelling Fits (.atom l.json) written

/-- A token does not begin with a blank. -/
theorem Spelling.eq_cons {Fits : Literal → Prop} {t : Token} {written : List Char}
    (h : Spelling Fits t written) : ∃ c more, written = c :: more ∧ isBlank c = false := by
  cases h with
  | number h =>
      obtain ⟨c, more, rfl, hc⟩ := h.eq_cons
      refine ⟨c, more, rfl, Bool.eq_false_iff.mpr fun hblank => ?_⟩
      simp only [isBlank, Bool.or_eq_true, decide_eq_true_eq] at hblank
      rcases hblank with ((rfl | rfl) | rfl) | rfl <;> exact absurd hc (by decide)
  | _ => exact ⟨_, _, rfl, rfl⟩

/-- **A token that is read is spelled in the text**, and a number fits a double. -/
theorem spelling_of_next? {text rest : List Char} {t : Token} (h : next? text = some (t, rest)) :
    ∃ written, text = written ++ rest ∧ Spelling (·.tooLarge = false) t written := by
  unfold next? at h
  split at h
  case h_1 => cases h; exact ⟨_, rfl, .openArray⟩
  case h_2 => cases h; exact ⟨_, rfl, .closeArray⟩
  case h_3 => cases h; exact ⟨_, rfl, .openObject⟩
  case h_4 => cases h; exact ⟨_, rfl, .closeObject⟩
  case h_5 => cases h; exact ⟨_, rfl, .comma⟩
  case h_6 => cases h; exact ⟨_, rfl, .colon⟩
  case h_7 =>
    obtain ⟨⟨s, more⟩, hstring, heq⟩ := Option.map_eq_some_iff.mp h
    cases heq
    obtain ⟨cs, written, rfl, hcs, rfl⟩ := spelling_of_stringFrom hstring
    exact ⟨'"' :: written ++ ['"'], by simp, .string hcs⟩
  case h_8 => cases h; exact ⟨_, rfl, .truth⟩
  case h_9 => cases h; exact ⟨_, rfl, .falsity⟩
  case h_10 => cases h; exact ⟨_, rfl, .null⟩
  case h_11 =>
    simp only [number?, Option.bind_eq_bind, Option.bind_eq_some_iff, Prod.exists] at h
    obtain ⟨l, rest', hscan, v, hvalue, ht⟩ := h
    cases ht
    obtain ⟨written, rfl, hl⟩ := Literal.spelling_of_scan? hscan
    obtain ⟨rfl, hfits⟩ := (Literal.value?_eq_some_iff hl).mp hvalue
    exact ⟨written, rfl, .number hl hfits⟩

theorem next?_eq_number? {c : Char} (h : c.isDigit ∨ c = '-') (text : List Char) :
    next? (c :: text) = number? (c :: text) := by
  unfold next?
  split
  case h_11 => rfl
  all_goals
    rename_i heq
    obtain ⟨rfl, -⟩ := List.cons.inj heq
    exact absurd h (by decide)

/-- **Every spelling of a token is read**, if what follows a number cannot belong to it. -/
theorem next?_append {t : Token} {written rest : List Char}
    (h : Spelling (·.tooLarge = false) t written)
    (hr : ∀ v, t = .atom v → Literal.Ends rest) : next? (written ++ rest) = some (t, rest) := by
  cases h with
  | string h =>
      rw [List.append_assoc, List.singleton_append, List.cons_append, next?,
        stringFrom_of_spelling h]
      rfl
  | @number l _ h hfits =>
      have hvalue := (Literal.value?_eq_some_iff h).mpr ⟨rfl, hfits⟩
      have hnumber : number? (written ++ rest) = some (.atom l.json, rest) := by
        simp [number?, Literal.scan?_append h (hr _ rfl), hvalue]
      obtain ⟨c, more, rfl, hc⟩ := h.eq_cons
      rw [List.cons_append, next?_eq_number? hc]
      exact hnumber
  | _ => rfl

end Token

end PdfWorker.Json
