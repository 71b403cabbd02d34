set_option autoImplicit false

/-! # Cutting text

Texts are lists of characters here. `find?` cuts a text at the first occurrence of a pattern,
`quoted?` and `lastQuoted?` at a pair of double quotes, `fit` at a number of UTF-8 octets, and
`split` at every mark. `find?_eq_some`, `quoted?_eq_some` and `lastQuoted?_eq_some` say that
nothing of the text is lost. -/

namespace PdfWorker.Text

/-! ## Occurrences of a pattern -/

/-- Looks for `pattern` in a text whose characters before it, last one first, are `seen`. -/
def findFrom (pattern seen : List Char) : List Char → Option (List Char × List Char)
  | [] => if pattern.isEmpty then some (seen.reverse, []) else none
  | c :: cs =>
    match pattern.isPrefixOf? (c :: cs) with
    | some rest => some (seen.reverse, rest)
    | none => findFrom pattern (c :: seen) cs

/-- The texts before and after the first occurrence of `pattern`. -/
def find? (pattern text : List Char) : Option (List Char × List Char) :=
  findFrom pattern [] text

/-- Whether `pattern` occurs in `text`. -/
def occurs (pattern text : List Char) : Bool :=
  (find? pattern text).isSome

theorem isPrefixOf?_eq_some {pattern text rest : List Char}
    (h : pattern.isPrefixOf? text = some rest) : text = pattern ++ rest := by
  induction pattern generalizing text with
  | nil => exact Option.some.inj h
  | cons p ps ih =>
    cases text with
    | nil => cases h
    | cons t ts =>
      have hstep : (p :: ps).isPrefixOf? (t :: ts)
          = if p == t then ps.isPrefixOf? ts else none := rfl
      rw [hstep] at h
      split at h
      · rename_i hp
        rw [eq_of_beq hp, ih h, List.cons_append]
      · cases h

theorem findFrom_eq_some {pattern seen text before rest : List Char}
    (h : findFrom pattern seen text = some (before, rest)) :
    seen.reverse ++ text = before ++ pattern ++ rest := by
  induction text generalizing seen with
  | nil =>
    simp only [findFrom] at h
    split at h
    · rename_i he
      simp_all
    · simp at h
  | cons c cs ih =>
    simp only [findFrom] at h
    split at h
    · rename_i r hr
      simp only [Option.some.injEq, Prod.mk.injEq] at h
      obtain ⟨rfl, rfl⟩ := h
      simp [isPrefixOf?_eq_some hr]
    · simpa using ih h

theorem find?_eq_some {pattern text before rest : List Char}
    (h : find? pattern text = some (before, rest)) : text = before ++ pattern ++ rest := by
  simpa using findFrom_eq_some h

/-! ## Quoted names -/

/-- Whether a character may stand inside quotes. -/
def unquoted (c : Char) : Bool := c ≠ '"'

/-- The first text between two double quotes, and what follows the second of them. -/
def quoted? (text : List Char) : Option (List Char × List Char) :=
  match text.dropWhile unquoted with
  | [] => none
  | _ :: inner =>
    match inner.dropWhile unquoted with
    | [] => none
    | _ :: rest => some (inner.takeWhile unquoted, rest)

/-- The last text between two double quotes, and what follows the second of them. -/
def lastQuoted? (text : List Char) : Option (List Char × List Char) :=
  match text.reverse.dropWhile unquoted with
  | [] => none
  | _ :: inner =>
    match inner.dropWhile unquoted with
    | [] => none
    | _ :: _ => some ((inner.takeWhile unquoted).reverse, (text.reverse.takeWhile unquoted).reverse)

theorem dropWhile_unquoted {text rest : List Char} {c : Char}
    (h : text.dropWhile unquoted = c :: rest) :
    c = '"' ∧ text = text.takeWhile unquoted ++ '"' :: rest := by
  have hc : c = '"' := by
    induction text with
    | nil => simp at h
    | cons t ts ih =>
      by_cases ht : unquoted t
      · exact ih (by simpa [List.dropWhile_cons, ht] using h)
      · rw [List.dropWhile_cons, if_neg ht] at h
        have ht' : t = '"' := by simpa [unquoted] using ht
        rw [← (List.cons.inj h).1, ht']
  exact ⟨hc, by rw [← hc, ← h, List.takeWhile_append_dropWhile]⟩

theorem quote_notMem_takeWhile (text : List Char) : '"' ∉ text.takeWhile unquoted := by
  intro h
  simpa [unquoted] using List.all_eq_true.1 (@List.all_takeWhile _ unquoted text) _ h

theorem quoted?_eq_some {text name rest : List Char} (h : quoted? text = some (name, rest)) :
    ∃ before, text = before ++ '"' :: name ++ '"' :: rest ∧ '"' ∉ before ∧ '"' ∉ name := by
  simp only [quoted?] at h
  split at h
  · simp at h
  · rename_i inner h₁
    split at h
    · simp at h
    · rename_i tail h₂
      simp only [Option.some.injEq, Prod.mk.injEq] at h
      obtain ⟨rfl, rfl⟩ := h
      refine ⟨text.takeWhile unquoted, ?_, quote_notMem_takeWhile _, quote_notMem_takeWhile _⟩
      rw [List.append_assoc, List.cons_append, ← (dropWhile_unquoted h₂).2]
      exact (dropWhile_unquoted h₁).2

theorem lastQuoted?_eq_some {text name rest : List Char}
    (h : lastQuoted? text = some (name, rest)) :
    ∃ before, text = before ++ '"' :: name ++ '"' :: rest ∧ '"' ∉ name := by
  simp only [lastQuoted?] at h
  split at h
  · simp at h
  · rename_i inner h₁
    split at h
    · simp at h
    · rename_i q tail h₂
      simp only [Option.some.injEq, Prod.mk.injEq] at h
      obtain ⟨rfl, rfl⟩ := h
      refine ⟨tail.reverse, ?_, by simpa using quote_notMem_takeWhile inner⟩
      have e := (dropWhile_unquoted h₁).2
      rw [(dropWhile_unquoted h₂).2] at e
      simpa using congrArg List.reverse e

/-! ## Lengths and lines -/

/-- The octets that the UTF-8 form of a text takes. -/
def octets (text : List Char) : Nat :=
  text.foldl (fun n c => n + c.utf8Size) 0

/-- The longest beginning of a text that takes at most `limit` octets. -/
def fit : Nat → List Char → List Char
  | _, [] => []
  | limit, c :: cs => if c.utf8Size ≤ limit then c :: fit (limit - c.utf8Size) cs else []

/-- What follows the `n`-th colon, if there are that many. -/
def afterColons : Nat → List Char → Option (List Char)
  | 0, text => some text
  | _ + 1, [] => none
  | n + 1, c :: cs => if c = ':' then afterColons n cs else afterColons (n + 1) cs

/-- Cuts the rest of a text at every `mark`, given the finished pieces and the begun one, both
backwards. -/
def splitFrom (mark : Char) (done : List (List Char)) (begun : List Char) :
    List Char → List (List Char)
  | [] => (begun.reverse :: done).reverse
  | c :: cs =>
    if c = mark then splitFrom mark (begun.reverse :: done) [] cs
    else splitFrom mark done (c :: begun) cs

/-- The pieces of a text between its marks; a text without one is one piece. -/
def split (mark : Char) (text : List Char) : List (List Char) :=
  splitFrom mark [] [] text

/-- The lines of a text. -/
def lines (text : List Char) : List (List Char) :=
  split '\n' text

/-- A line without one carriage return at its end. -/
def withoutReturn (line : List Char) : List Char :=
  if line.getLast? = some '\r' then line.dropLast else line

end PdfWorker.Text
