import PdfWorker.Json.Number
set_option autoImplicit false

/-! # JSON tokens

`Token.next?` takes one token off the front of a text that does not begin with a blank;
`Token.ofText?` cuts a whole text into tokens. Blanks are the four of the standard, strings hold no
bare character below U+0020, and an escaped surrogate must come in a pair. -/

namespace PdfWorker.Json

/-- A piece of JSON text between blanks. -/
inductive Token where
  | openArray
  | closeArray
  | openObject
  | closeObject
  | comma
  | colon
  /-- A string, which may be a value or a key. -/
  | string (value : String)
  /-- Any other value that holds no further values. -/
  | atom (value : Json)

namespace Token

/-! ## Strings -/

/-- The value of a hexadecimal digit. -/
def hexDigit? (c : Char) : Option Nat :=
  if '0' ≤ c ∧ c ≤ '9' then some (c.toNat - '0'.toNat)
  else if 'a' ≤ c ∧ c ≤ 'f' then some (c.toNat - 'a'.toNat + 10)
  else if 'A' ≤ c ∧ c ≤ 'F' then some (c.toNat - 'A'.toNat + 10)
  else none

/-- The number that four hexadecimal digits write. -/
def unit? (a b c d : Char) : Option Nat := do
  let a ← hexDigit? a
  let b ← hexDigit? b
  let c ← hexDigit? c
  let d ← hexDigit? d
  return ((a * 16 + b) * 16 + c) * 16 + d

/-- The character that a one-letter escape stands for. -/
def shortEscape? : Char → Option Char
  | '"' => some '"'
  | '\\' => some '\\'
  | '/' => some '/'
  | 'b' => some '\x08'
  | 'f' => some '\x0c'
  | 'n' => some '\n'
  | 'r' => some '\r'
  | 't' => some '\t'
  | _ => none

/-- The character of a surrogate pair. -/
def pair? (high low : Nat) : Option Char :=
  if 0xDC00 ≤ low ∧ low ≤ 0xDFFF then
    some (Char.ofNat (0x10000 + (high - 0xD800) * 0x400 + (low - 0xDC00)))
  else none

/-- The rest of a string after its opening quote, given the characters read so far backwards; also
what follows the closing quote. -/
def stringFrom (seen : List Char) : List Char → Option (String × List Char)
  | [] => none
  | '"' :: rest => some (String.ofList seen.reverse, rest)
  | '\\' :: 'u' :: a :: b :: c :: d :: rest =>
    match unit? a b c d with
    | none => none
    | some u =>
      if 0xD800 ≤ u ∧ u ≤ 0xDBFF then
        match rest with
        | '\\' :: 'u' :: a' :: b' :: c' :: d' :: rest' =>
          match (unit? a' b' c' d').bind (pair? u) with
          | none => none
          | some ch => stringFrom (ch :: seen) rest'
        | _ => none
      else if 0xDC00 ≤ u ∧ u ≤ 0xDFFF then none
      else stringFrom (Char.ofNat u :: seen) rest
  | '\\' :: c :: rest =>
    match shortEscape? c with
    | none => none
    | some ch => stringFrom (ch :: seen) rest
  | c :: rest => if c = '\\' ∨ c.toNat < 0x20 then none else stringFrom (c :: seen) rest

/-! ## Tokens -/

/-- A blank of JSON. -/
def isBlank (c : Char) : Bool :=
  c = ' ' || c = '\t' || c = '\n' || c = '\r'

/-- A number as a token. -/
def number? (text : List Char) : Option (Token × List Char) := do
  let (l, rest) ← Literal.scan? text
  let v ← l.value?
  return (atom v, rest)

/-- The token at the front of a text, and what follows it. -/
def next? : List Char → Option (Token × List Char)
  | '[' :: rest => some (openArray, rest)
  | ']' :: rest => some (closeArray, rest)
  | '{' :: rest => some (openObject, rest)
  | '}' :: rest => some (closeObject, rest)
  | ',' :: rest => some (comma, rest)
  | ':' :: rest => some (colon, rest)
  | '"' :: rest => (stringFrom [] rest).map fun (s, r) => (string s, r)
  | 't' :: 'r' :: 'u' :: 'e' :: rest => some (atom (.bool true), rest)
  | 'f' :: 'a' :: 'l' :: 's' :: 'e' :: rest => some (atom (.bool false), rest)
  | 'n' :: 'u' :: 'l' :: 'l' :: rest => some (atom .null, rest)
  | text => number? text

theorem length_stringFrom {seen text rest : List Char} {s : String}
    (h : stringFrom seen text = some (s, rest)) : rest.length < text.length := by
  fun_induction stringFrom seen text <;> simp_all <;> omega

theorem length_next? {text rest : List Char} {t : Token} (h : next? text = some (t, rest)) :
    rest.length < text.length := by
  unfold next? at h
  split at h
  case h_7 =>
    obtain ⟨⟨s, r⟩, hs, he⟩ := Option.map_eq_some_iff.1 h
    simp only [Prod.mk.injEq] at he
    exact Nat.lt_succ_of_lt (he.2 ▸ length_stringFrom hs)
  case h_11 =>
    simp only [number?, Option.bind_eq_bind, Option.bind_eq_some_iff, Prod.exists] at h
    obtain ⟨l, r, hl, v, -, he⟩ := h
    simp only [pure, Option.some.injEq, Prod.mk.injEq] at he
    exact he.2 ▸ Literal.length_scan? hl
  all_goals
    simp only [Option.some.injEq, Prod.mk.injEq] at h
    simp only [← h.2, List.length_cons]
    omega

/-- Cuts a text into the pieces that `first?` takes off its front, after those in `done`, last one
first. Blanks between the pieces are dropped. -/
def cutFrom {α : Type} (first? : List Char → Option (α × List Char))
    (shorter : ∀ {text rest : List Char} {a : α}, first? text = some (a, rest) →
      rest.length < text.length)
    (done : List α) (text : List Char) : Option (List α) :=
  match text with
  | [] => some done.reverse
  | c :: rest =>
    if isBlank c then cutFrom first? shorter done rest
    else
      match _h : first? (c :: rest) with
      | none => none
      | some (a, rest') => cutFrom first? shorter (a :: done) rest'
termination_by text.length
decreasing_by
  · exact Nat.lt_succ_self _
  · exact shorter _h

/-- The tokens of a text, none if it is no sequence of tokens. -/
def ofText? (text : List Char) : Option (List Token) :=
  cutFrom next? length_next? [] text

end Token

end PdfWorker.Json
