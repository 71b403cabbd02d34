import PdfWorker.Json.Parser
set_option autoImplicit false

/-! # Reading selected members

A reader that knows the fields of a record need not judge what stands in the other members. It
passes over such a value by its grammar alone: numbers may be too large, surrogates may lack their
partner, strings may hold octets that are no UTF-8, and containers may nest to any depth.

The octets are cut into `Lexeme`s first, which leave strings and numbers as they are written.
`Lexeme.token?` judges a lexeme, `Lexeme.shape` only says what kind of token it is; `Reading` is
the parser that asks for the one or the other. `Json.parseSelected?` is the whole reader. -/

namespace PdfWorker.Json

/-- A token as it is written. Each character stands for one octet of the text. -/
inductive Lexeme where
  /-- A token that can be written in one way only. -/
  | sign (token : Token)
  /-- What stands between the quotes of a string. -/
  | string (written : List Char)
  | number (literal : Literal)

namespace Lexeme

/-! ## Cutting -/

/-- What a string holds after its opening quote, given the characters before backwards; also what
follows the closing quote. -/
def stringFrom (seen : List Char) : List Char → Option (List Char × List Char)
  | [] => none
  | '"' :: rest => some (seen.reverse, rest)
  | '\\' :: 'u' :: a :: b :: c :: d :: rest =>
    if (Token.unit? a b c d).isSome then stringFrom (d :: c :: b :: a :: 'u' :: '\\' :: seen) rest
    else none
  | '\\' :: c :: rest =>
    if (Token.shortEscape? c).isSome then stringFrom (c :: '\\' :: seen) rest else none
  | c :: rest => if c = '\\' ∨ c.toNat < 0x20 then none else stringFrom (c :: seen) rest

/-- The lexeme at the front of a text, and what follows it. -/
def next? : List Char → Option (Lexeme × List Char)
  | '"' :: rest => (stringFrom [] rest).map fun (s, r) => (string s, r)
  | text =>
    match Literal.scan? text with
    | some (l, rest) => some (number l, rest)
    | none => (Token.next? text).map fun (t, rest) => (sign t, rest)

theorem length_stringFrom {seen text rest s : List Char}
    (h : stringFrom seen text = some (s, rest)) : rest.length < text.length := by
  fun_induction stringFrom seen text <;> simp_all <;> omega

theorem length_next? {text rest : List Char} {l : Lexeme} (h : next? text = some (l, rest)) :
    rest.length < text.length := by
  unfold next? at h
  split at h
  · obtain ⟨⟨s, r⟩, hs, he⟩ := Option.map_eq_some_iff.1 h
    simp only [Prod.mk.injEq] at he
    exact Nat.lt_succ_of_lt (he.2 ▸ length_stringFrom hs)
  · split at h
    · rename_i hl
      simp only [Option.some.injEq, Prod.mk.injEq] at h
      exact h.2 ▸ Literal.length_scan? hl
    · obtain ⟨⟨t, r⟩, ht, he⟩ := Option.map_eq_some_iff.1 h
      simp only [Prod.mk.injEq] at he
      exact he.2 ▸ Token.length_next? ht

/-- The octets of a text as characters. -/
def characters (octets : ByteArray) : List Char :=
  octets.toList.map fun b => Char.ofNat b.toNat

/-- The octets that characters stand for. -/
def octets (written : List Char) : ByteArray :=
  ⟨(written.map fun c => UInt8.ofNat c.toNat).toArray⟩

/-- The lexemes of a text. -/
def ofOctets? (text : ByteArray) : Option (List Lexeme) :=
  Token.cutFrom next? length_next? [] (characters text)

/-! ## Judging -/

/-- The text that a string writes. -/
def string? (written : List Char) : Option String := do
  let s ← String.fromUTF8? (octets written)
  let (value, _) ← Token.stringFrom [] (s.toList ++ ['"'])
  return value

/-- The token that a lexeme writes. -/
def token? : Lexeme → Option Token
  | sign t => some t
  | string written => (string? written).map Token.string
  | number l => l.value?.map Token.atom

/-- A token that may stand where the lexeme does. -/
def shape : Lexeme → Token
  | sign t => t
  | string _ => .string ""
  | number _ => .atom .null

end Lexeme

/-! ## Parsing -/

/-- How far a text has been read. -/
inductive Reading where
  /-- Outside the values that are passed over. -/
  | judging (state : State)
  /-- Within the value of a member of the object `around`. -/
  | passing (around : List Level) (inner : State)

namespace Reading

/-- Passes over one lexeme of a value that counts as null. -/
def pass (around : List Level) (inner : State) (l : Lexeme) : Option Reading :=
  (inner.step none l.shape).map fun
    | .complete _ => judging (State.deliver .null around)
    | next => passing around next

/-- Takes one lexeme as the token that it writes. -/
def judge (state : State) (l : Lexeme) : Option Reading := do
  let t ← l.token?
  let next ← state.step maxDepth t
  return judging next

/-- Takes one lexeme. `names` are the members of the outermost object that are read. -/
def step (names : List String) : Reading → Lexeme → Option Reading
  | passing around inner, l => pass around inner l
  | judging (.value [.obj members key]), l =>
    if names.contains key then judge (.value [.obj members key]) l
    else pass [.obj members key] (.value []) l
  | judging state, l => judge state l

/-- The value, if it is complete. -/
def result? : Reading → Option Json
  | judging state => state.result?
  | passing _ _ => none

end Reading

/-- The value that octets write. If it is an object, only its members with these names are read;
the values of the others are null. -/
def parseSelected? (names : List String) (octets : ByteArray) : Option Json := do
  let lexemes ← Lexeme.ofOctets? octets
  let read ← lexemes.foldlM (Reading.step names) (.judging (.value []))
  read.result?

end PdfWorker.Json
