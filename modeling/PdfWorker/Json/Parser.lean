import PdfWorker.Json.Token
set_option autoImplicit false

/-! # Parsing JSON

The parser takes one token at a time. Its `State` says which tokens may come next and holds the
containers that are still open, innermost first; `step` is one token, and `ofTokens?` folds it
over all of them. At most `maxDepth` containers may be open at once where a value is read; a value
that nobody reads has no such bound.

`Json.parse?` is the whole reader: octets that are UTF-8 and the text of one value. -/

namespace PdfWorker.Json

/-- The number of containers that may stand inside one another. -/
def maxDepth : Nat := 127

/-- An open container that waits for a value: what it holds already, last first, and in an object
the key of the value. -/
inductive Level where
  | arr (items : List Json)
  | obj (members : List (String × Json)) (key : String)

/-- What the parser waits for, and the open containers around it. -/
inductive State where
  /-- A value. -/
  | value (around : List Level)
  /-- The first value of an array, or its end. -/
  | firstItem (around : List Level)
  /-- A comma or the end of an array that holds `items`. -/
  | afterItem (items : List Json) (around : List Level)
  /-- The first key of an object, or its end. -/
  | firstKey (around : List Level)
  /-- The next key of an object that holds `members`. -/
  | key (members : List (String × Json)) (around : List Level)
  /-- The colon after a key. -/
  | colon (members : List (String × Json)) (key : String) (around : List Level)
  /-- A comma or the end of an object that holds `members`. -/
  | afterMember (members : List (String × Json)) (around : List Level)
  /-- Nothing: the value is complete. -/
  | complete (value : Json)

namespace State

/-- Puts a finished value where it belongs. -/
def deliver (v : Json) : List Level → State
  | [] => complete v
  | .arr items :: around => afterItem (v :: items) around
  | .obj members k :: around => afterMember ((k, v) :: members) around

/-- Whether one more container may be opened, where at most `depth` may be; none is no bound. -/
def mayOpen (depth : Option Nat) (around : List Level) : Bool :=
  depth.all (around.length < ·)

/-- The first token of a value. -/
def begin (depth : Option Nat) (around : List Level) : Token → Option State
  | .atom v => some (deliver v around)
  | .string s => some (deliver (.str s) around)
  | .openArray => if mayOpen depth around then some (firstItem around) else none
  | .openObject => if mayOpen depth around then some (firstKey around) else none
  | _ => none

/-- Takes one token. -/
def step (depth : Option Nat) : State → Token → Option State
  | value around, t => begin depth around t
  | firstItem around, .closeArray => some (deliver (.arr []) around)
  | firstItem around, t => begin depth (.arr [] :: around) t
  | afterItem items around, .comma => some (value (.arr items :: around))
  | afterItem items around, .closeArray => some (deliver (.arr items.reverse) around)
  | firstKey around, .closeObject => some (deliver (.obj []) around)
  | firstKey around, .string k => some (colon [] k around)
  | key members around, .string k => some (colon members k around)
  | colon members k around, .colon => some (value (.obj members k :: around))
  | afterMember members around, .comma => some (key members around)
  | afterMember members around, .closeObject => some (deliver (.obj members.reverse) around)
  | _, _ => none

/-- The value, if it is complete. -/
def result? : State → Option Json
  | complete v => some v
  | _ => none

end State

/-- The value that a sequence of tokens writes. -/
def ofTokens? (tokens : List Token) : Option Json :=
  (tokens.foldlM (State.step maxDepth) (.value [])).bind State.result?

/-- The value that a text writes. -/
def ofText? (text : List Char) : Option Json :=
  (Token.ofText? text).bind ofTokens?

/-- The value that octets write. -/
def parse? (octets : ByteArray) : Option Json :=
  (String.fromUTF8? octets).bind fun s => ofText? s.toList

end PdfWorker.Json
