import PdfWorker.Json.Basic
set_option autoImplicit false

/-! # Writing JSON

`Json.text` writes a value without blanks, with members in their order. In strings a quote, a
backslash and characters below U+0020 are escaped, by a letter where there is one, and everything
else stands as it is. `Json.encode` gives the octets. -/

namespace PdfWorker.Json

/-- The lower-case hexadecimal digit of a number below 16. -/
def hexDigit (n : Nat) : Char :=
  if n < 10 then Char.ofNat ('0'.toNat + n) else Char.ofNat ('a'.toNat + (n - 10))

/-- A character as it stands in a string. -/
def escape (c : Char) : List Char :=
  if c = '"' then ['\\', '"']
  else if c = '\\' then ['\\', '\\']
  else if c = '\x08' then ['\\', 'b']
  else if c = '\x0c' then ['\\', 'f']
  else if c = '\n' then ['\\', 'n']
  else if c = '\r' then ['\\', 'r']
  else if c = '\t' then ['\\', 't']
  else if c.toNat < 0x20 then
    ['\\', 'u', '0', '0', hexDigit (c.toNat / 16), hexDigit (c.toNat % 16)]
  else [c]

/-- A string with its quotes. -/
def quote (s : String) : List Char :=
  '"' :: s.toList.flatMap escape ++ ['"']

/-- An integer in decimal digits. -/
def digits (n : Int) : List Char :=
  if n < 0 then '-' :: Nat.toDigits 10 n.natAbs else Nat.toDigits 10 n.natAbs

mutual

/-- The text of a value. -/
def text : Json → List Char
  | null => ['n', 'u', 'l', 'l']
  | bool true => ['t', 'r', 'u', 'e']
  | bool false => ['f', 'a', 'l', 's', 'e']
  | int n => digits n
  | real l => l
  | str s => quote s
  | arr items => '[' :: itemsText items ++ [']']
  | obj members => '{' :: membersText members ++ ['}']

/-- Values with commas between them. -/
def itemsText : List Json → List Char
  | [] => []
  | [v] => text v
  | v :: w :: rest => text v ++ ',' :: itemsText (w :: rest)

/-- Keys and values with commas between them. -/
def membersText : List (String × Json) → List Char
  | [] => []
  | [(k, v)] => quote k ++ ':' :: text v
  | (k, v) :: m :: rest => quote k ++ ':' :: text v ++ ',' :: membersText (m :: rest)

end

/-- The octets of a value. -/
def encode (v : Json) : ByteArray :=
  (String.ofList v.text).toUTF8

end PdfWorker.Json
