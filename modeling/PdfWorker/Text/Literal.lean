import PdfWorker.Text.Visible
set_option autoImplicit false

/-! # Text literals

`literal` writes a text between double quotes so that it can be read off unambiguously on one
line: quotes, backslashes and the common controls by a letter, any other character that is not
visible by its code point. -/

namespace PdfWorker.Text

/-- A code point as it stands in a literal. -/
def codePoint (c : Char) : List Char :=
  '\\' :: 'u' :: '\x7b' :: Nat.toDigits 16 c.toNat ++ ['\x7d']

/-- A character as it stands in a literal. -/
def literalChar (c : Char) : List Char :=
  if c = '"' then ['\\', '"']
  else if c = '\\' then ['\\', '\\']
  else if c = '\n' then ['\\', 'n']
  else if c = '\r' then ['\\', 'r']
  else if c = '\t' then ['\\', 't']
  else if c = '\x00' then ['\\', '0']
  else if isVisible c then [c]
  else codePoint c

/-- A text with its quotes. -/
def literal (s : String) : String :=
  String.ofList ('"' :: s.toList.flatMap literalChar ++ ['"'])

end PdfWorker.Text
