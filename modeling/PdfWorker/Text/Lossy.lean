set_option autoImplicit false

/-! # Lenient decoding of UTF-8

`decodeLossy` reads any octets as text. A well-formed sequence gives its character; every maximal
beginning of a sequence that is cut short, and every octet that begins none, gives one U+FFFD.
The decoder takes one octet at a time: `Lossy.State` holds the characters found so far and the
begun sequence, `Lossy.octet` is one step. -/

namespace PdfWorker.Text

/-- U+FFFD, which stands for octets that are no text. -/
def replacement : Char := '\uFFFD'

namespace Lossy

/-- A begun sequence: how many octets it still needs, the range of the next one, and the
bits gathered so far. -/
structure Begun where
  need : Nat
  low : UInt8
  high : UInt8
  bits : Nat

/-- The decoder between two octets. -/
structure State where
  /-- The characters decoded so far, last one first. -/
  found : List Char
  begun : Option Begun

/-- The decoder before the first octet. -/
def start : State := ⟨[], none⟩

/-- Continuation octets that have no narrower range. -/
def continuing (need bits : Nat) : Begun := ⟨need, 0x80, 0xBF, bits⟩

/-- What an octet begins: a sequence, or nothing. The second octet's range keeps out overlong
forms, surrogates and values past U+10FFFF. -/
def beginning (b : UInt8) : Option Begun :=
  if 0xC2 ≤ b ∧ b ≤ 0xDF then some (continuing 1 (b.toNat % 32))
  else if b = 0xE0 then some ⟨2, 0xA0, 0xBF, 0⟩
  else if b = 0xED then some ⟨2, 0x80, 0x9F, 13⟩
  else if 0xE1 ≤ b ∧ b ≤ 0xEF then some (continuing 2 (b.toNat % 16))
  else if b = 0xF0 then some ⟨3, 0x90, 0xBF, 0⟩
  else if 0xF1 ≤ b ∧ b ≤ 0xF3 then some (continuing 3 (b.toNat % 8))
  else if b = 0xF4 then some ⟨3, 0x80, 0x8F, 4⟩
  else none

/-- Takes an octet where no sequence is begun. -/
def fresh (found : List Char) (b : UInt8) : State :=
  if b < 0x80 then ⟨Char.ofNat b.toNat :: found, none⟩
  else match beginning b with
    | some begun => ⟨found, some begun⟩
    | none => ⟨replacement :: found, none⟩

/-- Takes one octet. One that cannot continue the begun sequence ends it and is taken afresh. -/
def octet (s : State) (b : UInt8) : State :=
  match s.begun with
  | none => fresh s.found b
  | some p =>
    if p.low ≤ b ∧ b ≤ p.high then
      if p.need ≤ 1 then ⟨Char.ofNat (p.bits * 64 + b.toNat % 64) :: s.found, none⟩
      else ⟨s.found, some (continuing (p.need - 1) (p.bits * 64 + b.toNat % 64))⟩
    else fresh (replacement :: s.found) b

/-- The text found once the octets have ended. -/
def State.text (s : State) : List Char :=
  match s.begun with
  | none => s.found.reverse
  | some _ => (replacement :: s.found).reverse

end Lossy

/-- The text of any octets, with U+FFFD where they are not UTF-8. -/
def decodeLossy (raw : List UInt8) : List Char :=
  (raw.foldl Lossy.octet Lossy.start).text

end PdfWorker.Text
