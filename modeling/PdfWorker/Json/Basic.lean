set_option autoImplicit false

/-! # JSON values

A number is an integer only if it is written without fraction and exponent and fits 64 bits;
any other number keeps its written form, since no field of a message takes one. An object keeps
all its members in order, repeated keys included: `Json.lookup` finds the last of them. -/

namespace PdfWorker

/-- A JSON value. -/
inductive Json where
  | null
  | bool (value : Bool)
  /-- A number written as an integer that fits 64 bits, signed or unsigned. -/
  | int (value : Int)
  /-- Any other number, as it was written. -/
  | real (literal : List Char)
  | str (value : String)
  | arr (items : List Json)
  | obj (members : List (String × Json))
deriving Inhabited, Repr

namespace Json

/-! ## Reading a value as what a field expects -/

/-- The value of the last member with this key. -/
def lookup (key : String) : List (String × Json) → Option Json
  | [] => none
  | (k, v) :: rest => (lookup key rest).or (if k = key then some v else none)

/-- The number of members with this key. -/
def occurrences (key : String) (members : List (String × Json)) : Nat :=
  members.countP (·.1 = key)

/-- The value as a text. -/
def asString? : Json → Option String
  | str s => some s
  | _ => none

/-- The value as a truth value. -/
def asBool? : Json → Option Bool
  | bool b => some b
  | _ => none

/-- The value as a list. -/
def asArray? : Json → Option (List Json)
  | arr items => some items
  | _ => none

/-- The value as an object. -/
def asObject? : Json → Option (List (String × Json))
  | obj members => some members
  | _ => none

/-- The value as an integer below `bound` and not negative. -/
def asNatBelow? (bound : Nat) : Json → Option Nat
  | int n => if 0 ≤ n ∧ n < bound then some n.toNat else none
  | _ => none

/-- The value as an unsigned integer of 64 bits. -/
def asUInt64? (v : Json) : Option UInt64 :=
  (v.asNatBelow? UInt64.size).map UInt64.ofNat

/-- The value as a signed integer of 64 bits. -/
def asInt64? : Json → Option Int64
  | int n =>
    if Int64.minValue.toInt ≤ n ∧ n ≤ Int64.maxValue.toInt then some (Int64.ofInt n) else none
  | _ => none

end Json

end PdfWorker
