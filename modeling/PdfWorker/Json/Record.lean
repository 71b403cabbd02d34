import PdfWorker.Json.Basic
set_option autoImplicit false

/-! # Records in JSON

A record with fixed fields is written as an object, by name and in any order, or as a list, in the
order of declaration. `fields?` gives the values of the fields either way; the functions after it
read one field each. Unknown members are passed over, and a name given twice spoils the record. -/

namespace PdfWorker.Json

/-- The values of the fields `names`, in this order, where a list must give at least `atLeast`
of them. A field that is not given has no value. -/
def fields? (names : List String) (atLeast : Nat) : Json → Option (List (Option Json))
  | obj members =>
    if names.all (occurrences · members ≤ 1) then some (names.map (lookup · members)) else none
  | arr items =>
    if atLeast ≤ items.length ∧ items.length ≤ names.length then
      some (items.map some ++ List.replicate (names.length - items.length) none)
    else none
  | _ => none

/-- A field that may be missing or null. -/
def optionalField {α : Type} (read : Json → Option α) : Option Json → Option (Option α)
  | none => some none
  | some null => some none
  | some v => (read v).map some

/-- A field that may be missing and is a list of values. -/
def listField {α : Type} (read : Json → Option α) : Option Json → Option (List α)
  | none => some []
  | some (arr items) => items.mapM read
  | some _ => none

/-- A name, written as a text or as an object with this one key and nothing under it: null, or,
where `loose`, an empty object. -/
def name? (loose : Bool) : Json → Option String
  | str s => some s
  | obj [(k, null)] => some k
  | obj [(k, obj [])] => if loose then some k else none
  | _ => none

end PdfWorker.Json
