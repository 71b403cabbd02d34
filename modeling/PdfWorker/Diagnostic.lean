import PdfWorker.Json.Record
import PdfWorker.Json.Selective
set_option autoImplicit false

/-! # Diagnostics

A diagnostic is a warning that the engine gave during a conversion. One about fonts may tell which
font was missing and which one took its place. -/

namespace PdfWorker

/-- How serious a diagnostic is. -/
inductive Severity where
  | warning
deriving DecidableEq, Repr, Inhabited

/-- What a diagnostic is about. -/
inductive Category where
  | font
  | general
deriving DecidableEq, Repr, Inhabited

/-- A warning that the engine gave. -/
structure Diagnostic where
  severity : Severity := .warning
  category : Category
  message : String
  /-- The font that the document asks for and the engine does not have. -/
  font : Option String := none
  /-- The font that took its place. -/
  substitutedWith : Option String := none
deriving DecidableEq, Repr

namespace Severity

def name : Severity → String
  | warning => "warning"

def ofName? (n : String) : Option Severity :=
  if n = "warning" then some warning else none

@[simp] theorem ofName?_name (s : Severity) : ofName? s.name = some s := by
  cases s; rfl

end Severity

namespace Category

def name : Category → String
  | font => "font"
  | general => "general"

def ofName? (n : String) : Option Category :=
  if n = "font" then some font else if n = "general" then some general else none

@[simp] theorem ofName?_name (c : Category) : ofName? c.name = some c := by
  cases c <;> decide

end Category

namespace Diagnostic

/-- Whether a diagnostic is about fonts. -/
def isFont (d : Diagnostic) : Bool := d.category = .font

/-- The members of a diagnostic's object. -/
def members (d : Diagnostic) : List (String × Json) :=
  [("severity", .str d.severity.name), ("category", .str d.category.name),
   ("message", .str d.message)] ++
  (d.font.map fun f => ("font", Json.str f)).toList ++
  (d.substitutedWith.map fun f => ("substituted_with", Json.str f)).toList

def toJson (d : Diagnostic) : Json := .obj d.members

/-- The fields of a diagnostic in order. -/
def fieldNames : List String := ["severity", "category", "message", "font", "substituted_with"]

/-- The diagnostic with these values of its fields. -/
def ofFields? (loose : Bool) : List (Option Json) → Option Diagnostic
  | [severity, category, message, font, substitutedWith] => do
    let severity ← ((severity.bind (Json.name? loose)).bind Severity.ofName?)
    let category ← ((category.bind (Json.name? loose)).bind Category.ofName?)
    let message ← message.bind Json.asString?
    let font ← Json.optionalField Json.asString? font
    let substitutedWith ← Json.optionalField Json.asString? substitutedWith
    return { severity, category, message, font, substitutedWith }
  | _ => none

/-- The diagnostic that a value holds; `loose` as for `Json.name?`. -/
def ofJson? (loose : Bool) (v : Json) : Option Diagnostic :=
  (v.fields? fieldNames 3).bind (ofFields? loose)

/-- The diagnostic that octets write. Members that are no field of it are only passed over. -/
def parse? (octets : ByteArray) : Option Diagnostic :=
  (Json.parseSelected? fieldNames octets).bind (ofJson? false)

end Diagnostic

end PdfWorker
