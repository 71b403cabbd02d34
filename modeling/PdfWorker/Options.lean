import PdfWorker.Json.Basic
import PdfWorker.Text.Literal
set_option autoImplicit false

/-! # What a conversion is asked for

`Format` is the kind of the source document, `PdfVersion` the flavour of the result, `Options`
the settings of one conversion. Formats and flavours travel as numbers; a number that stands for
none is read as the default.

Options are read leniently: a member that is mistyped or out of range counts as absent
(`Options.ofJson`). They are written without the members that have their default value
(`Options.toJson`). `Options.describe` is for logs and never shows the password. -/

namespace PdfWorker

/-! ## Formats and flavours -/

/-- The kind of a source document. -/
inductive Format where
  /-- The engine finds out by itself. -/
  | unknown
  | docx
  | xlsx
  | pptx
deriving DecidableEq, Repr, Inhabited

namespace Format

/-- The number that stands for a format. -/
def number : Format → Nat
  | unknown => 0
  | docx => 1
  | xlsx => 2
  | pptx => 3

/-- The format that a number stands for. -/
def ofNumber : Nat → Format
  | 1 => docx
  | 2 => xlsx
  | 3 => pptx
  | _ => unknown

@[simp] theorem ofNumber_number (f : Format) : ofNumber f.number = f := by
  cases f <;> rfl

theorem number_lt (f : Format) : f.number < 4 := by
  cases f <;> decide

/-- The name of a format in logs. -/
def name : Format → String
  | unknown => "Unknown"
  | docx => "Docx"
  | xlsx => "Xlsx"
  | pptx => "Pptx"

/-- The extension that a file of this format has, if the format is known. -/
def extension? : Format → Option String
  | unknown => none
  | docx => some "docx"
  | xlsx => some "xlsx"
  | pptx => some "pptx"

/-- The format that a member of a message names; anything but a known number is `unknown`. -/
def ofJson (member : Option Json) : Format :=
  ((member.bind (Json.asNatBelow? UInt32.size)).map ofNumber).getD unknown

end Format

/-- The flavour of a PDF. -/
inductive PdfVersion where
  /-- The engine's choice. -/
  | standard
  | pdfA1
  | pdfA2
  | pdfA3
deriving DecidableEq, Repr, Inhabited

namespace PdfVersion

/-- The number that stands for a flavour. -/
def number : PdfVersion → Nat
  | standard => 0
  | pdfA1 => 1
  | pdfA2 => 2
  | pdfA3 => 3

/-- The flavour that a number stands for. -/
def ofNumber : Nat → PdfVersion
  | 1 => pdfA1
  | 2 => pdfA2
  | 3 => pdfA3
  | _ => standard

@[simp] theorem ofNumber_number (v : PdfVersion) : ofNumber v.number = v := by
  cases v <;> rfl

theorem number_lt (v : PdfVersion) : v.number < 4 := by
  cases v <;> decide

/-- The name of a flavour in logs. -/
def name : PdfVersion → String
  | standard => "Default"
  | pdfA1 => "PdfA1"
  | pdfA2 => "PdfA2"
  | pdfA3 => "PdfA3"

end PdfVersion

/-! ## Options -/

/-- The settings of one conversion. What is unset is the engine's choice. -/
structure Options where
  pdfVersion : PdfVersion := .standard
  /-- From 1 to 100. -/
  jpegQuality : Option UInt8 := none
  dpi : Option UInt32 := none
  taggedPdf : Bool := false
  pageRange : Option String := none
  /-- Opens a protected document. -/
  password : Option String := none
deriving DecidableEq, Repr, Inhabited

namespace Options

/-- A number from 1 to 100. -/
def readQuality (v : Json) : Option UInt8 :=
  (v.asNatBelow? 101).bind fun q => if 0 < q then some (UInt8.ofNat q) else none

/-- A positive number of 32 bits. -/
def readDpi (v : Json) : Option UInt32 :=
  (v.asNatBelow? UInt32.size).bind fun d => if 0 < d then some (UInt32.ofNat d) else none

/-- A text that is not empty. -/
def readText (v : Json) : Option String :=
  v.asString?.filter (· ≠ "")

/-- The options that the members of an object give. -/
def ofMembers (members : List (String × Json)) : Options where
  pdfVersion :=
    (((Json.lookup "pdf_version" members).bind (Json.asNatBelow? UInt32.size)).map
      PdfVersion.ofNumber).getD .standard
  jpegQuality := (Json.lookup "jpeg_quality" members).bind readQuality
  dpi := (Json.lookup "dpi" members).bind readDpi
  taggedPdf := ((Json.lookup "tagged_pdf" members).bind Json.asBool?).getD false
  pageRange := (Json.lookup "page_range" members).bind readText
  password := (Json.lookup "password" members).bind readText

/-- The options that a value gives; the defaults if it is no object. -/
def ofJson (v : Json) : Options :=
  match v.asObject? with
  | some members => ofMembers members
  | none => {}

/-- The members of the object that gives these options. -/
def members (o : Options) : List (String × Json) :=
  (if o.pdfVersion = .standard then [] else [("pdf_version", .int o.pdfVersion.number)]) ++
  (o.jpegQuality.map fun q => ("jpeg_quality", Json.int q.toNat)).toList ++
  (o.dpi.map fun d => ("dpi", Json.int d.toNat)).toList ++
  (if o.taggedPdf then [("tagged_pdf", .bool true)] else []) ++
  (o.pageRange.map fun r => ("page_range", Json.str r)).toList ++
  (o.password.map fun p => ("password", Json.str p)).toList

/-- The object that gives these options. -/
def toJson (o : Options) : Json := .obj o.members

/-- An optional value in logs. -/
def describeOption : Option String → String
  | none => "None"
  | some text => "Some(" ++ text ++ ")"

/-- The options in logs. Of a password only its presence is told. -/
def describe (o : Options) : String :=
  "ConversionOptions \x7b pdf_version: " ++ o.pdfVersion.name ++
  ", jpeg_quality: " ++ describeOption (o.jpegQuality.map fun q => toString q.toNat) ++
  ", dpi: " ++ describeOption (o.dpi.map fun d => toString d.toNat) ++
  ", tagged_pdf: " ++ toString o.taggedPdf ++
  ", page_range: " ++ describeOption (o.pageRange.map Text.literal) ++
  ", password: " ++ describeOption (o.password.map fun _ => Text.literal "<redacted>") ++ " \x7d"

end Options

end PdfWorker
