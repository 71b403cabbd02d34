import PdfWorker.Diagnostic
import PdfWorker.Limits
import PdfWorker.Text.Cut
import PdfWorker.Text.Lossy
set_option autoImplicit false

/-! # Diagnostics in the engine's chatter

The engine writes lines such as

    warn:vcl.fonts:1234:Could not select font "Calibri", using "Liberation Sans"

`diagnostic?` reads one line. It looks for known phrases and follows no grammar: a warning with an
unknown phrasing gives a diagnostic without font names, and any other line gives none.
`diagnostics` reads all lines of a text, `ofOctets` all lines of anything the engine wrote. -/

namespace PdfWorker.LogLine

open PdfWorker.Text

/-! ## Phrases -/

/-- What marks a warning. -/
def warnMarker : List Char := "warn:".toList

/-- What marks a warning about fonts. -/
def fontMarkers : List (List Char) := [":fonts:".toList, ":vcl.fonts:".toList]

/-- The phrase that follows the name of a missing font. -/
def trailingPhrase : List Char := "not available".toList

/-- The phrases beside the name of a missing font, in the order in which they are tried. -/
def missingPhrases : List (List Char) :=
  ["Could not select font".toList, "Could not find font".toList, trailingPhrase]

/-- The phrases before the name of a replacement, in the order in which they are tried. -/
def substitutionPhrases : List (List Char) :=
  ["substitut".toList, "replaced".toList, "using".toList]

/-- The first of `phrases` that occurs in `text`, with what stands before and after it. -/
def cutAtFirst? (phrases : List (List Char)) (text : List Char) :
    Option (List Char × List Char × List Char) :=
  phrases.findSome? fun phrase => (find? phrase text).map fun cut => (phrase, cut)

/-! ## Font names -/

/-- The name of the missing font, and what follows its closing quote. A name that stands before
the trailing phrase goes first. -/
def missingFont? (line : List Char) : Option (List Char × List Char) :=
  match cutAtFirst? missingPhrases line with
  | some (phrase, before, after) =>
    if phrase = trailingPhrase then
      match lastQuoted? before with
      | some (name, rest) => some (name, rest ++ phrase ++ after)
      | none => quoted? after
    else quoted? after
  | none =>
    match cutAtFirst? fontMarkers line with
    | some (_, _, after) => quoted? after
    | none => none

/-- The name of the replacement in what follows the missing font. -/
def substitution? (rest : List Char) : Option (List Char) :=
  match cutAtFirst? substitutionPhrases rest with
  | some (_, _, after) => (quoted? after).map (·.1)
  | none => none

/-- A name, unless it is empty. -/
def nonEmpty (name : List Char) : Option String :=
  if name.isEmpty then none else some (String.ofList name)

/-! ## Lines -/

/-- Whether a line, without its carriage return, is a warning. -/
def isWarning (line : List Char) : Bool :=
  warnMarker.length < octets line && occurs warnMarker line

/-- Whether a warning is about fonts. -/
def aboutFonts (line : List Char) : Bool :=
  fontMarkers.any (occurs · line)

/-- What a line says after the three parts that name its origin, without leading spaces. -/
def body (line : List Char) : List Char :=
  ((afterColons 3 line).getD line).dropWhile (· = ' ')

/-- The message of a warning. -/
def message (line : List Char) : String :=
  String.ofList (fit Limits.message (body line))

/-- The diagnostic that a warning about fonts gives. -/
def fontDiagnostic (line : List Char) : Diagnostic :=
  match missingFont? line with
  | some (name, rest) =>
    { category := .font, message := message line, font := nonEmpty name,
      substitutedWith := (substitution? rest).bind nonEmpty }
  | none => { category := .font, message := message line }

/-- The diagnostic that a line without its carriage return gives. -/
def ofLine? (line : List Char) : Option Diagnostic :=
  if isWarning line then
    some (if aboutFonts line then fontDiagnostic line
      else { category := .general, message := message line })
  else none

/-- The diagnostic that a line gives, if it is a warning. -/
def diagnostic? (line : List Char) : Option Diagnostic :=
  ofLine? (withoutReturn line)

/-- The diagnostics that the lines of a text give. -/
def diagnostics (text : List Char) : List Diagnostic :=
  (lines text).filterMap diagnostic?

/-- The diagnostics in what the engine wrote, which need not be text. -/
def ofOctets (raw : ByteArray) : List Diagnostic :=
  diagnostics (decodeLossy raw.toList)

end PdfWorker.LogLine
