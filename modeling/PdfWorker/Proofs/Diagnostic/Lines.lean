import PdfWorker.Diagnostic.LogLine
import PdfWorker.Proofs.Text.Lines
set_option autoImplicit false

/-! # Diagnostics line by line

What the engine wrote is decoded as a whole, and any octets may be among it. Still each line gives its
diagnostic by itself: `LogLine.ofOctets_line_by_line` says that the diagnostics are those of the
lines of octets in their order, that a line feed separates what stands before it from what follows,
and that an output that breaks off somewhere loses or changes only the diagnostic of the line that
is cut and those behind it.
-/

namespace PdfWorker.LogLine

open Text (lineFeed decodeLossy)

/-- What stands between the line feeds of an output. -/
def octetLines (raw : ByteArray) : List (List UInt8) := raw.data.toList.splitOn lineFeed

/-- The diagnostic that one line of octets gives, if it is a warning. -/
def ofOctetLine? (line : List UInt8) : Option Diagnostic := diagnostic? (decodeLossy line)

/-- Every line gives its own diagnostic, in the order of the lines. -/
theorem ofOctets_eq_filterMap (raw : ByteArray) :
    ofOctets raw = (octetLines raw).filterMap ofOctetLine? := by
  rw [ofOctets, diagnostics, Text.toList_eq, Text.lines_decodeLossy, List.filterMap_map]
  rfl

theorem octetLines_push_append (front back : ByteArray) :
    octetLines (front.push lineFeed ++ back) = octetLines front ++ octetLines back := by
  have hall : (front.push lineFeed ++ back).data.toList
      = front.data.toList ++ lineFeed :: back.data.toList := by
    simp [ByteArray.data_append]
  rw [octetLines, hall, List.splitOn_append_cons_self]
  rfl

/-- A beginning of an output has the lines of the output, but for the last one, which is cut. -/
theorem octetLines_append (front back : ByteArray) :
    ∃ whole cut more rest, octetLines front = whole ++ [cut]
      ∧ octetLines (front ++ back) = whole ++ (cut ++ more) :: rest := by
  rw [octetLines, octetLines, ByteArray.data_append, Array.toList_append]
  exact Text.splitOn_append lineFeed _ _

/-- **Each line gives its diagnostic by itself**, whatever octets are in it and around it.
A line feed separates what stands before it from what follows; the diagnostics of an output are
those of its lines; and of an output that breaks off, all lines are whole but the last. -/
theorem ofOctets_line_by_line :
    (∀ front back, ofOctets (front.push lineFeed ++ back) = ofOctets front ++ ofOctets back)
    ∧ (∀ raw, ofOctets raw = (octetLines raw).filterMap ofOctetLine?)
    ∧ ∀ front back : ByteArray, ∃ whole cut more rest,
        octetLines front = whole ++ [cut]
        ∧ octetLines (front ++ back) = whole ++ (cut ++ more) :: rest
        ∧ ofOctets front = whole.filterMap ofOctetLine? ++ (ofOctetLine? cut).toList
        ∧ ofOctets (front ++ back) = whole.filterMap ofOctetLine?
            ++ (ofOctetLine? (cut ++ more)).toList ++ rest.filterMap ofOctetLine? := by
  refine ⟨?_, ofOctets_eq_filterMap, ?_⟩
  · intro front back
    rw [ofOctets_eq_filterMap, octetLines_push_append, List.filterMap_append,
      ← ofOctets_eq_filterMap, ← ofOctets_eq_filterMap]
  · intro front back
    obtain ⟨whole, cut, more, rest, hfront, hall⟩ := octetLines_append front back
    have hone : ∀ line, [line].filterMap ofOctetLine? = (ofOctetLine? line).toList := by
      intro line
      cases h : ofOctetLine? line <;> simp [h]
    refine ⟨whole, cut, more, rest, hfront, hall, ?_, ?_⟩
    · rw [ofOctets_eq_filterMap, hfront, List.filterMap_append, hone]
    · rw [ofOctets_eq_filterMap, hall, ← List.singleton_append, List.filterMap_append,
        List.filterMap_append, hone, List.append_assoc]

/-- A warning is told although the octets before its line feed break off a character. -/
example : (ofOctets (([0xF0, 0x9F] ++ lineFeed :: "warn:sw:3:x".toUTF8.data.toList).toByteArray)).map
    (·.message) = ["x"] := by
  decide +kernel

end PdfWorker.LogLine
