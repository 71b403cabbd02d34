import PdfWorker.Diagnostic.LogLine
import PdfWorker.Proofs.Text.Cut
import PdfWorker.Proofs.Text.Occurrences
set_option autoImplicit false

/-! # What a diagnostic repeats of its line

`Bare`, `BehindOrigin` and `Unindented` say which part of a line is repeated: not the carriage return
at its end, not the three parts that name its origin, and not the spaces behind them.
`diagnostic?_of_line` says which lines give a diagnostic, which of them are about fonts, and that the
message is the longest beginning of that part which the limit allows.
-/

namespace PdfWorker.LogLine

open Text

/-! ## Parts of a line -/

/-- The line without one carriage return at its end. -/
def Bare (line bare : List Char) : Prop :=
  line = bare ++ ['\r'] ∨ (line = bare ∧ ¬ ['\r'] <:+ line)

/-- What stands behind the third colon of a line, or the whole line if it has fewer of them. -/
def BehindOrigin (line rest : List Char) : Prop :=
  (∃ origin, line = origin ++ ':' :: rest ∧ origin.count ':' = 2)
    ∨ (line.count ':' < 3 ∧ rest = line)

/-- A text without the spaces at its front. -/
def Unindented (text rest : List Char) : Prop :=
  ∃ n, text = List.replicate n ' ' ++ rest ∧ ¬ [' '] <+: rest

theorem bare_withoutReturn (line : List Char) : Bare line (withoutReturn line) := by
  unfold withoutReturn
  split
  · rename_i hlast
    obtain ⟨front, rfl⟩ := List.getLast?_eq_some_iff.mp hlast
    exact .inl (by rw [List.dropLast_concat])
  · rename_i hlast
    refine .inr ⟨rfl, ?_⟩
    rintro ⟨front, rfl⟩
    exact hlast List.getLast?_concat

theorem behindOrigin_afterColons (line : List Char) :
    BehindOrigin line ((afterColons 3 line).getD line) := by
  cases h : afterColons 3 line with
  | some rest => exact .inl (afterColons_eq_some h)
  | none => exact .inr ⟨count_of_afterColons h, rfl⟩

theorem unindented_dropWhile (text : List Char) : Unindented text (text.dropWhile (· = ' ')) := by
  induction text with
  | nil => exact ⟨0, rfl, by simp⟩
  | cons c cs ih =>
      by_cases hc : c = ' '
      · obtain ⟨n, htext, hrest⟩ := ih
        rw [List.dropWhile_cons_of_pos (by simpa using hc)]
        refine ⟨n + 1, ?_, hrest⟩
        rw [hc, List.replicate_succ, List.cons_append, ← htext]
      · rw [List.dropWhile_cons_of_neg (by simpa using hc)]
        refine ⟨0, rfl, ?_⟩
        rw [List.cons_prefix_cons]
        exact fun h => hc h.1.symm

/-! ## Kinds of lines -/

theorem isWarning_iff {line : List Char} :
    isWarning line = true ↔ 5 < octets line ∧ "warn:".toList <:+: line := by
  rw [isWarning, Bool.and_eq_true, decide_eq_true_iff, occurs_iff]
  rfl

theorem aboutFonts_iff {line : List Char} :
    aboutFonts line = true ↔ ":fonts:".toList <:+: line ∨ ":vcl.fonts:".toList <:+: line := by
  simp only [aboutFonts, fontMarkers, List.any_cons, List.any_nil, Bool.or_false, Bool.or_eq_true,
    occurs_iff]

/-- The names of fonts change nothing about what else a diagnostic says. -/
theorem fontDiagnostic_says (line : List Char) :
    (fontDiagnostic line).category = .font ∧ (fontDiagnostic line).message = message line := by
  unfold fontDiagnostic
  split <;> exact ⟨rfl, rfl⟩

theorem isSome_ofLine? {line : List Char} : (ofLine? line).isSome ↔ isWarning line = true := by
  unfold ofLine?
  split
  · rename_i h
    simp [h]
  · rename_i h
    simp [h]

theorem ofLine?_eq_some {line : List Char} {d : Diagnostic} (h : ofLine? line = some d) :
    (d.category = .font ↔ aboutFonts line = true) ∧ d.message = message line := by
  unfold ofLine? at h
  split at h
  · cases h
    obtain ⟨hcategory, hmessage⟩ := fontDiagnostic_says line
    split
    · rename_i hfonts
      exact ⟨iff_of_true hcategory hfonts, hmessage⟩
    · rename_i hfonts
      exact ⟨iff_of_false (by simp) hfonts, rfl⟩
  · cases h

/-- **What the diagnostic of a line is.** There is one exactly if the line, without a carriage
return, is longer than the marker of a warning and holds it; it is about fonts exactly if the line
holds a marker of those. Its message is what the line says behind its origin, cut to 1024 octets
between two characters. -/
theorem diagnostic?_of_line (line : List Char) :
    ∃ bare rest said, Bare line bare ∧ BehindOrigin bare rest ∧ Unindented rest said
      ∧ ((diagnostic? line).isSome
        ↔ 5 < (String.ofList bare).utf8ByteSize ∧ "warn:".toList <:+: bare)
      ∧ ∀ d, diagnostic? line = some d →
        (d.category = .font ↔ ":fonts:".toList <:+: bare ∨ ":vcl.fonts:".toList <:+: bare)
        ∧ Longest 1024 (String.ofList said) d.message
        ∧ ((String.ofList said).utf8ByteSize ≤ 1024 → d.message = String.ofList said)
        ∧ (1024 < (String.ofList said).utf8ByteSize →
          1021 ≤ d.message.utf8ByteSize ∧ d.message.utf8ByteSize ≤ 1024) := by
  refine ⟨withoutReturn line, (afterColons 3 (withoutReturn line)).getD (withoutReturn line),
    body (withoutReturn line), bare_withoutReturn line, behindOrigin_afterColons _,
    unindented_dropWhile _, ?_, ?_⟩
  · rw [utf8ByteSize_ofList, ← isWarning_iff]
    exact isSome_ofLine?
  · intro d hd
    obtain ⟨hfonts, hmessage⟩ := ofLine?_eq_some hd
    rw [hmessage, message, utf8ByteSize_ofList, utf8ByteSize_ofList]
    refine ⟨hfonts.trans aboutFonts_iff, longest_fit _ _, ?_, ?_⟩
    · intro hle
      exact congrArg String.ofList (fit_of_le hle)
    · intro hlt
      have hshort : Limits.message
          < octets (fit Limits.message (body (withoutReturn line))) + 4 := lt_octets_fit hlt
      have hwithin := octets_fit_le Limits.message (body (withoutReturn line))
      have hlimit : Limits.message = 1024 := rfl
      omega

/-- The cut does not break a character off: of 800 letters of two octets, 512 are told. -/
example : (diagnostic? ("warn:sw:1:".toList ++ List.replicate 800 'é')).map
    (·.message.utf8ByteSize) = some 1024 := by
  decide +kernel

end PdfWorker.LogLine
