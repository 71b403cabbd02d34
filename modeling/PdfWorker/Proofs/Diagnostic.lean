import PdfWorker.Diagnostic.LogLine
import PdfWorker.Proofs.Json.Size
set_option autoImplicit false

/-! # How long diagnostics are

A diagnostic repeats at most the line that it was read from twice, once as its message and once as
its font names. So the diagnostics in a text take a fixed number of octets for each character of it,
however the lines are cut (`LogLine.size_diagnostics_le`).
-/

namespace PdfWorker

open Json (memberSize size_obj_cons octets_quote_le)
open Text (octets)

namespace Diagnostic

/-- The characters of a text that may be missing. -/
def lengthOf (text : Option String) : Nat :=
  match text with
  | some t => t.toList.length
  | none => 0

/-- The characters of all texts in a diagnostic. -/
def wording (d : Diagnostic) : Nat :=
  d.message.toList.length + lengthOf d.font + lengthOf d.substitutedWith

theorem size_str_le (s : String) : (Json.str s).size ≤ 6 * s.toList.length + 2 :=
  octets_quote_le s

theorem sum_optional_le (key : String) (text : Option String) :
    ((text.map fun t => (key, Json.str t)).toList.map memberSize).sum
      ≤ octets (Json.quote key) + 6 * lengthOf text + 4 := by
  cases text with
  | none => exact Nat.zero_le _
  | some t =>
      have ht := size_str_le t
      simp only [Option.map_some, Option.toList_some, List.map_cons, List.map_nil, List.sum_cons,
        List.sum_nil, memberSize, lengthOf]
      omega

/-- **A diagnostic** takes at most six octets for each character of its texts. -/
theorem size_toJson_le (d : Diagnostic) : d.toJson.size ≤ 6 * d.wording + 89 := by
  obtain ⟨severity, category, message, font, other⟩ := d
  have hseverity : memberSize ("severity", .str severity.name) = 21 := by
    cases severity
    decide
  have hcategory : memberSize ("category", .str category.name) ≤ 21 := by
    cases category <;> decide
  have hmessage : memberSize ("message", .str message) ≤ 6 * message.toList.length + 13 := by
    have hkey : octets (Json.quote "message") = 9 := by decide
    have htext := size_str_le message
    simp only [memberSize, hkey]
    omega
  have hfont := sum_optional_le "font" font
  have hother := sum_optional_le "substituted_with" other
  have hfontKey : octets (Json.quote "font") = 6 := by decide
  have hotherKey : octets (Json.quote "substituted_with") = 18 := by decide
  rw [toJson, members, List.append_assoc, List.cons_append, size_obj_cons, wording]
  simp only [List.map_cons, List.cons_append, List.nil_append, List.map_append, List.sum_cons,
    List.sum_append]
  omega

end Diagnostic

namespace LogLine

open Text

/-! ## Lines -/

theorem cutAtFirst?_eq_some {phrases : List (List Char)} {text phrase before after : List Char}
    (h : cutAtFirst? phrases text = some (phrase, before, after)) :
    text = before ++ phrase ++ after := by
  obtain ⟨p, -, hp⟩ := List.exists_of_findSome?_eq_some h
  obtain ⟨cut, hcut, heq⟩ := Option.map_eq_some_iff.mp hp
  cases heq
  exact find?_eq_some hcut

theorem length_quoted? {text name rest : List Char} (h : quoted? text = some (name, rest)) :
    name.length + rest.length ≤ text.length := by
  obtain ⟨before, rfl, -⟩ := quoted?_eq_some h
  simp only [List.length_append, List.length_cons]
  omega

theorem length_lastQuoted? {text name rest : List Char}
    (h : lastQuoted? text = some (name, rest)) : name.length + rest.length ≤ text.length := by
  obtain ⟨before, rfl, -⟩ := lastQuoted?_eq_some h
  simp only [List.length_append, List.length_cons]
  omega

/-- The name of a missing font and what follows it stand side by side in the line. -/
theorem length_missingFont? {line name rest : List Char}
    (h : missingFont? line = some (name, rest)) : name.length + rest.length ≤ line.length := by
  unfold missingFont? at h
  split at h
  · rename_i phrase before after hcut
    have hline := congrArg List.length (cutAtFirst?_eq_some hcut)
    simp only [List.length_append] at hline
    split at h
    · split at h
      · -- the name stands before the phrase, and the rest of the line counts as following it
        rename_i name' rest' hquoted
        have hbefore := length_lastQuoted? hquoted
        cases h
        simp only [List.length_append]
        omega
      · have hafter := length_quoted? h
        omega
    · have hafter := length_quoted? h
      omega
  · split at h
    · rename_i phrase before after hcut
      have hline := congrArg List.length (cutAtFirst?_eq_some hcut)
      have hafter := length_quoted? h
      simp only [List.length_append] at hline
      omega
    · cases h

theorem length_substitution? {rest name : List Char} (h : substitution? rest = some name) :
    name.length ≤ rest.length := by
  unfold substitution? at h
  split at h
  · rename_i phrase before after hcut
    have hrest := congrArg List.length (cutAtFirst?_eq_some hcut)
    obtain ⟨⟨name', rest'⟩, hquoted, heq⟩ := Option.map_eq_some_iff.mp h
    have hafter := length_quoted? hquoted
    simp only [List.length_append] at hrest
    simp only at heq
    subst heq
    omega
  · cases h

theorem lengthOf_nonEmpty (name : List Char) :
    Diagnostic.lengthOf (nonEmpty name) ≤ name.length := by
  unfold nonEmpty
  split
  · exact Nat.zero_le _
  · simp [Diagnostic.lengthOf]

theorem length_message (line : List Char) : (message line).toList.length ≤ line.length := by
  have hcut : (body line).length ≤ line.length := by
    have hdrop : (body line).length ≤ ((afterColons 3 line).getD line).length :=
      (List.dropWhile_suffix _).length_le
    cases hcolons : afterColons 3 line with
    | none =>
        rw [hcolons] at hdrop
        exact hdrop
    | some rest =>
        rw [hcolons] at hdrop
        exact Nat.le_trans hdrop (afterColons_suffix hcolons).length_le
  rw [message, String.toList_ofList]
  exact Nat.le_trans (length_fit _ _) hcut

theorem wording_fontDiagnostic (line : List Char) :
    (fontDiagnostic line).wording ≤ 2 * line.length := by
  have hmessage := length_message line
  unfold fontDiagnostic
  split
  · rename_i name rest hfont
    have hboth := length_missingFont? hfont
    have hname := lengthOf_nonEmpty name
    have hother : Diagnostic.lengthOf ((substitution? rest).bind nonEmpty) ≤ rest.length := by
      cases hs : substitution? rest with
      | none => exact Nat.zero_le _
      | some other => exact Nat.le_trans (lengthOf_nonEmpty other) (length_substitution? hs)
    simp only [Diagnostic.wording]
    omega
  · simp only [Diagnostic.wording, Diagnostic.lengthOf]
    omega

/-- **A warning is repeated at most twice** in its diagnostic, and has the marker of a warning. -/
theorem wording_diagnostic? {line : List Char} {d : Diagnostic} (h : diagnostic? line = some d) :
    d.wording ≤ 2 * line.length ∧ 5 ≤ line.length := by
  have hreturn := length_withoutReturn line
  unfold diagnostic? ofLine? at h
  split at h
  · rename_i hwarning
    have hmarker : 5 ≤ (withoutReturn line).length := by
      simp only [isWarning, Bool.and_eq_true, occurs] at hwarning
      obtain ⟨⟨before, after⟩, hcut⟩ := Option.isSome_iff_exists.mp hwarning.2
      have hlength := congrArg List.length (find?_eq_some hcut)
      have hwarn : warnMarker.length = 5 := by decide
      simp only [List.length_append, hwarn] at hlength
      omega
    refine ⟨?_, by omega⟩
    cases h
    split
    · have hfont := wording_fontDiagnostic (withoutReturn line)
      omega
    · have hmessage := length_message (withoutReturn line)
      simp only [Diagnostic.wording, Diagnostic.lengthOf]
      omega
  · cases h

/-! ## Whole texts -/

theorem sum_size_filterMap (lines : List (List Char)) :
    (((lines.filterMap diagnostic?).map Diagnostic.toJson).map fun v => v.size + 1).sum
      ≤ 30 * (lines.map List.length).sum := by
  induction lines with
  | nil => exact Nat.le_refl 0
  | cons line rest ih =>
      rw [List.map_cons, List.sum_cons]
      cases h : diagnostic? line with
      | none =>
          rw [List.filterMap_cons_none h]
          omega
      | some d =>
          obtain ⟨hwording, hlength⟩ := wording_diagnostic? h
          have hd := d.size_toJson_le
          rw [List.filterMap_cons_some h, List.map_cons, List.map_cons, List.sum_cons]
          omega

/-- **The diagnostics in a text** take at most thirty octets for each of its characters. -/
theorem size_diagnostics_le (text : List Char) :
    (Json.arr ((diagnostics text).map Diagnostic.toJson)).size ≤ 30 * text.length + 2 := by
  have hitems := sum_size_filterMap (lines text)
  have hlines := sum_length_lines text
  have harr := Json.size_arr_le ((diagnostics text).map Diagnostic.toJson)
  rw [diagnostics] at harr ⊢
  omega

/-- Where nothing was written there are no diagnostics. -/
theorem ofOctets_empty : ofOctets .empty = [] := by
  rw [ofOctets, ByteArray.toList_empty]
  rfl

/-- The diagnostics in what the engine wrote take at most thirty octets for each octet of it. -/
theorem size_ofOctets_le (raw : ByteArray) :
    (Json.arr ((ofOctets raw).map Diagnostic.toJson)).size ≤ 30 * raw.size + 2 := by
  have htext := size_diagnostics_le (decodeLossy raw.toList)
  have hlossy := length_decodeLossy raw.toList
  rw [length_toList] at hlossy
  rw [ofOctets]
  omega

end LogLine

end PdfWorker
