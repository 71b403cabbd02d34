import PdfWorker.Proofs.Diagnostic.Phrasings
import PdfWorker.Proofs.Text.Slices
set_option autoImplicit false

/-! # Diagnostics read by slices

`LogLine` cuts lines at characters. A reader that keeps its line where it is counts octets instead:
it looks for markers, phrases and quotes, and takes slices of the line between the offsets that it
finds and those that it adds up from them. `Sliced` is that reader. Each of its functions gives none
as soon as it takes a slice that there is not; where nothing is found it gives `some none`.
`Sliced.slices_legal` says that no line and no output of an engine ever leads it to such a slice, and
that it reads what `LogLine` does.
-/

namespace PdfWorker.LogLine.Sliced

open Text

/-! ## The reader -/

/-- The first of `phrases` that stands in a text, with its offset. -/
def firstOffset? (phrases : List (List Char)) (text : String) : Option (List Char × Nat) :=
  phrases.findSome? fun phrase => (offsets phrase text).head?.map fun offset => (phrase, offset)

/-- What a line says after the three parts that name its origin, without leading spaces. -/
def body? (line : String) : Option String := do
  let rest ← match (offsets [':'] line)[2]? with
    | some colon => sliceFrom? line (colon + 1)
    | none => some line
  return String.ofList (rest.toList.dropWhile (· = ' '))

/-- A text that is cut to a number of octets. -/
def cut? (limit : Nat) (text : String) : Option String :=
  if text.utf8ByteSize ≤ limit then some text
  else do
    let stop ← lastBoundary? text limit
    sliceTo? text stop

/-- The first text between two double quotes, and the offset behind the second of them. -/
def quoted? (text : String) : Option (Option (String × Nat)) :=
  match (offsets ['"'] text).head? with
  | none => some none
  | some opening => do
    let inner ← sliceFrom? text (opening + 1)
    match (offsets ['"'] inner).head? with
    | none => return none
    | some length => do
      let closing := opening + 1 + length
      let name ← slice? text (opening + 1) closing
      return some (name, closing + 1)

/-- The last text between two double quotes, and the offset behind the second of them. -/
def lastQuoted? (text : String) : Option (Option (String × Nat)) :=
  match (offsets ['"'] text).getLast? with
  | none => some none
  | some closing => do
    let before ← sliceTo? text closing
    match (offsets ['"'] before).getLast? with
    | none => return none
    | some opening => do
      let name ← slice? text (opening + 1) closing
      return some (name, closing + 1)

/-- The first text between two double quotes from an offset on, and the offset behind them. -/
def quotedFrom? (line : String) (start : Nat) : Option (Option (String × Nat)) := do
  let rest ← sliceFrom? line start
  let found ← quoted? rest
  return found.map fun (name, stop) => (name, start + stop)

/-- The name of the missing font, and the offset behind its closing quote. -/
def missingFont? (line : String) : Option (Option (String × Nat)) :=
  match firstOffset? missingPhrases line with
  | some (phrase, offset) =>
    if phrase = trailingPhrase then do
      let before ← sliceTo? line offset
      match ← lastQuoted? before with
      | some found => return some found
      | none => quotedFrom? line (offset + octets phrase)
    else quotedFrom? line (offset + octets phrase)
  | none =>
    match firstOffset? fontMarkers line with
    | some (marker, offset) => quotedFrom? line (offset + octets marker)
    | none => some none

/-- The name of the replacement in what follows the missing font. -/
def substitution? (rest : String) : Option (Option String) :=
  match firstOffset? substitutionPhrases rest with
  | some (_, offset) => do
    let behind ← sliceFrom? rest offset
    let found ← quoted? behind
    return found.map (·.1)
  | none => some none

/-- The diagnostic that a warning about fonts gives. -/
def fontDiagnostic? (line message : String) : Option Diagnostic := do
  match ← missingFont? line with
  | some (name, stop) => do
    let rest ← sliceFrom? line stop
    let other ← substitution? rest
    return { category := .font, message, font := nonEmpty name.toList,
             substitutedWith := other.bind fun name => nonEmpty name.toList }
  | none => return { category := .font, message }

/-- Whether a marker stands in a line. -/
def stands (marker : List Char) (line : String) : Bool := (offsets marker line).head?.isSome

/-- Whether a line, without its carriage return, is a warning. -/
def isWarning (line : String) : Bool :=
  octets warnMarker < line.utf8ByteSize && stands warnMarker line

/-- The diagnostic that a line without its carriage return gives. -/
def ofLine? (line : String) : Option (Option Diagnostic) :=
  if isWarning line then do
    let said ← body? line
    let message ← cut? Limits.message said
    if fontMarkers.any (stands · line) then
      let d ← fontDiagnostic? line message
      return some d
    else return some { category := .general, message }
  else some none

/-- The diagnostic that a line gives, if it is a warning. -/
def diagnostic? (line : String) : Option (Option Diagnostic) :=
  ofLine? (String.ofList (withoutReturn line.toList))

/-- The diagnostics that the lines of a text give. -/
def diagnostics? (text : String) : Option (List Diagnostic) := do
  let found ← (lines text.toList).mapM fun line => diagnostic? (String.ofList line)
  return found.filterMap id

/-- The diagnostics in what the engine wrote, which need not be text. -/
def ofOctets? (raw : ByteArray) : Option (List Diagnostic) :=
  if raw.isEmpty then some []
  else diagnostics? (String.ofList (decodeLossy raw.toList))

/-! ## Names in quotes -/

/-- A name and what follows it, as the name and the offset where that begins. -/
def placed (text : List Char) (found : List Char × List Char) : String × Nat :=
  (String.ofList found.1, octets text - octets found.2)

theorem octets_concat_quote (front : List Char) : octets (front ++ ['"']) = octets front + 1 :=
  octets_append front ['"']

/-- What stands between two quotes is a slice. -/
theorem slice?_quotes (front name back : List Char) :
    slice? (String.ofList (front ++ '"' :: (name ++ '"' :: back))) (octets front + 1)
      (octets front + 1 + octets name) = some (String.ofList name) := by
  have h := slice?_append (front ++ ['"']) name ('"' :: back)
  rw [octets_append (front ++ ['"']) name, octets_concat_quote, List.append_assoc,
    List.append_assoc, List.singleton_append] at h
  exact h

/-- What is placed behind a front ends where the front and what was found end. -/
theorem placed_append (front rest name : List Char) :
    placed (front ++ rest) (name, rest) = (String.ofList name, octets front) := by
  rw [placed, octets_append, Nat.add_sub_cancel_right]

theorem placed_quotes (front name rest : List Char) :
    placed (front ++ '"' :: (name ++ '"' :: rest)) (name, rest)
      = (String.ofList name, octets front + 1 + octets name + 1) := by
  have htext : front ++ '"' :: (name ++ '"' :: rest)
      = front ++ ['"'] ++ name ++ ['"'] ++ rest := by simp
  rw [htext, placed_append, octets_concat_quote, octets_append, octets_concat_quote]

theorem head?_offsets_quote {front : List Char} (hfront : '"' ∉ front) (back : List Char) :
    (offsets ['"'] (String.ofList (front ++ '"' :: back))).head? = some (octets front) := by
  rw [offsets_mark_append, offsets_mark_eq_nil '"' hfront]
  rfl

theorem getLast?_offsets_quote (front : List Char) {back : List Char} (hback : '"' ∉ back) :
    (offsets ['"'] (String.ofList (front ++ '"' :: back))).getLast? = some (octets front) := by
  rw [offsets_mark_append, offsets_mark_eq_nil '"' hback, List.map_nil, List.getLast?_concat]

/-- **The first name in quotes** is found with the offset of what follows it. -/
theorem quoted?_eq (text : List Char) :
    quoted? (String.ofList text) = some ((Text.quoted? text).map (placed text)) := by
  by_cases hopening : '"' ∈ text
  · obtain ⟨front, inner, rfl, hfront⟩ := List.eq_append_cons_of_mem hopening
    rw [quoted?, head?_offsets_quote hfront]
    simp only [sliceFrom?_mark '"' (by decide), Option.bind_eq_bind, Option.bind_some]
    by_cases hclosing : '"' ∈ inner
    · obtain ⟨name, rest, rfl, hname⟩ := List.eq_append_cons_of_mem hclosing
      have hfound := quoted?_joined hfront hname rest []
      simp only [joined] at hfound
      rw [head?_offsets_quote hname, hfound]
      simp only [slice?_quotes, Option.bind_some, Option.map_some, placed_quotes]
      rfl
    · have hfound := quoted?_joined_pair hfront hclosing
      simp only [joined] at hfound
      rw [offsets_mark_eq_nil '"' hclosing, hfound]
      rfl
  · rw [quoted?, offsets_mark_eq_nil '"' hopening, quoted?_of_notMem hopening]
    rfl

/-- A text with a quote has a last one. -/
theorem exists_last_quote {text : List Char} (h : '"' ∈ text) :
    ∃ front back, text = front ++ '"' :: back ∧ '"' ∉ back := by
  obtain ⟨back, front, hreverse, hback⟩ := List.eq_append_cons_of_mem (List.mem_reverse.mpr h)
  refine ⟨front.reverse, back.reverse, ?_, by simpa using hback⟩
  simpa using congrArg List.reverse hreverse

/-- **The last name in quotes** is found with the offset of what follows it. -/
theorem lastQuoted?_eq (text : List Char) :
    lastQuoted? (String.ofList text) = some ((Text.lastQuoted? text).map (placed text)) := by
  by_cases hclosing : '"' ∈ text
  · obtain ⟨before, last, rfl, hlast⟩ := exists_last_quote hclosing
    rw [lastQuoted?, getLast?_offsets_quote before hlast]
    simp only [sliceTo?_append, Option.bind_eq_bind, Option.bind_some]
    by_cases hopening : '"' ∈ before
    · obtain ⟨front, name, rfl, hname⟩ := exists_last_quote hopening
      have hstop : octets (front ++ '"' :: name) = octets front + 1 + octets name := by
        rw [← octets_concat_quote, ← octets_append, List.append_assoc, List.singleton_append]
      have hfound : Text.lastQuoted? (joined [front, name, last]) = some (name, last) :=
        lastQuoted?_joined hname hlast
      simp only [joined] at hfound
      rw [getLast?_offsets_quote front hname, hstop, List.append_assoc, List.cons_append, hfound]
      simp only [slice?_quotes, Option.bind_some, Option.map_some, placed_quotes]
      rfl
    · have hfound := lastQuoted?_joined_pair hopening hlast
      simp only [joined] at hfound
      rw [offsets_mark_eq_nil '"' hopening, hfound]
      rfl
  · rw [lastQuoted?, offsets_mark_eq_nil '"' hclosing, lastQuoted?_of_notMem hclosing]
    rfl

/-! ## Phrases -/

/-- The first phrase is found with the offset at which the line is cut. -/
theorem firstOffset?_eq {phrases : List (List Char)} (hne : ∀ phrase ∈ phrases, phrase ≠ [])
    (text : List Char) :
    firstOffset? phrases (String.ofList text)
      = (cutAtFirst? phrases text).map fun cut => (cut.1, octets cut.2.1) := by
  induction phrases with
  | nil => rfl
  | cons phrase phrases ih =>
      obtain ⟨hphrase, hphrases⟩ := List.forall_mem_cons.mp hne
      rw [firstOffset?, cutAtFirst?, List.findSome?_cons, List.findSome?_cons,
        head?_offsets hphrase]
      cases find? phrase text with
      | some cut => rfl
      | none => exact ih hphrases

/-- What follows a name that is found behind a front is what follows it in the whole. -/
theorem quotedFrom?_eq (front rest : List Char) :
    quotedFrom? (String.ofList (front ++ rest)) (octets front)
      = some ((Text.quoted? rest).map (placed (front ++ rest))) := by
  rw [quotedFrom?, sliceFrom?_append]
  simp only [Option.bind_eq_bind, Option.bind_some, quoted?_eq]
  cases hfound : Text.quoted? rest with
  | none => rfl
  | some found =>
      obtain ⟨name, behind⟩ := found
      obtain ⟨before, hrest, -⟩ := Text.quoted?_eq_some hfound
      have hle : octets behind ≤ octets rest := by
        rw [hrest]
        simp only [octets_append, octets_cons]
        omega
      simp only [Option.map_some, placed, octets_append, Nat.add_sub_assoc hle]
      rfl

/-- Text behind both changes nothing about where a name ends. -/
theorem placed_append_right (text name rest more : List Char) :
    placed (text ++ more) (name, rest ++ more) = placed text (name, rest) := by
  rw [placed, placed, octets_append, octets_append, Nat.add_sub_add_right]

/-- **The missing font** is found with the offset of what follows its name. -/
theorem missingFont?_eq (line : List Char) :
    missingFont? (String.ofList line) = some ((LogLine.missingFont? line).map (placed line)) := by
  have hbehind : ∀ {phrases phrase before after},
      cutAtFirst? phrases line = some (phrase, before, after) →
      quotedFrom? (String.ofList line) (octets before + octets phrase)
        = some ((Text.quoted? after).map (placed line)) := by
    intro phrases phrase before after hcut
    rw [cutAtFirst?_eq_some hcut, ← octets_append, quotedFrom?_eq]
  rw [missingFont?, LogLine.missingFont?,
    firstOffset?_eq (by decide : ∀ phrase ∈ missingPhrases, phrase ≠ [])]
  cases hcut : cutAtFirst? missingPhrases line with
  | none =>
      rw [firstOffset?_eq (by decide : ∀ marker ∈ fontMarkers, marker ≠ [])]
      cases hmarker : cutAtFirst? fontMarkers line with
      | none => rfl
      | some cut =>
          obtain ⟨marker, before, after⟩ := cut
          exact hbehind hmarker
  | some cut =>
      obtain ⟨phrase, before, after⟩ := cut
      have hline : line = before ++ (phrase ++ after) := by
        rw [cutAtFirst?_eq_some hcut, List.append_assoc]
      have hbefore : sliceTo? (String.ofList line) (octets before)
          = some (String.ofList before) := by
        rw [hline, sliceTo?_append]
      simp only [Option.map_some, hbefore, Option.bind_eq_bind, Option.bind_some, lastQuoted?_eq]
      split
      · cases hlast : Text.lastQuoted? before with
        | none => exact hbehind hcut
        | some found =>
            obtain ⟨name, rest⟩ := found
            simp only [Option.map_some, List.append_assoc]
            rw [hline, placed_append_right]
            rfl
      · exact hbehind hcut

/-- **The replacement** is found behind the phrase that announces it. -/
theorem substitution?_eq (rest : List Char) :
    substitution? (String.ofList rest)
      = some ((LogLine.substitution? rest).map String.ofList) := by
  rw [substitution?, LogLine.substitution?,
    firstOffset?_eq (by decide : ∀ phrase ∈ substitutionPhrases, phrase ≠ [])]
  cases hcut : cutAtFirst? substitutionPhrases rest with
  | none => rfl
  | some cut =>
      obtain ⟨phrase, before, after⟩ := cut
      have hphrase : '"' ∉ phrase := quote_notMem_phrase
        (List.mem_append_right missingPhrases (find?_of_cutAtFirst? hcut).1)
      have hbehind : sliceFrom? (String.ofList rest) (octets before)
          = some (String.ofList (phrase ++ after)) := by
        rw [cutAtFirst?_eq_some hcut, List.append_assoc, sliceFrom?_append]
      simp only [Option.map_some, hbehind, Option.bind_eq_bind, Option.bind_some, quoted?_eq,
        quoted?_append_of_notMem hphrase, Option.map_map]
      rfl

/-! ## Lines -/

/-- **What a line says** stands behind its third colon, which is found with its offset. -/
theorem body?_eq (line : List Char) :
    body? (String.ofList line) = some (String.ofList (LogLine.body line)) := by
  rw [body?, LogLine.body]
  cases hcolons : afterColons 3 line with
  | none =>
      have hfew : (offsets [':'] (String.ofList line)).length ≤ 2 := by
        rw [length_offsets_mark]
        exact Nat.le_of_lt_succ (count_of_afterColons hcolons)
      rw [List.getElem?_eq_none hfew]
      simp only [Option.bind_eq_bind, Option.bind_some, String.toList_ofList]
      rfl
  | some rest =>
      obtain ⟨front, rfl, hcount⟩ := afterColons_eq_some hcolons
      have hlength : (offsets [':'] (String.ofList front)).length = 2 := by
        rw [length_offsets_mark, hcount]
      have hthird : (offsets [':'] (String.ofList (front ++ ':' :: rest)))[2]?
          = some (octets front) := by
        rw [offsets_mark_append, List.getElem?_append_right (Nat.le_of_eq hlength), hlength]
        rfl
      rw [hthird]
      simp only [sliceFrom?_mark ':' (by decide), Option.bind_eq_bind, Option.bind_some,
        String.toList_ofList]
      rfl

/-- **A text is cut** where the longest beginning that fits ends. -/
theorem cut?_eq (limit : Nat) (text : List Char) :
    cut? limit (String.ofList text) = some (String.ofList (fit limit text)) := by
  rw [cut?, utf8ByteSize_ofList]
  split
  · rename_i h
    rw [fit_of_le h]
  · obtain ⟨back, hback⟩ := fit_front limit text
    have hslice := sliceTo?_append (fit limit text) back
    rw [hback] at hslice
    simp only [lastBoundary?_eq, Option.bind_eq_bind, Option.bind_some, hslice]

theorem stands_eq {marker : List Char} (hne : marker ≠ []) (line : List Char) :
    stands marker (String.ofList line) = occurs marker line := by
  rw [stands, head?_offsets hne, Option.isSome_map, occurs]

theorem isWarning_eq (line : List Char) :
    isWarning (String.ofList line) = LogLine.isWarning line := by
  have hlength : octets warnMarker = warnMarker.length := by decide
  rw [isWarning, LogLine.isWarning, utf8ByteSize_ofList, hlength,
    stands_eq (by decide : warnMarker ≠ [])]

theorem any_stands_fontMarkers (line : List Char) :
    fontMarkers.any (stands · (String.ofList line)) = aboutFonts line := by
  have hne : ∀ marker ∈ fontMarkers, marker ≠ [] := by decide
  rw [aboutFonts, Bool.eq_iff_iff, List.any_eq_true, List.any_eq_true]
  refine exists_congr fun marker => and_congr_right fun hmarker => ?_
  rw [stands_eq (hne marker hmarker)]

/-- What follows the missing font begins at a boundary. -/
theorem exists_front_of_missingFont? {line name rest : List Char}
    (h : LogLine.missingFont? line = some (name, rest)) : ∃ front, line = front ++ rest := by
  obtain ⟨before, hline, -⟩ := missingFont?_eq_some h
  exact ⟨before ++ '"' :: name ++ ['"'], by simp [hline]⟩

theorem fontDiagnostic?_eq (line : List Char) :
    fontDiagnostic? (String.ofList line) (message line) = some (fontDiagnostic line) := by
  rw [fontDiagnostic?, fontDiagnostic, missingFont?_eq]
  cases hmissing : LogLine.missingFont? line with
  | none => rfl
  | some found =>
      obtain ⟨name, rest⟩ := found
      obtain ⟨front, hline⟩ := exists_front_of_missingFont? hmissing
      have hplaced : placed line (name, rest) = (String.ofList name, octets front) := by
        rw [hline, placed_append]
      have hrest : sliceFrom? (String.ofList line) (octets front) = some (String.ofList rest) := by
        rw [hline, sliceFrom?_append]
      simp only [Option.map_some, Option.bind_eq_bind, Option.bind_some, hplaced, hrest,
        substitution?_eq, String.toList_ofList, Option.bind_map, Function.comp_def]
      rfl

/-- **A line** gives the diagnostic that it gives when it is cut at characters. -/
theorem diagnostic?_eq (line : String) :
    diagnostic? line = some (LogLine.diagnostic? line.toList) := by
  rw [diagnostic?, ofLine?, LogLine.diagnostic?, LogLine.ofLine?, isWarning_eq]
  split
  · have hmessage : ∀ bare : List Char,
        String.ofList (fit Limits.message (LogLine.body bare)) = message bare := fun _ => rfl
    simp only [body?_eq, cut?_eq, hmessage, fontDiagnostic?_eq, any_stands_fontMarkers,
      Option.bind_eq_bind, Option.bind_some]
    split
    · rfl
    · rfl
  · rfl

theorem diagnostics?_eq (text : List Char) :
    diagnostics? (String.ofList text) = some (diagnostics text) := by
  have hlines : (lines text).mapM (fun line => diagnostic? (String.ofList line))
      = some ((lines text).map LogLine.diagnostic?) := by
    simp only [diagnostic?_eq, String.toList_ofList]
    exact List.mapM_pure
  rw [diagnostics?, String.toList_ofList, hlines, diagnostics]
  simp only [Option.bind_eq_bind, Option.bind_some, List.filterMap_map]
  rfl

/-- **What the engine wrote** gives the diagnostics that it gives when it is cut at characters. -/
theorem ofOctets?_eq (raw : ByteArray) : ofOctets? raw = some (ofOctets raw) := by
  rw [ofOctets?]
  split
  · rename_i hempty
    have hraw : raw = .empty := ByteArray.size_eq_zero_iff.mp (eq_of_beq hempty)
    rw [hraw, ofOctets_empty]
  · exact diagnostics?_eq _

/-- Every function of the reader takes only slices that there are, whatever text it is given, and the
missing font is found with an offset that is a boundary of the line. -/
structure Legal (text : String) : Prop where
  body : (body? text).isSome
  cut : ∀ limit, (cut? limit text).isSome
  quoted : (quoted? text).isSome
  lastQuoted : (lastQuoted? text).isSome
  missingFont : ∃ found, missingFont? text = some found
    ∧ ∀ name stop, found = some (name, stop) → IsBoundary text stop
  substitution : (substitution? text).isSome

theorem legal (text : String) : Legal text := by
  obtain ⟨text, rfl⟩ := text.exists_eq_ofList
  constructor
  · rw [body?_eq]
    rfl
  · intro limit
    rw [cut?_eq]
    rfl
  · rw [quoted?_eq]
    rfl
  · rw [lastQuoted?_eq]
    rfl
  · refine ⟨_, missingFont?_eq text, ?_⟩
    intro name stop hplaced
    obtain ⟨⟨found, rest⟩, hfound, heq⟩ := Option.map_eq_some_iff.mp hplaced
    obtain ⟨front, rfl⟩ := exists_front_of_missingFont? hfound
    rw [placed_append] at heq
    cases heq
    exact isBoundary_octets front rest
  · rw [substitution?_eq]
    rfl

/-- **No slice is illegal.** There is a slice exactly if its offsets are in order, within the text and
boundaries of it. Whatever text they are given, the functions of the reader take only such slices;
so every line and every output of an engine is read to its end, and gives what `LogLine` reads. -/
theorem slices_legal :
    (∀ text start stop, (slice? text start stop).isSome
      ↔ start ≤ stop ∧ stop ≤ text.utf8ByteSize ∧ IsBoundary text start ∧ IsBoundary text stop)
    ∧ (∀ text, Legal text)
    ∧ (∀ line, diagnostic? line = some (LogLine.diagnostic? line.toList))
    ∧ ∀ raw, ofOctets? raw = some (ofOctets raw) :=
  ⟨fun _ _ _ => isSome_slice?_iff, legal, diagnostic?_eq, ofOctets?_eq⟩

/-- The name ends behind five characters, of which two take two octets. -/
example : missingFont? "é \"ß\" not available" = some (some ("ß", 7)) := by
  decide +kernel

end PdfWorker.LogLine.Sliced
