import PdfWorker.Proofs.Diagnostic.Names
import PdfWorker.Proofs.Text.Occurrences
import Mathlib.Data.List.Find
set_option autoImplicit false

/-! # Phrasings of a missing font

The engine tells of a missing font in three ways, each of which names the font and its replacement
in quotes. Phrases are looked for in the whole line, in a fixed order, so the names themselves may
hold one that is tried earlier: `LogLine.phrasings_told_iff` says exactly for which names each line
gives a diagnostic with both of them. The proof reads a line as the five pieces between its quotes:
what stands before the missing font, its name, what stands between the names, the name of the
replacement, and nothing.
-/

namespace PdfWorker.LogLine

open Text

/-! ## The lines -/

/-- The parts before the message of a warning about fonts. -/
def Origin (origin : List Char) : Prop :=
  ∃ digits : List Char, (∀ c ∈ digits, c.isDigit)
    ∧ (origin = "warn:vcl.fonts:".toList ++ digits ++ ":".toList
      ∨ origin = "warn:fonts:".toList ++ digits ++ ":".toList)

/-- A name that can stand in quotes. -/
def Quotable (name : List Char) : Prop := name ≠ [] ∧ '"' ∉ name

/-- `Could not select font "…", using "…"` -/
def notSelected (origin missing other : List Char) : List Char :=
  origin ++ "Could not select font \"".toList ++ missing ++ "\", using \"".toList ++ other
    ++ "\"".toList

/-- `Could not find font "…" - substituted with "…"` -/
def notFound (origin missing other : List Char) : List Char :=
  origin ++ "Could not find font \"".toList ++ missing ++ "\" - substituted with \"".toList ++ other
    ++ "\"".toList

/-- `font "…" not available, replaced by "…"` -/
def notAvailable (origin missing other : List Char) : List Char :=
  origin ++ "font \"".toList ++ missing ++ "\" not available, replaced by \"".toList ++ other
    ++ "\"".toList

/-- The line gives a diagnostic about fonts with both names. -/
def Tells (line missing other : List Char) : Prop :=
  ∃ d, diagnostic? line = some d ∧ d.category = .font ∧ d.font = some (String.ofList missing)
    ∧ d.substitutedWith = some (String.ofList other)

/-! ## Origins -/

/-- An origin ends in a colon, and has neither a space nor a quote. -/
theorem Origin.eq_append {origin : List Char} (h : Origin origin) :
    ∃ front, origin = front ++ [':'] ∧ ' ' ∉ front ∧ '"' ∉ front := by
  obtain ⟨digits, hdigits, rfl | rfl⟩ := h
  all_goals
    have hspace : ' ' ∉ digits := fun hmem => absurd (hdigits _ hmem) (by decide)
    have hquote : '"' ∉ digits := fun hmem => absurd (hdigits _ hmem) (by decide)
    refine ⟨_, rfl, ?_, ?_⟩
    · simp [hspace]
    · simp [hquote]

theorem Origin.quote_notMem {origin : List Char} (h : Origin origin) : '"' ∉ origin := by
  obtain ⟨front, rfl, -, hquote⟩ := h.eq_append
  simp [hquote]

/-- A phrase with a space and without a colon is found behind the origin. -/
theorem Origin.find? {origin : List Char} (h : Origin origin) {phrase : List Char}
    (hspace : ' ' ∈ phrase) (hcolon : ':' ∉ phrase) (text : List Char) :
    find? phrase (origin ++ text)
      = (Text.find? phrase text).map fun cut => (origin ++ cut.1, cut.2) := by
  obtain ⟨front, rfl, hfront, -⟩ := h.eq_append
  have hnot : ¬ phrase <:+: front := fun hphrase => hfront (hphrase.subset hspace)
  rw [List.append_assoc, List.singleton_append, find?_append_cons hcolon hnot]
  simp

theorem Origin.occurs {origin : List Char} (h : Origin origin) {phrase : List Char}
    (hspace : ' ' ∈ phrase) (hcolon : ':' ∉ phrase) (text : List Char) :
    occurs phrase (origin ++ text) = Text.occurs phrase text := by
  rw [Text.occurs, h.find? hspace hcolon, Option.isSome_map]
  rfl

/-- A line with such an origin is a warning about fonts. -/
theorem Origin.isWarning {origin : List Char} (h : Origin origin) (text : List Char) :
    isWarning (origin ++ text) = true ∧ aboutFonts (origin ++ text) = true := by
  have hboth : (∃ a, origin = warnMarker ++ a ∧ a ≠ [])
      ∧ ∃ marker ∈ fontMarkers, ∃ a b, origin = a ++ marker ++ b := by
    obtain ⟨digits, -, rfl | rfl⟩ := h
    · refine ⟨⟨"vcl.fonts:".toList ++ digits ++ [':'], by simp [warnMarker], by simp⟩,
        ":vcl.fonts:".toList, by simp [fontMarkers], "warn".toList, digits ++ [':'], by simp⟩
    · refine ⟨⟨"fonts:".toList ++ digits ++ [':'], by simp [warnMarker], by simp⟩,
        ":fonts:".toList, by simp [fontMarkers], "warn".toList, digits ++ [':'], by simp⟩
  obtain ⟨⟨a, ha, hne⟩, marker, hmarker, b, c, hc⟩ := hboth
  constructor
  · have hwarn : warnMarker <:+: origin ++ text := ⟨[], a ++ text, by simp [ha]⟩
    have hlong : warnMarker.length < octets (origin ++ text) := by
      have hoctets := length_le_octets (origin ++ text)
      have hpos := List.length_pos_iff.mpr hne
      rw [ha] at hoctets ⊢
      simp only [List.length_append] at hoctets
      omega
    rw [LogLine.isWarning, occurs_iff.mpr hwarn, decide_eq_true hlong]
    rfl
  · have hfonts : marker <:+: origin ++ text := ⟨b, c ++ text, by simp [hc]⟩
    exact List.any_eq_true.mpr ⟨marker, hmarker, occurs_iff.mpr hfonts⟩

/-- What a line tells is what is found in it. -/
theorem Origin.tells_iff {origin : List Char} (h : Origin origin) (text : List Char)
    {missing other : List Char} (hmissing : missing ≠ []) (hother : other ≠ []) :
    Tells (origin ++ text ++ ['"']) missing other
      ↔ ∃ rest, missingFont? (origin ++ text ++ ['"']) = some (missing, rest)
        ∧ substitution? rest = some other := by
  have hline : withoutReturn (origin ++ text ++ ['"']) = origin ++ text ++ ['"'] := by
    simp [withoutReturn]
  have hkind := h.isWarning (text ++ ['"'])
  rw [← List.append_assoc] at hkind
  have hname : ∀ {name : List Char}, name ≠ [] → ∀ found,
      nonEmpty found = some (String.ofList name) ↔ found = name := by
    intro name hne found
    by_cases hfound : found = []
    · simp [nonEmpty, hfound, Ne.symm hne]
    · simp [nonEmpty, hfound, String.ofList_inj]
  have hdiagnostic : diagnostic? (origin ++ text ++ ['"'])
      = some (fontDiagnostic (origin ++ text ++ ['"'])) := by
    simp only [diagnostic?, hline, ofLine?, hkind.1, hkind.2, if_true]
  unfold Tells
  rw [hdiagnostic, fontDiagnostic]
  cases hfound : missingFont? (origin ++ text ++ ['"']) with
  | none => simp
  | some cut =>
      obtain ⟨name, rest⟩ := cut
      constructor
      · rintro ⟨d, hd, -, hfont, hsubstituted⟩
        cases hd
        obtain ⟨found, hsome, hnonEmpty⟩ := Option.bind_eq_some_iff.mp hsubstituted
        obtain rfl := (hname hmissing name).mp hfont
        obtain rfl := (hname hother found).mp hnonEmpty
        exact ⟨rest, rfl, hsome⟩
      · rintro ⟨_, hsame, hsome⟩
        cases hsame
        refine ⟨_, rfl, rfl, (hname hmissing missing).mpr rfl, ?_⟩
        show (substitution? rest).bind nonEmpty = _
        rw [hsome]
        exact (hname hother other).mpr rfl

/-! ## The first phrase of a list -/

/-- A text is cut at the first phrase of the list that occurs in it, wherever that is. -/
theorem cutAtFirst?_eq (phrases : List (List Char)) (text : List Char) :
    cutAtFirst? phrases text = (phrases.find? (occurs · text)).bind fun phrase =>
      (find? phrase text).map fun cut => (phrase, cut) := by
  induction phrases with
  | nil => rfl
  | cons phrase phrases ih =>
      rw [cutAtFirst?, List.findSome?_cons, List.find?_cons, occurs]
      cases h : find? phrase text with
      | none => exact ih
      | some cut => simp [h]

/-- No phrase has a quote. -/
theorem quote_notMem_phrase {phrase : List Char}
    (h : phrase ∈ missingPhrases ++ substitutionPhrases) : '"' ∉ phrase := by
  have hall : ∀ p ∈ missingPhrases ++ substitutionPhrases, '"' ∉ p := by decide
  exact hall phrase h

/-- A phrase that does not occur in every text is not empty. -/
theorem occurs_nil_eq_false {phrase text : List Char} (h : occurs phrase text = false) :
    occurs phrase [] = false := by
  rw [occurs_eq_false_iff] at h ⊢
  intro hnil
  rw [List.infix_nil.mp hnil] at h
  exact h List.nil_infix

section First

variable {phrases more pieces : List (List Char)} (skipped : List (List Char))
  (hquote : ∀ p ∈ phrases, '"' ∉ p) (hne : pieces ≠ [])
include hquote hne

/-- The first phrase that occurs in pieces is the one before which none of the list does. -/
theorem find?_of_first {phrase : List Char} (hphrases : phrases = skipped ++ phrase :: more)
    (hskipped : ∀ p ∈ skipped, ∀ piece ∈ pieces, occurs p piece = false)
    (h : ∃ piece ∈ pieces, occurs phrase piece = true) :
    phrases.find? (occurs · (joined pieces)) = some phrase := by
  rw [List.find?_congr fun p hp => occurs_joined (hquote p hp) hne, List.find?_eq_some_iff_append]
  refine ⟨List.any_eq_true.mpr h, skipped, more, hphrases, fun p hp => ?_⟩
  simpa using hskipped p hp

/-- Either none of the leading phrases occurs in the pieces, or one of them is the first. -/
theorem lacks_or_first (hphrases : phrases = skipped ++ more) :
    (∀ p ∈ skipped, ∀ piece ∈ pieces, occurs p piece = false)
      ∨ ∃ p ∈ skipped, phrases.find? (occurs · (joined pieces)) = some p := by
  cases h : skipped.find? (occurs · (joined pieces)) with
  | none =>
      refine .inl fun p hp => ?_
      have hnot := List.find?_eq_none.mp h p hp
      rw [occurs_joined (hquote p (hphrases ▸ List.mem_append_left more hp)) hne] at hnot
      simpa using hnot
  | some p =>
      refine .inr ⟨p, List.mem_of_find?_eq_some h, ?_⟩
      rw [hphrases, List.find?_append, h]
      rfl

end First

/-- The first phrase that occurs in a list of pieces, and the piece that is cut there. -/
theorem cutAtFirst?_joined {phrases : List (List Char)} {phrase : List Char}
    (hquote : '"' ∉ phrase) (front : List (List Char)) {piece : List Char}
    {more : List (List Char)}
    (hfirst : phrases.find? (occurs · (joined (front ++ piece :: more))) = some phrase)
    (hfront : ∀ p ∈ front, occurs phrase p = false) (hpiece : occurs phrase piece = true) :
    ∃ before rest, piece = before ++ phrase ++ rest
      ∧ cutAtFirst? phrases (joined (front ++ piece :: more))
        = some (phrase, joined (front ++ [before]), joined (rest :: more)) := by
  obtain ⟨before, rest, hfind, heq⟩ := exists_find? (occurs_iff.mp hpiece)
  have hmiss : ∀ p ∈ front, ¬ phrase <:+: p := by
    intro p hp hinfix
    have h := occurs_iff.mpr hinfix
    rw [hfront p hp] at h
    cases h
  refine ⟨before, rest, heq, ?_⟩
  rw [cutAtFirst?_eq, hfirst, Option.bind_some, find?_joined hquote hmiss hfind]
  rfl

/-! ## The replacement -/

/-- The pieces in which the replacement is looked for lack a phrase if two of them do. -/
theorem forall_behind {phrase between other : List Char} (hbetween : occurs phrase between = false)
    (hother : occurs phrase other = false) :
    ∀ piece ∈ [between, other, []], occurs phrase piece = false :=
  List.forall_mem_cons.mpr ⟨hbetween, List.forall_mem_cons.mpr
    ⟨hother, List.forall_mem_singleton.mpr (occurs_nil_eq_false hbetween)⟩⟩

section Replacement

variable {front other phrase : List Char}
  (hfirst : substitutionPhrases.find? (occurs · (joined [front, other, []])) = some phrase)
include hfirst

/-- If the phrase stands before the name, the name is told. -/
theorem substitution?_of_front (hfront : '"' ∉ front) (hother : '"' ∉ other)
    (h : occurs phrase front = true) : substitution? (joined [front, other, []]) = some other := by
  have hquote := quote_notMem_phrase
    (List.mem_append_right missingPhrases (List.mem_of_find?_eq_some hfirst))
  obtain ⟨before, rest, rfl, hcut⟩ := cutAtFirst?_joined hquote [] hfirst (by simp) h
  have hrest : '"' ∉ rest := fun hmem => hfront (by simp [hmem])
  rw [List.nil_append] at hcut
  rw [substitution?, hcut]
  simp only
  rw [quoted?_joined hrest hother]
  rfl

/-- If the phrase stands only in the name, no name in quotes follows it. -/
theorem substitution?_of_name (hother : '"' ∉ other) (hnot : occurs phrase front = false) :
    substitution? (joined [front, other, []]) = none := by
  have hquote := quote_notMem_phrase
    (List.mem_append_right missingPhrases (List.mem_of_find?_eq_some hfirst))
  have hany : occurs phrase (joined [front, other, []]) = true :=
    List.find?_some (p := (occurs · (joined [front, other, []]))) hfirst
  have h : occurs phrase other = true := by
    simpa [occurs_joined hquote (List.cons_ne_nil _ _), hnot, occurs_nil_eq_false hnot] using hany
  obtain ⟨before, rest, rfl, hcut⟩ :=
    cutAtFirst?_joined hquote [front] hfirst (by simpa using hnot) h
  have hrest : '"' ∉ rest := fun hmem => hother (by simp [hmem])
  rw [List.singleton_append] at hcut
  rw [substitution?, hcut]
  simp only
  rw [quoted?_joined_pair hrest (by simp)]
  rfl

end Replacement

/-- A phrase before the name of the replacement tells the name, unless one that is tried earlier
stands in it. -/
theorem substitution?_joined_iff {front other phrase : List Char} (hfront : '"' ∉ front)
    (hother : '"' ∉ other) (skipped : List (List Char)) {more : List (List Char)}
    (hphrases : substitutionPhrases = skipped ++ phrase :: more)
    (hlacks : ∀ p ∈ skipped, occurs p front = false) (h : occurs phrase front = true) :
    substitution? (joined [front, other, []]) = some other
      ↔ ∀ p ∈ skipped, occurs p other = false := by
  have hquote : ∀ p ∈ substitutionPhrases, '"' ∉ p :=
    fun p hp => quote_notMem_phrase (List.mem_append_right missingPhrases hp)
  constructor
  · intro hreplaced
    obtain hnone | ⟨p, hp, hfirst⟩ :=
      lacks_or_first skipped hquote (List.cons_ne_nil front [other, []]) hphrases
    · exact fun p hp => hnone p hp other (by simp)
    · rw [substitution?_of_name hfirst hother (hlacks p hp)] at hreplaced
      cases hreplaced
  · intro hlacksOther
    have hfirst := find?_of_first skipped hquote (List.cons_ne_nil front [other, []]) hphrases
      (fun p hp => forall_behind (hlacks p hp) (hlacksOther p hp))
      ⟨front, List.mem_cons_self .., h⟩
    exact substitution?_of_front hfirst hfront hother h

/-! ## The missing font -/

/-- The pieces of a line lack a phrase if all but the last, which is empty, do. -/
theorem forall_pieces {phrase front missing between other : List Char}
    (hfront : occurs phrase front = false) (hmissing : occurs phrase missing = false)
    (hbetween : occurs phrase between = false) (hother : occurs phrase other = false) :
    ∀ piece ∈ [front, missing, between, other, []], occurs phrase piece = false :=
  List.forall_mem_cons.mpr ⟨hfront, List.forall_mem_cons.mpr
    ⟨hmissing, forall_behind hbetween hother⟩⟩

section Missing

variable {front missing between other phrase : List Char}
  (hfirst : missingPhrases.find? (occurs · (joined [front, missing, between, other, []]))
    = some phrase)
include hfirst

/-- A phrase before the name. -/
theorem missingFont?_of_front (hfront : '"' ∉ front) (hmissing : '"' ∉ missing)
    (htrailing : phrase ≠ trailingPhrase) (h : occurs phrase front = true) :
    missingFont? (joined [front, missing, between, other, []])
      = some (missing, joined [between, other, []]) := by
  have hquote := quote_notMem_phrase (List.mem_append_left _ (List.mem_of_find?_eq_some hfirst))
  obtain ⟨before, rest, rfl, hcut⟩ := cutAtFirst?_joined hquote [] hfirst (by simp) h
  have hrest : '"' ∉ rest := fun hmem => hfront (by simp [hmem])
  rw [List.nil_append] at hcut
  rw [missingFont?, hcut]
  simp only
  rw [if_neg htrailing, quoted?_joined hrest hmissing]

/-- A phrase in the name takes what stands between the names for a name. -/
theorem missingFont?_of_missing (hfront : '"' ∉ front) (hmissing : '"' ∉ missing)
    (hbetween : '"' ∉ between) (hnot : occurs phrase front = false)
    (h : occurs phrase missing = true) :
    missingFont? (joined [front, missing, between, other, []])
      = some (between, joined [other, []]) := by
  have hquote := quote_notMem_phrase (List.mem_append_left _ (List.mem_of_find?_eq_some hfirst))
  obtain ⟨before, rest, rfl, hcut⟩ :=
    cutAtFirst?_joined hquote [front] hfirst (by simpa using hnot) h
  have hbefore : '"' ∉ before := fun hmem => hmissing (by simp [hmem])
  have hrest : '"' ∉ rest := fun hmem => hmissing (by simp [hmem])
  rw [List.singleton_append] at hcut
  rw [missingFont?, hcut, List.singleton_append]
  simp only
  rw [lastQuoted?_joined_pair hfront hbefore, quoted?_joined hrest hbetween]
  simp

/-- A phrase behind the name, which stands last in quotes before it. -/
theorem missingFont?_of_between (hmissing : '"' ∉ missing) (hbetween : '"' ∉ between)
    (htrailing : phrase = trailingPhrase) (hfront : occurs phrase front = false)
    (hnot : occurs phrase missing = false) (h : occurs phrase between = true) :
    missingFont? (joined [front, missing, between, other, []])
      = some (missing, joined [between, other, []]) := by
  have hquote := quote_notMem_phrase (List.mem_append_left _ (List.mem_of_find?_eq_some hfirst))
  obtain ⟨before, rest, rfl, hcut⟩ :=
    cutAtFirst?_joined hquote [front, missing] hfirst (by simp [hfront, hnot]) h
  have hbefore : '"' ∉ before := fun hmem => hbetween (by simp [hmem])
  rw [List.cons_append, List.singleton_append] at hcut
  rw [missingFont?, hcut, List.cons_append, List.singleton_append]
  simp only
  rw [if_pos htrailing, lastQuoted?_joined hmissing hbefore]
  simp [joined]

/-- A phrase in the name of the replacement has no name in quotes behind it. -/
theorem missingFont?_of_other (hother : '"' ∉ other) (htrailing : phrase ≠ trailingPhrase)
    (hfront : occurs phrase front = false) (hmissing : occurs phrase missing = false)
    (hbetween : occurs phrase between = false) (h : occurs phrase other = true) :
    missingFont? (joined [front, missing, between, other, []]) = none := by
  have hquote := quote_notMem_phrase (List.mem_append_left _ (List.mem_of_find?_eq_some hfirst))
  obtain ⟨before, rest, rfl, hcut⟩ := cutAtFirst?_joined hquote [front, missing, between]
    hfirst (by simp [hfront, hmissing, hbetween]) h
  have hrest : '"' ∉ rest := fun hmem => hother (by simp [hmem])
  rw [List.cons_append, List.cons_append, List.singleton_append] at hcut
  rw [missingFont?, hcut]
  simp only
  rw [if_neg htrailing, quoted?_joined_pair hrest (by simp)]

/-- A phrase that is tried first and stands only in the names leads to another name. -/
theorem missingFont?_ne (hfront : '"' ∉ front) (hmissing : '"' ∉ missing) (hbetween : '"' ∉ between)
    (hother : '"' ∉ other) (htrailing : phrase ≠ trailingPhrase)
    (hnotFront : occurs phrase front = false) (hnotBetween : occurs phrase between = false)
    (rest : List Char) :
    missingFont? (joined [front, missing, between, other, []]) ≠ some (missing, rest) := by
  intro h
  have hquote := quote_notMem_phrase (List.mem_append_left _ (List.mem_of_find?_eq_some hfirst))
  have hany : occurs phrase (joined [front, missing, between, other, []]) = true :=
    List.find?_some (p := (occurs · (joined [front, missing, between, other, []]))) hfirst
  rw [occurs_joined hquote (List.cons_ne_nil _ _)] at hany
  cases hin : occurs phrase missing with
  | true =>
      rw [missingFont?_of_missing hfirst hfront hmissing hbetween hnotFront hin] at h
      cases h
      rw [hnotBetween] at hin
      cases hin
  | false =>
      have hinOther : occurs phrase other = true := by
        simpa [hnotFront, hin, hnotBetween, occurs_nil_eq_false hin] using hany
      rw [missingFont?_of_other hfirst hother htrailing hnotFront hin hnotBetween hinOther] at h
      cases h

end Missing

/-- If the name is read, then no phrase that is tried earlier stands in a name. -/
theorem lacks_of_missingFont? {front missing between other rest : List Char}
    (hfront : '"' ∉ front) (hmissing : '"' ∉ missing) (hbetween : '"' ∉ between)
    (hother : '"' ∉ other) (skipped : List (List Char)) {more : List (List Char)}
    (hphrases : missingPhrases = skipped ++ more) (htrailing : trailingPhrase ∉ skipped)
    (hnotFront : ∀ p ∈ skipped, occurs p front = false)
    (hnotBetween : ∀ p ∈ skipped, occurs p between = false)
    (h : missingFont? (joined [front, missing, between, other, []]) = some (missing, rest)) :
    ∀ p ∈ skipped, ∀ piece ∈ [front, missing, between, other, []], occurs p piece = false := by
  obtain hnone | ⟨p, hp, hfirst⟩ := lacks_or_first skipped
    (fun p hp => quote_notMem_phrase (List.mem_append_left _ hp))
    (List.cons_ne_nil front [missing, between, other, []]) hphrases
  · exact hnone
  · have hplain : p ≠ trailingPhrase := fun he => htrailing (he ▸ hp)
    exact absurd h (missingFont?_ne hfirst hfront hmissing hbetween hother hplain (hnotFront p hp)
      (hnotBetween p hp) rest)

/-- No name follows a single quote. -/
theorem substitution?_joined_pair {front back : List Char} (hfront : '"' ∉ front)
    (hback : '"' ∉ back) : substitution? (joined [front, back]) = none := by
  cases h : substitution? (joined [front, back]) with
  | none => rfl
  | some name =>
      obtain ⟨⟨before, phrase, between, behind, -, -, heq⟩, -⟩ := substitution?_eq_some h
      have hcount := congrArg (List.count '"') heq
      simp [joined, List.count_eq_zero.mpr hfront, List.count_eq_zero.mpr hback] at hcount
      omega

/-! ## The three phrasings -/

section Phrasings

variable {origin missing other : List Char} (h : Origin origin) (hmissing : Quotable missing)
  (hother : Quotable other)
include h hmissing hother

/-- What a line tells whose pieces between quotes are known. -/
theorem tells_joined_iff (front between : List Char) :
    Tells (joined [origin ++ front, missing, between, other, []]) missing other
      ↔ ∃ rest, missingFont? (joined [origin ++ front, missing, between, other, []])
          = some (missing, rest) ∧ substitution? rest = some other := by
  have hline : joined [origin ++ front, missing, between, other, []]
      = origin ++ (front ++ '"' :: (missing ++ '"' :: (between ++ '"' :: other))) ++ ['"'] := by
    simp [joined]
  rw [hline]
  exact h.tells_iff _ hmissing.1 hother.1

/-- What a line tells that has a phrase before the names. -/
theorem tells_of_front_iff {front between phrase : List Char} (hfront : '"' ∉ front)
    (hbetween : '"' ∉ between) (skipped : List (List Char)) {more : List (List Char)}
    (hphrases : missingPhrases = skipped ++ phrase :: more)
    (htrailing : trailingPhrase ∉ skipped ++ [phrase])
    (hnotFront : ∀ p ∈ skipped, occurs p (origin ++ front) = false)
    (hnotBetween : ∀ p ∈ skipped, occurs p between = false)
    (hin : occurs phrase (origin ++ front) = true) :
    Tells (joined [origin ++ front, missing, between, other, []]) missing other
      ↔ (∀ p ∈ skipped, occurs p missing = false ∧ occurs p other = false)
        ∧ substitution? (joined [between, other, []]) = some other := by
  have hquote : '"' ∉ origin ++ front := by simp [h.quote_notMem, hfront]
  have hskipped : trailingPhrase ∉ skipped := fun hmem => htrailing (by simp [hmem])
  have hplain : phrase ≠ trailingPhrase := fun he => htrailing (by simp [he])
  -- without the phrases that are tried earlier, the name is the one behind this phrase
  have hname : (∀ p ∈ skipped, ∀ piece ∈ [origin ++ front, missing, between, other, []],
      occurs p piece = false) →
      missingFont? (joined [origin ++ front, missing, between, other, []])
        = some (missing, joined [between, other, []]) := by
    intro hlacks
    have hfirst := find?_of_first skipped
      (fun p hp => quote_notMem_phrase (List.mem_append_left _ hp)) (List.cons_ne_nil _ _) hphrases
      hlacks ⟨_, List.mem_cons_self .., hin⟩
    exact missingFont?_of_front hfirst hquote hmissing.2 hplain hin
  rw [tells_joined_iff h hmissing hother]
  constructor
  · rintro ⟨rest, hread, hreplaced⟩
    have hlacks := lacks_of_missingFont? hquote hmissing.2 hbetween hother.2 skipped hphrases
      hskipped hnotFront hnotBetween hread
    rw [hname hlacks] at hread
    cases hread
    exact ⟨fun p hp => ⟨hlacks p hp missing (by simp), hlacks p hp other (by simp)⟩, hreplaced⟩
  · rintro ⟨hlacks, hreplaced⟩
    exact ⟨_, hname fun p hp => forall_pieces (hnotFront p hp) (hlacks p hp).1 (hnotBetween p hp)
      (hlacks p hp).2, hreplaced⟩

theorem tells_notSelected_iff :
    Tells (notSelected origin missing other) missing other
      ↔ ∀ p ∈ ["substitut".toList, "replaced".toList], occurs p other = false := by
  have hline : notSelected origin missing other = joined [origin ++ "Could not select font ".toList,
      missing, ", using ".toList, other, []] := by
    simp [notSelected, joined]
  have hphrase : occurs "Could not select font".toList
      (origin ++ "Could not select font ".toList) = true :=
    occurs_iff.mpr ⟨origin, [' '], by simp⟩
  rw [hline, tells_of_front_iff h hmissing hother (by decide) (by decide) [] rfl (by decide)
    (by simp) (by simp) hphrase, substitution?_joined_iff (by decide) hother.2
    ["substitut".toList, "replaced".toList] rfl (by decide) (by decide)]
  simp

theorem tells_notFound_iff :
    Tells (notFound origin missing other) missing other
      ↔ occurs "Could not select font".toList missing = false
        ∧ occurs "Could not select font".toList other = false := by
  have hline : notFound origin missing other = joined [origin ++ "Could not find font ".toList,
      missing, " - substituted with ".toList, other, []] := by
    simp [notFound, joined]
  have hselect : occurs "Could not select font".toList (origin ++ "Could not find font ".toList)
      = false := (h.occurs (by decide) (by decide) _).trans (by decide)
  have hphrase : occurs "Could not find font".toList (origin ++ "Could not find font ".toList)
      = true := occurs_iff.mpr ⟨origin, [' '], by simp⟩
  rw [hline, tells_of_front_iff h hmissing hother (by decide) (by decide)
    ["Could not select font".toList] rfl (by decide) (List.forall_mem_singleton.mpr hselect)
    (by decide) hphrase, substitution?_joined_iff (by decide) hother.2 [] rfl (by simp) (by decide)]
  simp

/-- In the third phrasing the phrase stands between the names. -/
theorem tells_notAvailable_iff :
    Tells (notAvailable origin missing other) missing other
      ↔ ((∀ p ∈ ["Could not select font".toList, "Could not find font".toList],
          occurs p missing = false ∧ occurs p other = false)
        ∧ occurs "not available".toList missing = false)
        ∧ occurs "substitut".toList other = false := by
  have hline : notAvailable origin missing other = joined [origin ++ "font ".toList,
      missing, " not available, replaced by ".toList, other, []] := by
    simp [notAvailable, joined]
  have hquote : '"' ∉ origin ++ "font ".toList := by simp [h.quote_notMem]
  have hnotFront : ∀ p ∈ missingPhrases, occurs p (origin ++ "font ".toList) = false := by
    have hspelt : ∀ p ∈ missingPhrases,
        ' ' ∈ p ∧ ':' ∉ p ∧ occurs p "font ".toList = false := by decide
    intro p hp
    obtain ⟨hspace, hcolon, hnot⟩ := hspelt p hp
    exact (h.occurs hspace hcolon _).trans hnot
  have hnotBetween : ∀ p ∈ ["Could not select font".toList, "Could not find font".toList],
      occurs p " not available, replaced by ".toList = false := by decide
  have hearlier : ∀ p ∈ ["Could not select font".toList, "Could not find font".toList],
      occurs p (origin ++ "font ".toList) = false :=
    fun p hp => hnotFront p (List.mem_append_left [trailingPhrase] hp)
  have htrailing : occurs trailingPhrase (origin ++ "font ".toList) = false :=
    hnotFront trailingPhrase (by decide)
  have hreplacement : substitution? (joined [" not available, replaced by ".toList, other, []])
      = some other ↔ occurs "substitut".toList other = false :=
    (substitution?_joined_iff (by decide) hother.2 ["substitut".toList] rfl (by decide)
      (by decide)).trans List.forall_mem_singleton
  -- without the earlier phrases, the first one is the one behind the name
  have hfirst : (∀ p ∈ ["Could not select font".toList, "Could not find font".toList],
      ∀ piece ∈ [origin ++ "font ".toList, missing, " not available, replaced by ".toList, other,
        []], occurs p piece = false) →
      missingPhrases.find? (occurs · (joined [origin ++ "font ".toList, missing,
        " not available, replaced by ".toList, other, []])) = some trailingPhrase :=
    fun hlacks => find?_of_first _ (fun p hp => quote_notMem_phrase (List.mem_append_left _ hp))
      (List.cons_ne_nil _ _) rfl hlacks
      ⟨" not available, replaced by ".toList, by simp, by decide⟩
  rw [hline, tells_joined_iff h hmissing hother]
  constructor
  · rintro ⟨rest, hread, hreplaced⟩
    have hlacks := lacks_of_missingFont? hquote hmissing.2 (by decide) hother.2 _ rfl (by decide)
      hearlier hnotBetween hread
    have hnot : occurs "not available".toList missing = false := by
      by_contra hin
      rw [missingFont?_of_missing (hfirst hlacks) hquote hmissing.2 (by decide) htrailing
        (eq_true_of_ne_false hin)] at hread
      cases hread
      rw [substitution?_joined_pair hother.2 (by simp)] at hreplaced
      cases hreplaced
    rw [missingFont?_of_between (hfirst hlacks) hmissing.2 (by decide) rfl htrailing hnot
      (by decide)] at hread
    cases hread
    exact ⟨⟨fun p hp => ⟨hlacks p hp missing (by simp), hlacks p hp other (by simp)⟩, hnot⟩,
      hreplacement.mp hreplaced⟩
  · rintro ⟨⟨hlacks, hnot⟩, hsubstitut⟩
    have hfirst := hfirst fun p hp =>
      forall_pieces (hearlier p hp) (hlacks p hp).1 (hnotBetween p hp) (hlacks p hp).2
    exact ⟨_, missingFont?_of_between hfirst hmissing.2 (by decide) rfl htrailing hnot (by decide),
      hreplacement.mpr hsubstitut⟩

end Phrasings

/-- The name has none of the phrases. -/
def Lacks (name : List Char) (phrases : List String) : Prop :=
  ∀ phrase ∈ phrases, ¬ phrase.toList <:+: name

theorem lacks_iff {name : List Char} {phrases : List String} :
    Lacks name phrases ↔ ∀ phrase ∈ phrases, occurs phrase.toList name = false := by
  simp only [Lacks, occurs_eq_false_iff]

instance (name : List Char) (phrases : List String) : Decidable (Lacks name phrases) :=
  decidable_of_iff _ lacks_iff.symm

/-- **Which names a line tells.** A line that says that a font was not selected tells both names
unless that of the replacement has a phrase that is tried before `using`. In one that says that a
font was not found, neither name may have the phrase for one that was not selected, and in one that
says that a font is not available, neither may have the phrase of the other two; there the missing
font must not be called not available itself. -/
theorem phrasings_told_iff {origin missing other : List Char} (h : Origin origin)
    (hmissing : Quotable missing) (hother : Quotable other) :
    (Tells (notSelected origin missing other) missing other
      ↔ Lacks other ["substitut", "replaced"])
    ∧ (Tells (notFound origin missing other) missing other
      ↔ Lacks missing ["Could not select font"] ∧ Lacks other ["Could not select font"])
    ∧ (Tells (notAvailable origin missing other) missing other
      ↔ Lacks missing ["Could not select font", "Could not find font", "not available"]
        ∧ Lacks other ["Could not select font", "Could not find font", "substitut"]) := by
  refine ⟨(tells_notSelected_iff h hmissing hother).trans ?_,
    (tells_notFound_iff h hmissing hother).trans ?_,
    (tells_notAvailable_iff h hmissing hother).trans ?_⟩
  all_goals
    simp only [lacks_iff, List.forall_mem_cons, List.not_mem_nil, false_imp_iff, forall_const,
      and_true]
  grind

/-- All three lines tell that Carlito stands for Calibri. -/
theorem phrasings_told_iff_carlito :
    Tells (notSelected "warn:vcl.fonts:1234:".toList "Calibri".toList "Carlito".toList)
      "Calibri".toList "Carlito".toList
    ∧ Tells (notFound "warn:vcl.fonts:1234:".toList "Calibri".toList "Carlito".toList)
      "Calibri".toList "Carlito".toList
    ∧ Tells (notAvailable "warn:vcl.fonts:1234:".toList "Calibri".toList "Carlito".toList)
      "Calibri".toList "Carlito".toList := by
  have horigin : Origin "warn:vcl.fonts:1234:".toList := ⟨"1234".toList, by simp, .inl rfl⟩
  have hmissing : Quotable "Calibri".toList := ⟨by decide, by decide⟩
  have hother : Quotable "Carlito".toList := ⟨by decide, by decide⟩
  obtain ⟨hselected, hfound, havailable⟩ := phrasings_told_iff horigin hmissing hother
  exact ⟨hselected.mpr (by decide), hfound.mpr ⟨by decide, by decide⟩,
    havailable.mpr ⟨by decide, by decide⟩⟩

/-- A replacement called `Serif substitute` is not told. -/
theorem phrasings_not_always_told :
    ¬ ∀ origin missing other : List Char, Origin origin →
      Quotable missing ∧ '\n' ∉ missing ∧ '\r' ∉ missing →
      Quotable other ∧ '\n' ∉ other ∧ '\r' ∉ other →
      Tells (notSelected origin missing other) missing other
        ∧ Tells (notFound origin missing other) missing other
        ∧ Tells (notAvailable origin missing other) missing other := by
  intro hall
  obtain ⟨⟨d, hd, -, -, hsubstituted⟩, -⟩ := hall "warn:vcl.fonts:1234:".toList "Calibri".toList
    "Serif substitute".toList ⟨"1234".toList, by simp, .inl rfl⟩
    ⟨⟨by decide, by decide⟩, by decide, by decide⟩ ⟨⟨by decide, by decide⟩, by decide, by decide⟩
  have hgiven : diagnostic? (notSelected "warn:vcl.fonts:1234:".toList "Calibri".toList
      "Serif substitute".toList) = some
        { category := .font,
          message := "Could not select font \"Calibri\", using \"Serif substitute\"",
          font := some "Calibri", substitutedWith := none } := by decide +kernel
  rw [hgiven] at hd
  cases hd
  cases hsubstituted

end PdfWorker.LogLine
