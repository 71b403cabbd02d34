import PdfWorker.Proofs.Diagnostic
set_option autoImplicit false

/-! # Font names in diagnostics

The names in a diagnostic are not made up: `LogLine.diagnostic?_names` says that the missing font
stands in quotes in the line, and that its replacement stands in quotes behind it and behind a
phrase that announces a replacement.
-/

namespace PdfWorker.LogLine

open Text

/-- What is found first is one of the phrases, where it occurs first. -/
theorem find?_of_cutAtFirst? {phrases : List (List Char)} {text phrase : List Char}
    {cut : List Char × List Char} (h : cutAtFirst? phrases text = some (phrase, cut)) :
    phrase ∈ phrases ∧ find? phrase text = some cut := by
  obtain ⟨p, hp, hsome⟩ := List.exists_of_findSome?_eq_some h
  obtain ⟨c, hc, heq⟩ := Option.map_eq_some_iff.mp hsome
  cases heq
  exact ⟨hp, hc⟩

theorem missingFont?_eq_some {line name rest : List Char}
    (h : missingFont? line = some (name, rest)) :
    ∃ before, line = before ++ '"' :: name ++ '"' :: rest ∧ '"' ∉ name := by
  -- a name behind a phrase or a marker is the first one in quotes there
  have hbehind : ∀ {phrases phrase before after},
      cutAtFirst? phrases line = some (phrase, before, after) →
      quoted? after = some (name, rest) →
      ∃ before, line = before ++ '"' :: name ++ '"' :: rest ∧ '"' ∉ name := by
    intro phrases phrase before after hcut hquoted
    obtain ⟨between, rfl, -, hname⟩ := quoted?_eq_some hquoted
    exact ⟨before ++ phrase ++ between, by simp [cutAtFirst?_eq_some hcut], hname⟩
  unfold missingFont? at h
  split at h
  · rename_i phrase before after hcut
    split at h
    · split at h
      · -- a name before the trailing phrase is the last one in quotes there
        rename_i last tail hlast
        cases h
        obtain ⟨front, rfl, hname⟩ := lastQuoted?_eq_some hlast
        exact ⟨front, by simp [cutAtFirst?_eq_some hcut], hname⟩
      · exact hbehind hcut h
    · exact hbehind hcut h
  · split at h
    · rename_i hcut
      exact hbehind hcut h
    · cases h

/-- The name stands in quotes behind a phrase that announces a replacement, and between the phrase
and the name there is no quote. -/
def Replaces (text name : List Char) : Prop :=
  ∃ before phrase between behind,
    phrase ∈ ["substitut".toList, "replaced".toList, "using".toList] ∧ '"' ∉ between
    ∧ text = before ++ phrase ++ between ++ '"' :: name ++ '"' :: behind

theorem substitution?_eq_some {text name : List Char} (h : substitution? text = some name) :
    Replaces text name ∧ '"' ∉ name := by
  unfold substitution? at h
  split at h
  · rename_i phrase before after hcut
    obtain ⟨⟨_, behind⟩, hquoted, rfl⟩ := Option.map_eq_some_iff.mp h
    obtain ⟨between, rfl, hbetween, hname⟩ := quoted?_eq_some hquoted
    refine ⟨⟨before, phrase, between, behind, (find?_of_cutAtFirst? hcut).1, hbetween, ?_⟩, hname⟩
    simp [cutAtFirst?_eq_some hcut]
  · cases h

theorem nonEmpty_eq_some {name : List Char} {text : String} (h : nonEmpty name = some text) :
    text.toList = name ∧ text ≠ "" := by
  unfold nonEmpty at h
  split at h
  · cases h
  · rename_i hname
    cases h
    refine ⟨String.toList_ofList, fun he => hname ?_⟩
    have hnil := congrArg String.toList he
    rw [String.toList_ofList] at hnil
    simp [hnil]

/-- **The names in a diagnostic stand in the line.** If it tells a name then it is about fonts, and
the line without its carriage return has a name in quotes, which is the missing font unless it is
empty. A replacement is not empty; it stands in quotes too, behind the closing quote of that name
and a phrase that announces it. -/
theorem diagnostic?_names {line : List Char} {d : Diagnostic} (h : diagnostic? line = some d)
    (hnamed : d.font.isSome ∨ d.substitutedWith.isSome) :
    d.category = .font ∧ ∃ before name rest,
      withoutReturn line = before ++ '"' :: name ++ '"' :: rest ∧ '"' ∉ name
      ∧ d.font = (if name = [] then none else some (String.ofList name))
      ∧ ∀ other, d.substitutedWith = some other →
          other ≠ "" ∧ '"' ∉ other.toList ∧ Replaces rest other.toList := by
  unfold diagnostic? ofLine? at h
  split at h
  · cases h
    split at hnamed
    · rename_i hfonts
      rw [if_pos hfonts]
      unfold fontDiagnostic at hnamed ⊢
      split at hnamed
      · rename_i name rest hmissing
        obtain ⟨before, hline, hname⟩ := missingFont?_eq_some hmissing
        refine ⟨rfl, before, name, rest, hline, hname, ?_, ?_⟩
        · simp [nonEmpty]
        · intro other hother
          obtain ⟨found, hfound, hsome⟩ := Option.bind_eq_some_iff.mp hother
          obtain ⟨hreplaces, hquote⟩ := substitution?_eq_some hfound
          obtain ⟨rfl, hne⟩ := nonEmpty_eq_some hsome
          exact ⟨hne, hquote, hreplaces⟩
      · simp at hnamed
    · simp at hnamed
  · cases h

/-- A line that names the missing font before the phrase. -/
def carlito : String := "warn:vcl.fonts:9:font \"Segoe UI\" not available, replaced by \"Carlito\""

theorem diagnostic?_names_carlito :
    ∃ d, diagnostic? carlito.toList = some d ∧ (d.font.isSome ∨ d.substitutedWith.isSome)
      ∧ d.category = .font ∧ ∃ before name rest,
        withoutReturn carlito.toList = before ++ '"' :: name ++ '"' :: rest ∧ '"' ∉ name
        ∧ d.font = (if name = [] then none else some (String.ofList name))
        ∧ ∀ other, d.substitutedWith = some other →
            other ≠ "" ∧ '"' ∉ other.toList ∧ Replaces rest other.toList := by
  have h : diagnostic? carlito.toList = some
      { category := .font, message := "font \"Segoe UI\" not available, replaced by \"Carlito\"",
        font := some "Segoe UI", substitutedWith := some "Carlito" } := by decide +kernel
  exact ⟨_, h, .inl rfl, diagnostic?_names h (.inl rfl)⟩

end PdfWorker.LogLine
