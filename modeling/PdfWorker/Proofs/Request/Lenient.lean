import PdfWorker.Proofs.Json.Parser
import PdfWorker.Proofs.Request.Fields
import Mathlib.Data.List.Nodup
set_option autoImplicit false

/-! # Lenient reading

Whatever stands in one member of a message, the other fields are read as if it did not: a member
that no field takes may be left out (`Request.ofMembers_without`), one that a field takes sets that
field alone (`Request.ofMembers_withValue`), and the same holds inside the options. What is not the
text of an object is an error, and so is the text of one that cannot be held (`Request.Carries`).
`Request.decode_lenient` puts this together.
-/

namespace PdfWorker

open Json (lookup without withValue Shape Writes Nests maxDepth lookup_without lookup_without_of_ne
  lookup_withValue_of_ne lookup_withValue)

namespace Request

/-! ## All fields -/

/-- The fields of all messages. -/
def allFields : List (Field Request) :=
  [pathField, fontsField, idField, inputField, outputField, formatField, sizeField, optionsField]

theorem mem_allFields {d : Decoded} {f : Field Request} (hf : f ∈ d.knownFields) :
    f ∈ allFields := by
  cases d with
  | ignored => cases hf
  | request r =>
      have hsubset : r.knownFields ⊆ allFields := by
        cases r <;> simp [knownFields, allFields]
      exact hsubset hf

/-- The type is no field. -/
theorem key_ne_type {d : Decoded} {f : Field Request} (hf : f ∈ d.knownFields) :
    f.key ≠ "type" := by
  have hall : ∀ key ∈ allFields.map (·.key), key ≠ "type" := by decide
  exact hall _ (List.mem_map_of_mem (mem_allFields hf))

/-- There is one field with each key. -/
theorem eq_of_key_eq {f g : Field Request} (hf : f ∈ allFields) (hg : g ∈ allFields)
    (h : f.key = g.key) : f = g := by
  have hnodup : (allFields.map (·.key)).Nodup := by decide
  exact List.inj_on_of_nodup_map hnodup hf hg h

/-- Setting a field makes no other message. -/
theorem knownFields_put {f : Field Request} (hf : f ∈ allFields) (v : Json) (r : Request) :
    (f.put v r).knownFields = r.knownFields := by
  have hall : ∀ f ∈ allFields, ∀ v r, (f.put v r).knownFields = r.knownFields := by
    simp only [allFields, List.forall_mem_cons, List.not_mem_nil, false_imp_iff, implies_true,
      and_true]
    repeat' apply And.intro
    all_goals exact fun _ r => by cases r <;> rfl
  exact hall f hf v r

/-- Messages of one type know the same fields. -/
theorem knownFields_ofMembers (members : List (String × Json)) :
    (ofMembers members).knownFields = (blank (textMember "type" members)).knownFields := by
  rw [ofMembers_eq]
  cases blank (textMember "type" members) with
  | ignored => rfl
  | request r =>
      exact Field.readAll_induction (P := fun r' => r'.knownFields = r.knownFields) rfl
        fun f hf v r' h => (knownFields_put (mem_allFields (d := .request r) hf) v r').trans h

/-! ## One member more or less -/

/-- The message has no use for its member `key`. -/
def Refused (members : List (String × Json)) (key : String) : Prop :=
  ∀ v, lookup key members = some v →
    (key = "type" → Shape.text.accepts v = false)
    ∧ ∀ f ∈ (ofMembers members).knownFields, f.key = key → f.shape.accepts v = false

/-- **What no field takes may be left out.** -/
theorem ofMembers_without {members : List (String × Json)} {key : String}
    (h : Refused members key) : ofMembers (without key members) = ofMembers members := by
  have htype : textMember "type" (without key members) = textMember "type" members := by
    unfold textMember
    rw [lookup_without]
    split
    · rename_i hkey
      cases hv : lookup "type" members with
      | none => rfl
      | some v =>
          have hrefused := (h v (hkey ▸ hv)).1 hkey.symm
          cases v with
          | str => cases hrefused
          | _ => rfl
    · rfl
  have hfields : ∀ f ∈ (blank (textMember "type" members)).knownFields, f.key = key →
      ∀ v, lookup key members = some v → f.shape.accepts v = false := by
    intro f hf hkey v hv
    rw [← knownFields_ofMembers] at hf
    exact (h v hv).2 f hf hkey
  rw [ofMembers_eq, ofMembers_eq, htype]
  cases hblank : blank (textMember "type" members) with
  | ignored => rfl
  | request r =>
      rw [hblank] at hfields
      exact congrArg Decoded.request (Field.readAll_without hfields r)

theorem textMember_withValue {members : List (String × Json)} {key : String} (h : key ≠ "type")
    (v : Json) : textMember "type" (withValue key v members) = textMember "type" members := by
  rw [textMember, lookup_withValue_of_ne h.symm, textMember]

/-- A value that comes to the same changes nothing. -/
theorem ofMembers_withValue_same {members : List (String × Json)} {key : String}
    (hkey : key ≠ "type") {v w : Json} (hv : lookup key members = some v)
    (h : ∀ f ∈ (ofMembers members).knownFields, f.key = key →
      f.shape.accepts w = f.shape.accepts v ∧ f.put w = f.put v) :
    ofMembers (withValue key w members) = ofMembers members := by
  rw [knownFields_ofMembers] at h
  rw [ofMembers_eq, ofMembers_eq, textMember_withValue hkey]
  cases hblank : blank (textMember "type" members) with
  | ignored => rfl
  | request r =>
      rw [hblank] at h
      refine congrArg Decoded.request (Field.readAll_congr (fun f hf => ?_) r)
      by_cases hf' : f.key = key
      · obtain ⟨hshape, hput⟩ := h f hf hf'
        subst hf'
        funext a
        rw [Field.read, lookup_withValue, if_pos rfl, hv, Option.map_some]
        simp only [Field.read, hv, hshape, hput]
      · exact Field.read_congr (lookup_withValue_of_ne hf' members)

/-- **Another value that a field takes** sets that field alone. -/
theorem ofMembers_withValue {members : List (String × Json)} {r : Request}
    (h : ofMembers members = .request r) {f : Field Request} (hf : f ∈ r.knownFields)
    (hpresent : (lookup f.key members).isSome) {v : Json} (hv : f.shape.accepts v = true) :
    ofMembers (withValue f.key v members) = .request (f.put v r) := by
  have hkey : f.key ≠ "type" := key_ne_type (d := .request r) hf
  have hknown : f ∈ (blank (textMember "type" members)).knownFields := by
    rw [← knownFields_ofMembers, h]
    exact hf
  rw [ofMembers_eq] at h ⊢
  rw [textMember_withValue hkey]
  cases hblank : blank (textMember "type" members) with
  | ignored => rw [hblank] at hknown; cases hknown
  | request r' =>
      rw [hblank] at h hknown
      cases h
      exact congrArg Decoded.request
        (Field.readAll_withValue (independent_knownFields r') hknown hpresent hv r')

/-! ## Inside a member -/

theorem eq_optionsField {d : Decoded} {f : Field Request} (hf : f ∈ d.knownFields)
    (h : f.key = "options") : f = optionsField :=
  eq_of_key_eq (mem_allFields hf) (by simp [allFields]) h

/-- Options that come to the same change nothing. -/
theorem ofMembers_withOptions_same {members inner inner' : List (String × Json)}
    (h : lookup "options" members = some (.obj inner))
    (hsame : Options.ofMembers inner' = Options.ofMembers inner) :
    ofMembers (withValue "options" (.obj inner') members) = ofMembers members := by
  refine ofMembers_withValue_same (by decide) h fun f hf hkey => ?_
  cases eq_optionsField hf hkey
  refine ⟨rfl, ?_⟩
  show (onOptions fun _ => Options.ofMembers inner') = onOptions fun _ => Options.ofMembers inner
  rw [hsame]

theorem onOptions_onOptions (g g' : Options → Options) (r : Request) :
    (r.onOptions g).onOptions g' = r.onOptions fun o => g' (g o) := by
  cases r <;> rfl

/-- **Other options** are the options of the request, and nothing else changes. -/
theorem ofMembers_withOptions {members inner inner' : List (String × Json)} {r : Request}
    (h : ofMembers members = .request r) (hinner : lookup "options" members = some (.obj inner))
    {g : Options → Options} (hg : Options.ofMembers inner' = g (Options.ofMembers inner)) :
    ofMembers (withValue "options" (.obj inner') members) = .request (r.onOptions g) := by
  by_cases hf : optionsField ∈ r.knownFields
  · have hset : ∀ other, ofMembers (withValue "options" (.obj other) members)
        = .request (r.onOptions fun _ => Options.ofMembers other) := fun other =>
      ofMembers_withValue h hf (by rw [show optionsField.key = "options" from rfl, hinner]; rfl) rfl
    -- the request has the options that its member says
    have hown : r = r.onOptions fun _ => Options.ofMembers inner := by
      have hsame : ofMembers (withValue "options" (.obj inner) members) = ofMembers members :=
        ofMembers_withOptions_same hinner rfl
      rw [hset, h] at hsame
      exact (Decoded.request.inj hsame).symm
    rw [hset, hown, onOptions_onOptions, onOptions_onOptions, hg]
  · -- a message without options does not look at them
    have hnone : ∀ f ∈ (ofMembers members).knownFields, f.key ≠ "options" := by
      intro f hmem hkey
      cases eq_optionsField hmem hkey
      rw [h] at hmem
      exact hf hmem
    have hkeep : r.onOptions g = r := by
      cases r with
      | convert | convertBuffer => exact absurd (by simp [knownFields]) hf
      | init | quit => rfl
    rw [hkeep, ← h]
    exact ofMembers_withValue_same (by decide) hinner fun f hmem hkey => absurd hkey (hnone f hmem)

/-- What is no text in the list of font paths may be left out. -/
theorem ofMembers_withTexts {members : List (String × Json)} {items : List Json}
    (h : lookup "font_paths" members = some (.arr items)) :
    ofMembers (withValue "font_paths" (.arr (items.filter Shape.text.accepts)) members)
      = ofMembers members := by
  refine ofMembers_withValue_same (by decide) h fun f hf hkey => ?_
  have hfonts : f = fontsField := eq_of_key_eq (mem_allFields hf) (by simp [allFields]) hkey
  subst hfonts
  have htexts : (items.filter Shape.text.accepts).filterMap Json.asString?
      = items.filterMap Json.asString? := by
    rw [List.filterMap_filter]
    refine List.filterMap_congr fun v _ => ?_
    cases v <;> rfl
  refine ⟨rfl, ?_⟩
  show (fun r => onInit _ r) = fun r => onInit _ r
  simp only [Json.asTexts, htexts]

/-! ## Texts of a message -/

/-- The payload is a JSON text of the object with these members, and one that is read: no number in
it is too large for a double, escaped surrogates come in pairs, since strings hold characters
(`Json.Writes`), and not too many containers stand inside one another. -/
def Carries (payload : ByteArray) (members : List (String × Json)) : Prop :=
  Writes (·.tooLarge = false) payload (.obj members) ∧ Nests maxDepth (.obj members)

theorem decode_of_carries {payload : ByteArray} {members : List (String × Json)}
    (h : Carries payload members) : decode payload = .ok (ofMembers members) := by
  rw [decode, Json.parse?_eq_some_iff.mpr h]
  rfl

/-- **What is not the text of an object that is read is an error**, and nothing else. -/
theorem decode_eq_error_iff {payload : ByteArray} :
    (∃ e, decode payload = .error e) ↔ ¬ ∃ members, Carries payload members := by
  constructor
  · rintro ⟨e, he⟩ ⟨members, h⟩
    rw [decode_of_carries h] at he
    cases he
  · intro h
    unfold decode
    split
    · rename_i v hv
      cases v with
      | obj members => exact absurd ⟨members, Json.parse?_eq_some_iff.mp hv⟩ h
      | null | bool | int | real | str | arr => exact ⟨_, rfl⟩
    · exact ⟨_, rfl⟩

/-- **Every member is read for itself.** The text of an object is never an error, whatever its
members hold, as long as it is one that is read; everything else is an error. A member that the
message has no use for may be left out, at the top and among the options, and so may what is no text
among the font paths. Another value that a field accepts sets that field of the request, or of its
options, and leaves the rest as it is. -/
theorem decode_lenient (payload : ByteArray) (members : List (String × Json)) :
    (Carries payload members → decode payload = .ok (ofMembers members))
    ∧ ((∃ e, decode payload = .error e) ↔ ¬ ∃ members, Carries payload members)
    ∧ (∀ key, Refused members key → ofMembers (without key members) = ofMembers members)
    ∧ (∀ inner key, lookup "options" members = some (.obj inner) → Options.Refused inner key →
        ofMembers (withValue "options" (.obj (without key inner)) members) = ofMembers members)
    ∧ (∀ items, lookup "font_paths" members = some (.arr items) →
        ofMembers (withValue "font_paths" (.arr (items.filter Shape.text.accepts)) members)
          = ofMembers members)
    ∧ (∀ r, ofMembers members = .request r → ∀ f ∈ r.knownFields,
        (lookup f.key members).isSome → ∀ v, f.shape.accepts v = true →
          ofMembers (withValue f.key v members) = .request (f.put v r))
    ∧ (∀ inner r, ofMembers members = .request r → lookup "options" members = some (.obj inner) →
        ∀ f ∈ Options.fields, (lookup f.key inner).isSome → ∀ v, f.shape.accepts v = true →
          ofMembers (withValue "options" (.obj (withValue f.key v inner)) members)
            = .request (r.onOptions (f.put v))) := by
  refine ⟨decode_of_carries, decode_eq_error_iff, fun _ => ofMembers_without, ?_,
    fun _ => ofMembers_withTexts, fun _ h _ hf hpresent _ => ofMembers_withValue h hf hpresent, ?_⟩
  · intro inner key hinner hrefused
    refine ofMembers_withOptions_same hinner ?_
    rw [Options.ofMembers_eq, Options.ofMembers_eq]
    exact Field.readAll_without hrefused {}
  · intro inner r h hinner f hf hpresent v hv
    refine ofMembers_withOptions h hinner ?_
    rw [Options.ofMembers_eq, Options.ofMembers_eq]
    exact Field.readAll_withValue Options.independent_fields hf hpresent hv {}

/-- The options of the message `draft`. -/
def draftOptions : List (String × Json) := [("dpi", .int 0), ("jpeg_quality", .int 80)]

/-- A message whose number is none, with an unknown format and an option out of range. -/
def draft : List (String × Json) :=
  [("type", .str "convert"), ("id", .bool true), ("input", .str "a.docx"), ("format", .int 9),
    ("options", .obj draftOptions)]

/-- A message with a font path that is no text. -/
def opening : List (String × Json) :=
  [("type", .str "init"), ("font_paths", .arr [.str "/fonts", .int 7])]

/-- What the message `draft` asks for. -/
def drafted : Request := .convert { input := some "a.docx", options := { jpegQuality := some 80 } }

theorem carries_draft : Carries (Json.obj draft).encode draft := by
  have hoptions : Json.PlainMembers 125 draftOptions :=
    .cons (.int (by decide) (by decide)) (.cons (.int (by decide) (by decide)) Json.plainMembers_nil)
  have hplain : Json.PlainMembers 126 draft :=
    .cons .str (.cons .bool (.cons .str (.cons (.int (by decide) (by decide))
      (.cons hoptions.obj Json.plainMembers_nil))))
  exact Json.parse?_eq_some_iff.mp (Json.parse?_encode hplain.obj)

/-- An object with a number that no double holds, and its text. -/
def vast : List (String × Json) := [("type", .str "quit"), ("x", .real "1e999".toList)]

def vastText : String := "\x7b\"type\":\"quit\",\"x\":1e999\x7d"

theorem writes_vast : Writes (fun _ => True) vastText.toUTF8 (.obj vast) := by
  have hwhole : Json.Literal.Whole ['1'] := ⟨⟨by decide, by simp⟩, by decide⟩
  have hdigits : Json.Literal.Digits ['9', '9', '9'] := ⟨by decide, by simp⟩
  have hnumber : (Json.Token.atom (.real "1e999".toList)).Spelling (fun _ => True) "1e999".toList :=
    .number (.unsigned hwhole .none (.bare (.inl rfl) hdigits)) trivial
  have htext := Json.TextOf.token .openObject (.token (Json.Token.spelling_quote "type")
    (.token .colon (.token (Json.Token.spelling_quote "quit") (.token .comma
      (.token (Json.Token.spelling_quote "x") (.token .colon (.token hnumber
        (.token .closeObject (.nil (List.forall_mem_nil _))))))))))
  refine ⟨vastText.toList, by rw [String.ofList_toList], ?_⟩
  exact htext

/-- The message is read without its number, its resolution and the font path that is none, and with
another file and another quality. An object with a number that no double holds is not read. -/
theorem decode_lenient_draft :
    decode (Json.obj draft).encode = .ok (.request drafted)
    ∧ (¬ ∃ e, decode (Json.obj draft).encode = .error e)
    ∧ ofMembers (without "id" draft) = ofMembers draft
    ∧ ofMembers (withValue "options" (.obj (without "dpi" draftOptions)) draft) = ofMembers draft
    ∧ ofMembers (withValue "font_paths" (.arr [.str "/fonts"]) opening) = ofMembers opening
    ∧ ofMembers (withValue "input" (.str "b.docx") draft)
      = .request (inputField.put (.str "b.docx") drafted)
    ∧ ofMembers (withValue "options" (.obj (withValue "jpeg_quality" (.int 90) draftOptions)) draft)
      = .request (drafted.onOptions (Options.qualityField.put (.int 90)))
    ∧ Writes (fun _ => True) vastText.toUTF8 (.obj vast)
    ∧ ∃ e, decode vastText.toUTF8 = .error e := by
  obtain ⟨hread, herror, hmember, hoption, -, hfield, hinner⟩ :=
    decode_lenient (Json.obj draft).encode draft
  obtain ⟨-, -, -, -, hfonts, -⟩ := decode_lenient (Json.obj opening).encode opening
  obtain ⟨-, hunread, -⟩ := decode_lenient vastText.toUTF8 vast
  have hnone : Json.parse? vastText.toUTF8 = none :=
    Option.isNone_iff_eq_none.mp (by decide +kernel)
  have hvast : ¬ ∃ members, Carries vastText.toUTF8 members := by
    rintro ⟨members, h⟩
    cases hnone.symm.trans (Json.parse?_eq_some_iff.mpr h)
  refine ⟨hread carries_draft, fun h => herror.mp h ⟨draft, carries_draft⟩, hmember _ ?_,
    hoption _ _ rfl ?_, hfonts [.str "/fonts", .int 7] rfl,
    hfield drafted rfl inputField (by simp [drafted, knownFields]) rfl _ rfl,
    hinner draftOptions drafted rfl rfl Options.qualityField (by simp [Options.fields]) rfl _ ?_,
    writes_vast, hunread.mpr hvast⟩
  · intro v hv
    cases hv
    exact ⟨by decide, by decide⟩
  · intro f hf hkey v hv
    cases hv
    revert f
    decide
  · decide

end Request

end PdfWorker
