import PdfWorker.Proofs.Request
import PdfWorker.Proofs.Worker.Dialogue
import PdfWorker.Proofs.Worker.Likeness
set_option autoImplicit false

/-! # Messages that differ in passwords

`Message.Veiled` relates two payloads that are the same but for passwords: in the options of the
object that they hold, texts that are not empty stand in the place of others. Such messages hold
requests that differ at most in passwords that are given in both (`Message.decodedLike_of_veiled`),
and such requests look the same in logs (`Request.Like.describe_eq`). `Veiled` relates whole
sequences of messages and documents.
-/

namespace PdfWorker

/-! ## Values that are replaced -/

namespace Json

/-- The same member, or two members with this key whose values belong together. -/
inductive Replaced (key : String) (values : Json → Json → Prop) :
    String × Json → String × Json → Prop where
  | same (member : String × Json) : Replaced key values member member
  | value {v v' : Json} : values v v' → Replaced key values (key, v) (key, v')

/-- Two texts, neither of them empty. -/
inductive BothTexts : Json → Json → Prop where
  | texts {a b : String} : a ≠ "" → b ≠ "" → BothTexts (.str a) (.str b)

/-- Two objects that differ at most in the texts of passwords. -/
inductive VeiledOptions : Json → Json → Prop where
  | members {members members'} : List.Forall₂ (Replaced "password" BothTexts) members members' →
      VeiledOptions (.obj members) (.obj members')

variable {key : String} {values : Json → Json → Prop} {members members' : List (String × Json)}

theorem replaced_refl (members : List (String × Json)) :
    List.Forall₂ (Replaced key values) members members :=
  List.forall₂_same.mpr fun member _ => .same member

/-- Every other member is found as it was. -/
theorem lookup_of_replaced (h : List.Forall₂ (Replaced key values) members members')
    {other : String} (hne : other ≠ key) : lookup other members' = lookup other members := by
  induction h with
  | nil => rfl
  | cons hm _ ih =>
      cases hm with
      | same member => rw [lookup, lookup, ih]
      | value => rw [lookup, lookup, ih, if_neg hne.symm, if_neg hne.symm]

/-- The member itself is found as it was, or its value is replaced. -/
theorem lookup_replaced (h : List.Forall₂ (Replaced key values) members members') :
    lookup key members' = lookup key members
      ∨ ∃ v v', lookup key members = some v ∧ lookup key members' = some v' ∧ values v v' := by
  induction h with
  | nil => exact .inl rfl
  | @cons member member' rest rest' hm _ ih =>
      rcases ih with ih | ⟨v, v', hv, hv', hvalues⟩
      · cases hm with
        | same member => exact .inl (by rw [lookup, lookup, ih])
        | @value v v' hvalues =>
            rw [lookup, lookup, ih, if_pos rfl, if_pos rfl]
            cases lookup key rest with
            | some u => exact .inl rfl
            | none => exact .inr ⟨v, v', rfl, rfl, hvalues⟩
      · -- a later member with this key is the one that is found
        refine .inr ⟨v, v', ?_, ?_, hvalues⟩
        · rw [lookup, hv, Option.some_or]
        · rw [lookup, hv', Option.some_or]

end Json

/-! ## Passwords -/

/-- The same password or none, or two passwords that are given. -/
inductive Password.Veils : Option String → Option String → Prop where
  | same (password : Option String) : Veils password password
  | given {a b : String} : a ≠ "" → b ≠ "" → Veils (some a) (some b)

theorem Password.Veils.map_const {p p' : Option String} (h : Password.Veils p p')
    (text : String) : (p'.map fun _ => text) = p.map fun _ => text := by
  cases h <;> rfl

theorem Options.readText_str {text : String} (h : text ≠ "") :
    readText (.str text) = some text := by
  rw [readText, Json.asString?, Option.filter_some, if_pos (decide_eq_true h)]

/-- Options that are read from such members differ in such passwords. -/
theorem Options.ofMembers_like {members members' : List (String × Json)}
    (h : List.Forall₂ (Json.Replaced "password" Json.BothTexts) members members') :
    (Options.ofMembers members).Like Password.Veils (Options.ofMembers members') := by
  constructor
  · simp only [ofMembers, Json.lookup_of_replaced h (by decide : "pdf_version" ≠ "password"),
      Json.lookup_of_replaced h (by decide : "jpeg_quality" ≠ "password"),
      Json.lookup_of_replaced h (by decide : "dpi" ≠ "password"),
      Json.lookup_of_replaced h (by decide : "tagged_pdf" ≠ "password"),
      Json.lookup_of_replaced h (by decide : "page_range" ≠ "password")]
  · simp only [ofMembers]
    rcases Json.lookup_replaced h with heq | ⟨v, v', hv, hv', ⟨ha, hb⟩⟩
    · rw [heq]
      exact .same _
    · rw [hv, hv', Option.bind_some, Option.bind_some, readText_str ha, readText_str hb]
      exact .given ha hb

theorem Options.Like.of_same (o : Options) : o.Like Password.Veils o := ⟨rfl, .same _⟩

/-- Of the password only its presence is told, so the options look the same in logs. -/
theorem Options.Like.describe_eq {o o' : Options} (h : o.Like Password.Veils o') :
    o'.describe = o.describe := by
  obtain ⟨hrest, hpassword⟩ := h
  generalize o'.password = password at hrest hpassword
  subst hrest
  delta Options.describe
  dsimp only
  rw [hpassword.map_const]

/-- The same options, with this password. -/
def Options.withPassword (o : Options) (password : String) : Options :=
  { o with password := some password }

/-- The password is the last member. -/
theorem Options.members_withPassword (o : Options) (password : String) :
    (o.withPassword password).members
      = Options.members { o with password := none } ++ [("password", .str password)] := by
  simp only [withPassword, members, Option.map_none, Option.toList_none, List.append_nil]
  rfl

/-! ## Requests -/

namespace Request

/-- The members of a request to convert a file that stand before its options. -/
def membersBefore (request : FileRequest) : List (String × Json) :=
  ("type", .str "convert") :: ("id", .int request.id.toInt) ::
    (textPair "input" request.input ++ textPair "output" request.output ++
      [("format", .int request.format.number)])

theorem toJson_convert (request : FileRequest) (options : Options) :
    (Request.convert { request with options }).toJson
      = .obj (membersBefore request ++ [("options", options.toJson)]) := by
  simp only [toJson, fields, kind, membersBefore, List.cons_append, List.append_assoc,
    List.nil_append]

/-- Two requests that differ at most in passwords look the same in logs. -/
theorem Like.describe_eq {r r' : Request} (h : Request.Like Password.Veils r r') :
    r'.describe = r.describe := by
  cases h with
  | init request => rfl
  | quit => rfl
  | @convert r r' h =>
      obtain ⟨hrest, hoptions⟩ := h
      generalize r'.options = options at hrest hoptions
      subst hrest
      delta describe
      dsimp only
      rw [hoptions.describe_eq]
  | @convertBuffer r r' h =>
      obtain ⟨hrest, hoptions⟩ := h
      generalize r'.options = options at hrest hoptions
      subst hrest
      delta describe
      dsimp only
      rw [hoptions.describe_eq]

variable {members members' : List (String × Json)}

/-- The options of an object whose options are so replaced. -/
theorem optionsMember_like
    (h : List.Forall₂ (Json.Replaced "options" Json.VeiledOptions) members members') :
    (optionsMember members).Like Password.Veils (optionsMember members') := by
  rw [optionsMember, optionsMember]
  rcases Json.lookup_replaced h with heq | ⟨v, v', hv, hv', ⟨hpassword⟩⟩
  · rw [heq]
    exact .of_same _
  · rw [hv, hv']
    exact Options.ofMembers_like hpassword

/-- What two such objects hold belongs together. -/
theorem ofMembers_like
    (h : List.Forall₂ (Json.Replaced "options" Json.VeiledOptions) members members') :
    DecodedLike Password.Veils (.ok (ofMembers members)) (.ok (ofMembers members')) := by
  have hother : ∀ {other : String}, other ≠ "options" →
      Json.lookup other members' = Json.lookup other members :=
    fun hne => Json.lookup_of_replaced h hne
  have htext : ∀ {other : String}, other ≠ "options" →
      textMember other members' = textMember other members :=
    fun hne => congrArg (Option.bind · Json.asString?) (hother hne)
  have hoptions := optionsMember_like h
  have hinit : initOfMembers members' = initOfMembers members := by
    simp only [initOfMembers, textsMember, htext (by decide : "resource_path" ≠ "options"),
      hother (by decide : "font_paths" ≠ "options")]
  have hfile : (fileOfMembers members).Like Password.Veils (fileOfMembers members') := by
    refine ⟨?_, hoptions⟩
    simp only [fileOfMembers, idMember, htext (by decide : "input" ≠ "options"),
      htext (by decide : "output" ≠ "options"), hother (by decide : "id" ≠ "options"),
      hother (by decide : "format" ≠ "options")]
  have hbuffer : (bufferOfMembers members).Like Password.Veils (bufferOfMembers members') := by
    refine ⟨?_, hoptions⟩
    simp only [bufferOfMembers, idMember, hother (by decide : "id" ≠ "options"),
      hother (by decide : "format" ≠ "options"), hother (by decide : "data_size" ≠ "options")]
  have htype := htext (by decide : "type" ≠ "options")
  -- the type decides alike about both
  unfold ofMembers
  rw [htype]
  cases textMember "type" members with
  | none => exact .ignored _ _
  | some kind =>
      simp only
      split
      · rw [hinit]
        exact .request (.init _)
      · split
        · exact .request (.convert hfile)
        · split
          · exact .request (.convertBuffer hbuffer)
          · split
            · exact .request .quit
            · exact .ignored _ _

end Request

/-! ## Messages -/

namespace Message

/-- **Two messages that are the same but for passwords**: they hold objects in whose options texts
that are not empty may stand in the place of others, as values of `password`. -/
inductive Veiled (payload : ByteArray) : ByteArray → Prop where
  | same : Veiled payload payload
  | objects {payload' members members'} : Dialogue.Holds payload members →
      Dialogue.Holds payload' members' →
      List.Forall₂ (Json.Replaced "options" Json.VeiledOptions) members members' →
      Veiled payload payload'

/-- What they hold belongs together. -/
theorem decodedLike_of_veiled {payload payload' : ByteArray} (h : Veiled payload payload') :
    Request.DecodedLike Password.Veils (Request.decode payload) (Request.decode payload') := by
  cases h with
  | same => exact .of_same .same _
  | objects hm hm' hmembers =>
      rw [Request.decode_of_holds hm, Request.decode_of_holds hm']
      exact Request.ofMembers_like hmembers

/-- A request to convert a file, written with one password or another. -/
theorem veiled_encode (request : FileRequest) (options : Options) {a b : String} (ha : a ≠ "")
    (hb : b ≠ "") :
    Veiled (Request.convert { request with options := options.withPassword a }).encode
      (Request.convert { request with options := options.withPassword b }).encode := by
  have hvalue : Json.VeiledOptions (options.withPassword a).toJson
      (options.withPassword b).toJson := by
    rw [Options.toJson, Options.toJson, Options.members_withPassword, Options.members_withPassword]
    exact .members (List.rel_append (Json.replaced_refl _) (.cons (.value (.texts ha hb)) .nil))
  have hholds : ∀ options : Options, Dialogue.Holds (Request.convert { request with options }).encode
      (Request.membersBefore request ++ [("options", options.toJson)]) :=
    fun options => (Json.parse?_encode ((Request.convert _).plain_toJson 125)).trans
      (congrArg some (Request.toJson_convert request options))
  exact .objects (hholds _) (hholds _)
    (List.rel_append (Json.replaced_refl _) (.cons (.value hvalue) .nil))

/-- The message announces a document. -/
def announces (payload : ByteArray) : Bool :=
  match Request.decode payload with
  | .ok (.request (.convertBuffer _)) => true
  | _ => false

end Message

/-- **Two sequences of frames that are the same but for passwords** in the messages among them. The
frame behind a message that announces a document is that document. -/
inductive Veiled : Bool → List ByteArray → List ByteArray → Prop where
  | nil {awaited : Bool} : Veiled awaited [] []
  | document {octets frames frames'} : Veiled false frames frames' →
      Veiled true (octets :: frames) (octets :: frames')
  | message {payload payload' frames frames'} : Message.Veiled payload payload' →
      Veiled (Message.announces payload) frames frames' →
      Veiled false (payload :: frames) (payload' :: frames')

end PdfWorker
