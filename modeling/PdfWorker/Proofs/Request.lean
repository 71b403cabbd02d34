import PdfWorker.Proofs.Json.Members
import PdfWorker.Proofs.Json.Parser
import PdfWorker.Proofs.Json.Strings
import PdfWorker.Request
set_option autoImplicit false

/-! # Requests that are written and read

`Request.decode_encode` says that a worker reads a request as the supervisor wrote it, but for
options that are out of range: these count as unset (`Options.normal`). What a worker has read is
in range (`Options.InRange`), so `Request.decode_encode_of_decoded` can say that it is passed on
unchanged. The last section bounds the length of a path by that of the request.
-/

namespace PdfWorker

open Json (lookup lookup_append lookup_toList_map PlainMembers plainMembers_nil
  plainMembers_toList_map plain_ofNat plain_toInt)

namespace Options

/-- The options as they are read: what is out of range is unset. -/
def normal (o : Options) : Options :=
  { o with
    jpegQuality := o.jpegQuality.filter fun q => 0 < q.toNat ∧ q.toNat < 101
    dpi := o.dpi.filter fun d => 0 < d.toNat
    pageRange := o.pageRange.filter (· ≠ "")
    password := o.password.filter (· ≠ "") }

theorem readQuality_toNat (q : UInt8) :
    readQuality (.int q.toNat) = (some q).filter fun q => 0 < q.toNat ∧ q.toNat < 101 := by
  by_cases h : q.toNat < 101
  · rw [readQuality, Json.asNatBelow?_ofNat h]
    by_cases h₀ : 0 < q.toNat
    · simp [Option.filter, h, h₀]
    · simp [Option.filter, h₀]
  · have hn : ¬ ((0 : Int) ≤ q.toNat ∧ (q.toNat : Int) < (101 : Nat)) := by omega
    rw [readQuality, Json.asNatBelow?, if_neg hn]
    simp [Option.filter, h]

theorem readDpi_toNat (d : UInt32) :
    readDpi (.int d.toNat) = (some d).filter fun d => 0 < d.toNat := by
  rw [readDpi, Json.asNatBelow?_ofNat d.toNat_lt]
  by_cases h : 0 < d.toNat
  · simp [Option.filter, h]
  · simp [Option.filter, h]

theorem bind_map_eq_filter {α : Type} {read : Json → Option α} {f : α → Json} {p : α → Bool}
    (h : ∀ a, read (f a) = (some a).filter p) (o : Option α) :
    (o.map f).bind read = o.filter p := by
  cases o with
  | none => rfl
  | some a => exact h a

/-- What each member of the options holds. -/
theorem lookup_members (o : Options) :
    lookup "pdf_version" o.members
        = (if o.pdfVersion = .standard then none else some (.int o.pdfVersion.number))
      ∧ lookup "jpeg_quality" o.members = o.jpegQuality.map (fun q => .int q.toNat)
      ∧ lookup "dpi" o.members = o.dpi.map (fun d => .int d.toNat)
      ∧ lookup "tagged_pdf" o.members = (if o.taggedPdf then some (.bool true) else none)
      ∧ lookup "page_range" o.members = o.pageRange.map .str
      ∧ lookup "password" o.members = o.password.map .str := by
  by_cases hv : o.pdfVersion = .standard
  · cases ht : o.taggedPdf <;> simp [members, lookup_append, lookup_toList_map, lookup, hv, ht]
  · cases ht : o.taggedPdf <;> simp [members, lookup_append, lookup_toList_map, lookup, hv, ht]

/-- **Options are read as they were written**, but for those out of range. -/
theorem ofJson_toJson (o : Options) : ofJson o.toJson = o.normal := by
  obtain ⟨hlookup, hquality, hdpi, htag, hrange, hpassword⟩ := o.lookup_members
  have hversion : (((lookup "pdf_version" o.members).bind (Json.asNatBelow? UInt32.size)).map
      PdfVersion.ofNumber).getD .standard = o.pdfVersion := by
    rw [hlookup]
    have hlt : o.pdfVersion.number < UInt32.size := Nat.lt_trans o.pdfVersion.number_lt (by decide)
    split
    · rename_i h
      exact h.symm
    · rw [Option.bind_some, Json.asNatBelow?_ofNat hlt, Option.map_some,
        PdfVersion.ofNumber_number]
      rfl
  have htagged : ((lookup "tagged_pdf" o.members).bind Json.asBool?).getD false = o.taggedPdf := by
    rw [htag]
    cases o.taggedPdf <;> rfl
  show ofMembers o.members = o.normal
  rw [ofMembers, hversion, htagged, hquality, hdpi, hrange, hpassword,
    bind_map_eq_filter readQuality_toNat, bind_map_eq_filter readDpi_toNat,
    bind_map_eq_filter (p := fun t : String => t ≠ "") (fun _ => rfl),
    bind_map_eq_filter (p := fun t : String => t ≠ "") (fun _ => rfl)]
  rfl

theorem plain_toJson (depth : Nat) (o : Options) : Json.Plain (depth + 1) o.toJson := by
  refine PlainMembers.obj (.append (.append (.append (.append (.append ?_ ?_) ?_) ?_) ?_) ?_)
  · split
    · exact plainMembers_nil
    · have hlt := Nat.lt_trans o.pdfVersion.number_lt (by decide : 4 < UInt64.size)
      exact .cons (plain_ofNat hlt) plainMembers_nil
  · exact plainMembers_toList_map (fun q => plain_ofNat (Nat.lt_trans q.toNat_lt (by decide))) _
  · exact plainMembers_toList_map (fun d => plain_ofNat (Nat.lt_trans d.toNat_lt (by decide))) _
  · split
    · exact .cons .bool plainMembers_nil
    · exact plainMembers_nil
  · exact plainMembers_toList_map (fun _ => .str) _
  · exact plainMembers_toList_map (fun _ => .str) _

end Options

/-- A format is read as it was written. -/
theorem Format.ofJson_number (f : Format) : Format.ofJson (some (.int f.number)) = f := by
  have hlt : f.number < UInt32.size := Nat.lt_trans f.number_lt (by decide)
  rw [Format.ofJson, Option.bind_some, Json.asNatBelow?_ofNat hlt, Option.map_some,
    Format.ofNumber_number]
  rfl

/-! ## Requests -/

/-- The request as it is read. -/
def FileRequest.normal (r : FileRequest) : FileRequest := { r with options := r.options.normal }

/-- The request as it is read. -/
def BufferRequest.normal (r : BufferRequest) : BufferRequest :=
  { r with options := r.options.normal }

namespace Request

/-- The request as it is read. -/
def normal : Request → Request
  | init r => init r
  | convert r => convert r.normal
  | convertBuffer r => convertBuffer r.normal
  | quit => quit

theorem plain_toJson (depth : Nat) (r : Request) : Json.Plain (depth + 2) r.toJson := by
  refine PlainMembers.obj (.cons .str ?_)
  cases r with
  | init r =>
      refine .append (plainMembers_toList_map (fun _ => .str) _) ?_
      split
      · exact plainMembers_nil
      · refine .cons (.arr fun v hv => ?_) plainMembers_nil
        obtain ⟨t, -, rfl⟩ := List.mem_map.mp hv
        exact .str
  | convert r =>
      have hlt := Nat.lt_trans r.format.number_lt (by decide : 4 < UInt64.size)
      refine .append (.append (.cons (plain_toInt _) (plainMembers_toList_map (fun _ => .str) _))
        (plainMembers_toList_map (fun _ => .str) _)) ?_
      exact .cons (plain_ofNat hlt) (.cons (r.options.plain_toJson depth) plainMembers_nil)
  | convertBuffer r =>
      have hlt := Nat.lt_trans r.format.number_lt (by decide : 4 < UInt64.size)
      refine .append (.cons (plain_toInt _) (.cons (plain_ofNat hlt)
        (plainMembers_toList_map (fun n => plain_ofNat n.toNat_lt) _))) ?_
      exact .cons (r.options.plain_toJson depth) plainMembers_nil
  | quit => exact plainMembers_nil

theorem lookup_textPair (key k : String) (text : Option String) :
    lookup key (textPair k text) = if k = key then text.map .str else none :=
  lookup_toList_map key k Json.str text

theorem bind_asString?_map (text : Option String) :
    (text.map Json.str).bind Json.asString? = text := by
  cases text <;> rfl

theorem initOfMembers_fields (r : InitRequest) :
    initOfMembers (("type", .str "init") :: (init r).fields) = r := by
  have hread : ∀ texts : List String, (texts.map Json.str).filterMap Json.asString? = texts := by
    intro texts
    rw [List.filterMap_map]
    exact List.filterMap_some
  have hpath : lookup "resource_path" (("type", .str "init") :: (init r).fields)
      = r.resourcePath.map .str := by
    by_cases h : r.fontPaths = []
    · simp [fields, lookup, lookup_textPair, h]
    · simp [fields, lookup, lookup_append, lookup_textPair, h]
  have hfonts : textsMember "font_paths" (("type", .str "init") :: (init r).fields)
      = r.fontPaths := by
    by_cases h : r.fontPaths = []
    · simp [textsMember, fields, lookup, lookup_textPair, h]
    · rw [← hread r.fontPaths]
      simp [textsMember, fields, lookup, lookup_append, lookup_textPair, h, Json.asArray?]
  rw [initOfMembers, textMember, hpath, bind_asString?_map, hfonts]

theorem fileOfMembers_fields (r : FileRequest) :
    fileOfMembers (("type", .str "convert") :: (convert r).fields) = r.normal := by
  have hid : lookup "id" (("type", .str "convert") :: (convert r).fields)
      = some (.int r.id.toInt) := by
    simp [fields, lookup, lookup_append, lookup_textPair]
  have hinput : lookup "input" (("type", .str "convert") :: (convert r).fields)
      = r.input.map .str := by
    simp [fields, lookup, lookup_append, lookup_textPair]
  have houtput : lookup "output" (("type", .str "convert") :: (convert r).fields)
      = r.output.map .str := by
    simp [fields, lookup, lookup_append, lookup_textPair]
  have hformat : lookup "format" (("type", .str "convert") :: (convert r).fields)
      = some (.int r.format.number) := by
    simp [fields, lookup, lookup_append, lookup_textPair]
  have hoptions : lookup "options" (("type", .str "convert") :: (convert r).fields)
      = some r.options.toJson := by
    simp [fields, lookup, lookup_append, lookup_textPair]
  rw [fileOfMembers, idMember, textMember, textMember, optionsMember, hid, hinput, houtput, hformat,
    hoptions, bind_asString?_map, bind_asString?_map, Format.ofJson_number, Option.bind_some,
    Json.asInt64?_toInt, Option.map_some, Options.ofJson_toJson]
  rfl

theorem bufferOfMembers_fields (r : BufferRequest) :
    bufferOfMembers (("type", .str "convert_buffer") :: (convertBuffer r).fields) = r.normal := by
  have hid : lookup "id" (("type", .str "convert_buffer") :: (convertBuffer r).fields)
      = some (.int r.id.toInt) := by
    simp [fields, lookup, lookup_append, lookup_toList_map]
  have hformat : lookup "format" (("type", .str "convert_buffer") :: (convertBuffer r).fields)
      = some (.int r.format.number) := by
    simp [fields, lookup, lookup_append, lookup_toList_map]
  have hsize : lookup "data_size" (("type", .str "convert_buffer") :: (convertBuffer r).fields)
      = r.dataSize.map fun n => .int n.toNat := by
    simp [fields, lookup, lookup_append, lookup_toList_map]
  have hread : (r.dataSize.map fun n => Json.int n.toNat).bind Json.asUInt64? = r.dataSize := by
    cases r.dataSize with
    | none => rfl
    | some n => rw [Option.map_some, Option.bind_some, Json.asUInt64?_toNat]
  have hoptions : lookup "options" (("type", .str "convert_buffer") :: (convertBuffer r).fields)
      = some r.options.toJson := by
    simp [fields, lookup, lookup_append, lookup_toList_map]
  rw [bufferOfMembers, idMember, optionsMember, hid, hformat, hsize, hread, hoptions,
    Format.ofJson_number, Option.bind_some, Json.asInt64?_toInt, Option.map_some,
    Options.ofJson_toJson]
  rfl

/-- **A request is read as it was written**, but for options that are out of range. -/
theorem decode_encode (r : Request) : decode r.encode = .ok (.request r.normal) := by
  have hparse : Json.parse? r.encode = some r.toJson := Json.parse?_encode (r.plain_toJson 125)
  have htype : textMember "type" (("type", .str r.kind) :: r.fields) = some r.kind := by
    -- no field is called so, and the first member is the one that is found
    have hnone : lookup "type" r.fields = none := by
      cases r with
      | init r =>
          by_cases h : r.fontPaths = [] <;> simp [fields, lookup, lookup_append, lookup_textPair, h]
      | convert r => simp [fields, lookup, lookup_append, lookup_textPair]
      | convertBuffer r => simp [fields, lookup, lookup_append, lookup_toList_map]
      | quit => rfl
    rw [textMember, Json.lookup_cons_self, hnone]
    rfl
  rw [decode, hparse]
  show Except.ok (ofMembers (("type", .str r.kind) :: r.fields)) = _
  rw [ofMembers, htype]
  cases r with
  | init r => simp [kind, normal, initOfMembers_fields]
  | convert r => simp [kind, normal, fileOfMembers_fields]
  | convertBuffer r => simp [kind, normal, bufferOfMembers_fields]
  | quit => simp [kind, normal]

end Request

/-! ## What has been read is in range -/

/-- Every option that is set is one that is read. -/
structure Options.InRange (o : Options) : Prop where
  quality : ∀ q ∈ o.jpegQuality, 0 < q.toNat ∧ q.toNat < 101
  dpi : ∀ d ∈ o.dpi, 0 < d.toNat
  pageRange : ∀ t ∈ o.pageRange, t ≠ ""
  password : ∀ t ∈ o.password, t ≠ ""

namespace Options

theorem filter_eq_self {α : Type} {p : α → Bool} {o : Option α} (h : ∀ a ∈ o, p a = true) :
    o.filter p = o := by
  cases o with
  | none => rfl
  | some a => exact Option.filter_eq_some_iff.mpr ⟨rfl, h a rfl⟩

/-- Options in range are read as they are. -/
theorem normal_eq_self {o : Options} (h : o.InRange) : o.normal = o := by
  have hquality := filter_eq_self fun q hq => decide_eq_true (h.quality q hq)
  have hdpi := filter_eq_self fun d hd => decide_eq_true (h.dpi d hd)
  have hrange := filter_eq_self fun t ht => decide_eq_true (h.pageRange t ht)
  have hpassword := filter_eq_self fun t ht => decide_eq_true (h.password t ht)
  rw [normal, hquality, hdpi, hrange, hpassword]

theorem inRange_default : InRange {} := by
  constructor <;> intro _ h <;> cases h

theorem readQuality_range {v : Json} {q : UInt8} (h : readQuality v = some q) :
    0 < q.toNat ∧ q.toNat < 101 := by
  obtain ⟨n, hn, hq⟩ := Option.bind_eq_some_iff.mp h
  have hlt : n < 101 := Json.asNatBelow?_lt hn
  split at hq
  · rename_i hpos
    cases hq
    have hsame : (UInt8.ofNat n).toNat = n :=
      UInt8.toNat_ofNat_of_lt' (Nat.lt_trans hlt (by decide))
    omega
  · cases hq

theorem readDpi_range {v : Json} {d : UInt32} (h : readDpi v = some d) : 0 < d.toNat := by
  obtain ⟨n, hn, hd⟩ := Option.bind_eq_some_iff.mp h
  have hlt : n < UInt32.size := Json.asNatBelow?_lt hn
  split at hd
  · rename_i hpos
    cases hd
    have hsame : (UInt32.ofNat n).toNat = n := UInt32.toNat_ofNat_of_lt' hlt
    omega
  · cases hd

theorem readText_ne {v : Json} {t : String} (h : readText v = some t) : t ≠ "" :=
  of_decide_eq_true (Option.filter_eq_some_iff.mp h).2

theorem inRange_ofMembers (members : List (String × Json)) : (ofMembers members).InRange where
  quality q hq := by
    obtain ⟨v, -, hv⟩ := Option.bind_eq_some_iff.mp hq
    exact readQuality_range hv
  dpi d hd := by
    obtain ⟨v, -, hv⟩ := Option.bind_eq_some_iff.mp hd
    exact readDpi_range hv
  pageRange t ht := by
    obtain ⟨v, -, hv⟩ := Option.bind_eq_some_iff.mp ht
    exact readText_ne hv
  password t ht := by
    obtain ⟨v, -, hv⟩ := Option.bind_eq_some_iff.mp ht
    exact readText_ne hv

/-- **Whatever a value holds**, the options that it gives are in range. -/
theorem inRange_ofJson (v : Json) : (ofJson v).InRange := by
  unfold ofJson
  split
  · exact inRange_ofMembers _
  · exact inRange_default

end Options

namespace Request

theorem inRange_optionsMember (members : List (String × Json)) :
    (optionsMember members).InRange := by
  unfold optionsMember
  cases Json.lookup "options" members with
  | none => exact Options.inRange_default
  | some v => exact Options.inRange_ofJson v

theorem normal_fileOfMembers (members : List (String × Json)) :
    (fileOfMembers members).normal = fileOfMembers members := by
  have hoptions : (fileOfMembers members).options.normal = (fileOfMembers members).options :=
    Options.normal_eq_self (inRange_optionsMember members)
  rw [FileRequest.normal, hoptions]

theorem normal_bufferOfMembers (members : List (String × Json)) :
    (bufferOfMembers members).normal = bufferOfMembers members := by
  have hoptions : (bufferOfMembers members).options.normal = (bufferOfMembers members).options :=
    Options.normal_eq_self (inRange_optionsMember members)
  rw [BufferRequest.normal, hoptions]

theorem normal_of_ofMembers {members : List (String × Json)} {r : Request}
    (h : ofMembers members = .request r) : r.normal = r := by
  unfold ofMembers at h
  split at h
  · cases h
  · split at h
    · cases h
      rfl
    · split at h
      · cases h
        exact congrArg convert (normal_fileOfMembers members)
      · split at h
        · cases h
          exact congrArg convertBuffer (normal_bufferOfMembers members)
        · split at h
          · cases h
            rfl
          · cases h

/-- What a request to convert a file holds is what its members give. -/
theorem file_of_ofMembers {members : List (String × Json)} {r : FileRequest}
    (h : ofMembers members = .request (.convert r)) : r = fileOfMembers members := by
  unfold ofMembers at h
  split at h
  · cases h
  · split at h
    · cases h
    · split at h
      · cases h
        rfl
      · split at h
        · cases h
        · split at h
          · cases h
          · cases h

/-- Only normal requests are read. -/
theorem normal_of_decoded {payload : ByteArray} {r : Request}
    (h : decode payload = .ok (.request r)) : r.normal = r := by
  unfold decode at h
  split at h
  · unfold ofJson at h
    split at h
    · exact normal_of_ofMembers (Except.ok.inj h)
    · cases h
  · cases h

/-- **What is written is read in its normal form, and what has been read is passed on unchanged.**
Writing a request and reading it unsets the options that are out of range and keeps all else;
whatever octets a request was read from, written again it is read as the same request. -/
theorem decode_encode_of_decoded :
    (∀ r : Request, decode r.encode = .ok (.request r.normal))
      ∧ ∀ (payload : ByteArray) (r : Request), decode payload = .ok (.request r) →
        decode r.encode = .ok (.request r) := by
  refine ⟨decode_encode, ?_⟩
  intro payload r h
  rw [decode_encode, normal_of_decoded h]

/-- A request with all options out of range. -/
def sloppy : Request :=
  .convert { id := -7, input := some "a\"b", format := .docx, options :=
    { jpegQuality := some 101, dpi := some 0, pageRange := some "", password := some "" } }

/-- Read once, the request has no options; passed on, it stays so. -/
theorem decode_encode_sloppy : decode sloppy.encode = .ok (.request sloppy.normal)
    ∧ decode sloppy.normal.encode = .ok (.request sloppy.normal) :=
  ⟨decode_encode_of_decoded.1 sloppy,
    decode_encode_of_decoded.2 sloppy.encode sloppy.normal (decode_encode sloppy)⟩

/-! ## Paths in a request -/

/-- **The path that a request gives** takes, in quotes, at most as many octets as the request. -/
theorem octets_input_le {payload : ByteArray} {r : FileRequest} {input : String}
    (h : decode payload = .ok (.request (.convert r))) (hinput : r.input = some input) :
    Text.octets (Json.quote input) ≤ payload.size := by
  unfold decode at h
  split at h
  · rename_i v hparse
    have hholds := Json.parse?_holds hparse
    unfold ofJson at h
    split at h
    · rename_i members hobject
      have hv : v = .obj members := by
        cases v <;> cases hobject
        rfl
      have hmember : textMember "input" members = some input := by
        rw [← hinput]
        exact (congrArg FileRequest.input (file_of_ofMembers (Except.ok.inj h))).symm
      obtain ⟨w, hw, hs⟩ := Option.bind_eq_some_iff.mp hmember
      rw [hv] at hholds
      have hinside := hholds.of_mem _ (Json.mem_of_lookup hw)
      cases w with
      | str s =>
          cases hs
          exact hinside.of_str
      | _ => cases hs
    · cases h
  · cases h

end Request

end PdfWorker
