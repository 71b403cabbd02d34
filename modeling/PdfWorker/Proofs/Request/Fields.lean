import PdfWorker.Proofs.Json.Members
import PdfWorker.Request
set_option autoImplicit false

/-! # The fields of a request

A message and its options are records of fields, and each field is read for itself: its member sets
it if the value has the shape that the field accepts (`Field.read`), and otherwise it keeps its
default. `Request.ofMembers_eq` and `Options.ofMembers_eq` say that requests are read in this way,
field by field; that no field gets in the way of another (`Field.Independent`) is a matter of the
table alone.
-/

namespace PdfWorker

/-! ## Members that are taken out or replaced -/

namespace Json

/-- The members with other keys. -/
def without (key : String) (members : List (String × Json)) : List (String × Json) :=
  members.filter (·.1 ≠ key)

/-- The members, where those with this key have another value. -/
def withValue (key : String) (v : Json) (members : List (String × Json)) :
    List (String × Json) :=
  members.map fun m => if m.1 = key then (key, v) else m

variable {key other : String} {v : Json}

theorem lookup_without (members : List (String × Json)) :
    lookup other (without key members) = if other = key then none else lookup other members := by
  induction members with
  | nil => simp [without]
  | cons m rest ih =>
      obtain ⟨k, w⟩ := m
      rw [without] at ih ⊢
      by_cases hk : k = key
      · rw [List.filter_cons_of_neg (by simp [hk]), ih, lookup]
        split
        · rfl
        · rename_i hne
          rw [if_neg fun he => hne (he.symm.trans hk), Option.or_none]
      · rw [List.filter_cons_of_pos (by simp [hk]), lookup, lookup, ih]
        split
        · rename_i he
          rw [if_neg fun hko => hk (hko.trans he)]
          rfl
        · rfl

theorem lookup_withValue (members : List (String × Json)) :
    lookup other (withValue key v members)
      = if other = key then (lookup other members).map fun _ => v else lookup other members := by
  induction members with
  | nil => simp [withValue]
  | cons m rest ih =>
      obtain ⟨k, w⟩ := m
      rw [withValue] at ih ⊢
      by_cases hk : k = key
      · subst hk
        rw [List.map_cons, if_pos rfl, lookup, lookup, ih]
        by_cases ho : other = k
        · subst ho
          cases lookup other rest <;> simp
        · simp [ho, Ne.symm ho]
      · rw [List.map_cons, if_neg hk, lookup, lookup, ih]
        by_cases ho : other = key
        · subst ho
          simp [hk]
        · simp [ho]

theorem lookup_without_of_ne (h : other ≠ key) (members : List (String × Json)) :
    lookup other (without key members) = lookup other members := by
  rw [lookup_without, if_neg h]

theorem lookup_withValue_of_ne (h : other ≠ key) (members : List (String × Json)) :
    lookup other (withValue key v members) = lookup other members := by
  rw [lookup_withValue, if_neg h]

/-! ## Shapes -/

/-- The values that a field accepts. -/
inductive Shape where
  | text
  /-- A text that is not empty. -/
  | filled
  /-- An integer from `least` to `most`. -/
  | number (least most : Int)
  | truth
  | list
  | object
deriving DecidableEq, Repr

/-- Whether a value has the shape. -/
def Shape.accepts : Shape → Json → Bool
  | text, .str _ => true
  | filled, .str s => s ≠ ""
  | number least most, .int n => least ≤ n ∧ n ≤ most
  | truth, .bool _ => true
  | list, .arr _ => true
  | object, .obj _ => true
  | _, _ => false

/-- The text that a value is. -/
def asText : Json → String
  | str s => s
  | _ => ""

/-- The integer that a value is. -/
def asInt : Json → Int
  | int n => n
  | _ => 0

/-- The truth value that a value is. -/
def asTruth : Json → Bool
  | bool b => b
  | _ => false

/-- The texts in a list. -/
def asTexts : Json → List String
  | arr items => items.filterMap asString?
  | _ => []

theorem asNatBelow?_of_accepts {least most : Int} {v : Json}
    (h : (Shape.number least most).accepts v = true) (hleast : 0 ≤ least) (bound : Nat)
    (hmost : most < bound) : v.asNatBelow? bound = some v.asInt.toNat ∧ least ≤ v.asInt.toNat := by
  cases v with
  | int n =>
      obtain ⟨hl, hm⟩ := of_decide_eq_true h
      refine ⟨if_pos ⟨by omega, by omega⟩, ?_⟩
      show least ≤ n.toNat
      omega
  | _ => cases h

/-- A number that the shape refuses is out of its range, though it may fit the bound. -/
theorem range_of_refused {least most : Int} {v : Json}
    (h : (Shape.number least most).accepts v = false) {bound n : Nat}
    (hn : v.asNatBelow? bound = some n) : (n : Int) < least ∨ most < n := by
  cases v with
  | int m =>
      have hrefused := of_decide_eq_false h
      obtain ⟨hrange, heq⟩ := Option.ite_none_right_eq_some.mp hn
      cases heq
      omega
  | _ => cases hn

end Json

/-! ## Fields -/

open Json (lookup without withValue Shape lookup_without_of_ne lookup_withValue
  lookup_withValue_of_ne)

/-- A field of a record that is read from members. -/
structure Field (α : Type) where
  key : String
  /-- The values that it accepts. -/
  shape : Shape
  /-- Sets the field to what such a value says. -/
  put : Json → α → α

namespace Field

variable {α : Type} {members members' : List (String × Json)}

/-- Sets the field if its member has a value that it accepts. -/
def read (f : Field α) (members : List (String × Json)) (a : α) : α :=
  match lookup f.key members with
  | some v => if f.shape.accepts v then f.put v a else a
  | none => a

/-- Reads one field after the other. -/
def readAll (fields : List (Field α)) (members : List (String × Json)) (a : α) : α :=
  fields.foldl (fun a f => f.read members a) a

/-- The fields have different keys, setting one does not touch another, and setting one twice is
setting it the second time. -/
structure Independent (fields : List (Field α)) : Prop where
  apart : fields.Pairwise fun f g =>
    f.key ≠ g.key ∧ ∀ v w a, f.put v (g.put w a) = g.put w (f.put v a)
  put_put : ∀ f ∈ fields, ∀ v w a, f.put w (f.put v a) = f.put w a

theorem read_congr {f : Field α} (h : lookup f.key members' = lookup f.key members) :
    f.read members' = f.read members := by
  funext a
  rw [read, h, read]

/-- Reading a field leaves it alone or sets it to one value. -/
theorem read_cases (f : Field α) (members : List (String × Json)) :
    (∀ a, f.read members a = a) ∨ ∃ v, ∀ a, f.read members a = f.put v a := by
  cases hv : lookup f.key members with
  | none => exact .inl fun a => by rw [read, hv]
  | some v =>
      cases h : f.shape.accepts v with
      | true => exact .inr ⟨v, fun a => by simp only [read, hv, h, if_true]⟩
      | false => exact .inl fun a => by simp [read, hv, h]

/-- A refused value counts as none. -/
theorem read_of_refused {f : Field α}
    (h : ∀ v, lookup f.key members = some v → f.shape.accepts v = false) (a : α) :
    f.read members a = a := by
  unfold read
  split
  · rename_i v hv
    rw [if_neg (by simp [h v hv])]
  · rfl

/-- What setting any of the fields keeps, reading them keeps. -/
theorem readAll_induction {P : α → Prop} {fields : List (Field α)} {a : α} (ha : P a)
    (h : ∀ f ∈ fields, ∀ v a, P a → P (f.put v a)) : P (readAll fields members a) := by
  induction fields generalizing a with
  | nil => exact ha
  | cons f fields ih =>
      obtain ⟨hf, hothers⟩ := List.forall_mem_cons.mp h
      have hread : P (f.read members a) := by
        rcases f.read_cases members with hsame | ⟨v, hput⟩
        · rwa [hsame]
        · rw [hput]
          exact hf v a ha
      exact ih hread hothers

theorem readAll_congr {fields : List (Field α)}
    (h : ∀ f ∈ fields, f.read members' = f.read members) (a : α) :
    readAll fields members' a = readAll fields members a := by
  induction fields generalizing a with
  | nil => rfl
  | cons f fields ih =>
      obtain ⟨hf, hothers⟩ := List.forall_mem_cons.mp h
      rw [readAll, List.foldl_cons, hf]
      exact ih hothers _

theorem readAll_without {fields : List (Field α)} {key : String}
    (h : ∀ f ∈ fields, f.key = key → ∀ v, lookup key members = some v → f.shape.accepts v = false)
    (a : α) : readAll fields (without key members) a = readAll fields members a := by
  refine readAll_congr (fun f hf => ?_) a
  by_cases hkey : f.key = key
  · subst hkey
    funext a
    rw [read_of_refused (h f hf rfl), read_of_refused fun v hv => ?_]
    rw [Json.lookup_without, if_pos rfl] at hv
    cases hv
  · exact read_congr (lookup_without_of_ne hkey members)

/-- Setting a field comes to the same before and after reading others. -/
theorem readAll_put {f : Field α} {fields : List (Field α)}
    (h : ∀ g ∈ fields, ∀ v w a, f.put v (g.put w a) = g.put w (f.put v a)) (v : Json) (a : α) :
    readAll fields members (f.put v a) = f.put v (readAll fields members a) := by
  induction fields generalizing a with
  | nil => rfl
  | cons g fields ih =>
      obtain ⟨hg, hothers⟩ := List.forall_mem_cons.mp h
      have hread : g.read members (f.put v a) = f.put v (g.read members a) := by
        rcases g.read_cases members with hsame | ⟨w, hput⟩
        · rw [hsame, hsame]
        · rw [hput, hput, hg]
      rw [readAll, List.foldl_cons, hread]
      exact ih hothers _

/-- **Another value that the field accepts** changes what the field is set to and nothing else. -/
theorem readAll_withValue {fields : List (Field α)} (hi : Independent fields) {f : Field α}
    (hf : f ∈ fields) (hpresent : (lookup f.key members).isSome) {v : Json}
    (hv : f.shape.accepts v = true) (a : α) :
    readAll fields (withValue f.key v members) a = f.put v (readAll fields members a) := by
  induction fields generalizing a with
  | nil => cases hf
  | cons g fields ih =>
      obtain ⟨hapart, hothers⟩ := List.pairwise_cons.mp hi.apart
      obtain ⟨hputs, hput⟩ := List.forall_mem_cons.mp hi.put_put
      rw [readAll, List.foldl_cons, readAll, List.foldl_cons]
      rcases List.mem_cons.mp hf with rfl | hf
      · -- the fields that are read later do not see the difference
        have hlater : ∀ a, readAll fields (withValue f.key v members) a
            = readAll fields members a := fun a =>
          readAll_congr (fun g hg => read_congr (lookup_withValue_of_ne (hapart g hg).1.symm _)) a
        have hread : f.read (withValue f.key v members) a = f.put v a := by
          obtain ⟨w, hw⟩ := Option.isSome_iff_exists.mp hpresent
          simp [read, lookup_withValue, hw, hv]
        have hsame : f.put v (f.read members a) = f.put v a := by
          rcases f.read_cases members with hleft | ⟨w, hset⟩
          · rw [hleft]
          · rw [hset, hputs]
        show readAll fields _ _ = f.put v (readAll fields members _)
        rw [hlater, hread, ← hsame, readAll_put fun g hg => (hapart g hg).2]
      · rw [read_congr (lookup_withValue_of_ne (hapart f hf).1 members)]
        exact ih ⟨hothers, hput⟩ hf _

/-- The field is read by `of`, which takes what its member holds, and set by `set`. -/
structure Reads {β : Type} (f : Field α) (set : β → α → α) (of : Option Json → β) : Prop where
  accepted : ∀ v a, f.shape.accepts v = true → f.put v a = set (of (some v)) a
  refused : ∀ v, f.shape.accepts v = false → of (some v) = of none

/-- A field that has its default is set to what is read. -/
theorem Reads.read_eq {β : Type} {f : Field α} {set : β → α → α} {of : Option Json → β}
    (h : f.Reads set of) {a : α} (ha : set (of none) a = a) :
    f.read members a = set (of (lookup f.key members)) a := by
  unfold read
  cases lookup f.key members with
  | none => exact ha.symm
  | some v =>
      cases hv : f.shape.accepts v with
      | true =>
          simp only [hv, if_true]
          exact h.accepted v a hv
      | false =>
          rw [h.refused v hv, ha]
          simp [hv]

/-- A field that is a text. -/
def ofText (key : String) (set : Option String → α → α) : Field α :=
  ⟨key, .text, fun v => set (some v.asText)⟩

/-- A field that is a text and not empty. -/
def ofFilled (key : String) (set : Option String → α → α) : Field α :=
  ⟨key, .filled, fun v => set (some v.asText)⟩

theorem reads_ofText (key : String) (set : Option String → α → α) :
    (ofText key set).Reads set (·.bind Json.asString?) where
  accepted v a h := by
    cases v with
    | str s => rfl
    | _ => cases h
  refused v h := by
    cases v with
    | str s => cases h
    | _ => rfl

theorem reads_ofFilled (key : String) (set : Option String → α → α) :
    (ofFilled key set).Reads set (·.bind Options.readText) where
  accepted v a h := by
    cases v with
    | str s =>
        have hs : Options.readText (.str s) = some s :=
          Option.filter_eq_some_iff.mpr ⟨rfl, h⟩
        rw [Option.bind_some, hs]
        rfl
    | _ => cases h
  refused v h := by
    cases v with
    | str s =>
        have hs : s = "" := by simpa using of_decide_eq_false h
        rw [hs]
        rfl
    | _ => rfl

end Field

/-! ## Options -/

namespace Options

/-- The fields of options. -/
def versionField : Field Options :=
  ⟨"pdf_version", .number 0 3, fun v o => { o with pdfVersion := .ofNumber v.asInt.toNat }⟩

def qualityField : Field Options :=
  ⟨"jpeg_quality", .number 1 100, fun v o => { o with jpegQuality := some (.ofNat v.asInt.toNat) }⟩

def dpiField : Field Options :=
  ⟨"dpi", .number 1 (UInt32.size - 1), fun v o => { o with dpi := some (.ofNat v.asInt.toNat) }⟩

def taggedField : Field Options :=
  ⟨"tagged_pdf", .truth, fun v o => { o with taggedPdf := v.asTruth }⟩

def rangeField : Field Options :=
  .ofFilled "page_range" fun t o => { o with pageRange := t }

def passwordField : Field Options :=
  .ofFilled "password" fun t o => { o with password := t }

def fields : List (Field Options) :=
  [versionField, qualityField, dpiField, taggedField, rangeField, passwordField]

theorem independent_fields : Field.Independent fields where
  apart := by
    simp only [fields, List.pairwise_cons, List.forall_mem_cons, List.not_mem_nil, false_imp_iff,
      implies_true, List.Pairwise.nil, and_true]
    repeat' apply And.intro
    all_goals first | decide | exact fun _ _ _ => rfl
  put_put := by
    simp only [fields, List.forall_mem_cons, List.not_mem_nil, false_imp_iff, implies_true,
      and_true]
    repeat' apply And.intro
    all_goals exact fun _ _ _ => rfl

theorem reads_version : versionField.Reads (fun v o => { o with pdfVersion := v })
    fun m => ((m.bind (Json.asNatBelow? UInt32.size)).map PdfVersion.ofNumber).getD .standard where
  accepted v o h := by
    have hn := Json.asNatBelow?_of_accepts h (by decide) UInt32.size (by decide)
    rw [Option.bind_some, hn.1]
    rfl
  refused v h := by
    rw [Option.bind_some]
    cases hn : v.asNatBelow? UInt32.size with
    | none => rfl
    | some n =>
        have hlarge : 3 < n := by
          have hout := Json.range_of_refused h hn
          omega
        obtain ⟨k, rfl⟩ := Nat.exists_eq_add_of_le' hlarge
        rfl

theorem reads_quality : qualityField.Reads (fun q o => { o with jpegQuality := q })
    (·.bind readQuality) where
  accepted v o h := by
    obtain ⟨hn, hleast⟩ := Json.asNatBelow?_of_accepts h (by decide) 101 (by decide)
    rw [Option.bind_some, readQuality, hn, Option.bind_some, if_pos (by omega)]
    rfl
  refused v h := by
    rw [Option.bind_some, readQuality]
    cases hn : v.asNatBelow? 101 with
    | none => rfl
    | some q =>
        have hbelow := Json.asNatBelow?_lt hn
        have hout := Json.range_of_refused h hn
        rw [Option.bind_some, if_neg (by omega)]
        rfl

theorem reads_dpi : dpiField.Reads (fun d o => { o with dpi := d }) (·.bind readDpi) where
  accepted v o h := by
    obtain ⟨hn, hleast⟩ :=
      Json.asNatBelow?_of_accepts h (by decide) UInt32.size (by decide)
    rw [Option.bind_some, readDpi, hn, Option.bind_some, if_pos (by omega)]
    rfl
  refused v h := by
    rw [Option.bind_some, readDpi]
    cases hn : v.asNatBelow? UInt32.size with
    | none => rfl
    | some d =>
        have hbelow := Json.asNatBelow?_lt hn
        have hout := Json.range_of_refused h hn
        rw [Option.bind_some, if_neg (by omega)]
        rfl

theorem reads_tagged : taggedField.Reads (fun b o => { o with taggedPdf := b })
    fun m => (m.bind Json.asBool?).getD false where
  accepted v o h := by
    cases v with
    | bool b => rfl
    | _ => cases h
  refused v h := by
    cases v with
    | bool b => cases h
    | _ => rfl

theorem reads_range : rangeField.Reads (fun t o => { o with pageRange := t }) (·.bind readText) :=
  Field.reads_ofFilled _ _

theorem reads_password :
    passwordField.Reads (fun t o => { o with password := t }) (·.bind readText) :=
  Field.reads_ofFilled _ _

/-- **Options are read field by field.** -/
theorem ofMembers_eq (members : List (String × Json)) :
    ofMembers members = Field.readAll fields members {} := by
  rw [Field.readAll, fields, List.foldl_cons, List.foldl_cons, List.foldl_cons, List.foldl_cons,
    List.foldl_cons, List.foldl_cons, List.foldl_nil, reads_version.read_eq rfl,
    reads_quality.read_eq rfl, reads_dpi.read_eq rfl, reads_tagged.read_eq rfl,
    reads_range.read_eq rfl, reads_password.read_eq rfl]
  rfl

/-- The options have no use for their member `key`. -/
def Refused (members : List (String × Json)) (key : String) : Prop :=
  ∀ f ∈ fields, f.key = key → ∀ v, lookup key members = some v → f.shape.accepts v = false

end Options

/-! ## Requests -/

namespace Request

/-! ### Parts of a request -/

def onInit (g : InitRequest → InitRequest) : Request → Request
  | init r => init (g r)
  | r => r

def onFile (g : FileRequest → FileRequest) : Request → Request
  | convert r => convert (g r)
  | r => r

def onBuffer (g : BufferRequest → BufferRequest) : Request → Request
  | convertBuffer r => convertBuffer (g r)
  | r => r

/-- Sets the number of a request that has one. -/
def withId (id : Int64) : Request → Request
  | convert r => convert { r with id }
  | convertBuffer r => convertBuffer { r with id }
  | r => r

def withFormat (format : Format) : Request → Request
  | convert r => convert { r with format }
  | convertBuffer r => convertBuffer { r with format }
  | r => r

/-- Changes the options of a request that has some. -/
def onOptions (g : Options → Options) : Request → Request
  | convert r => convert { r with options := g r.options }
  | convertBuffer r => convertBuffer { r with options := g r.options }
  | r => r

/-! ### The fields -/

def pathField : Field Request :=
  .ofText "resource_path" fun t => onInit fun r => { r with resourcePath := t }

def fontsField : Field Request :=
  ⟨"font_paths", .list, fun v => onInit fun r => { r with fontPaths := v.asTexts }⟩

def idField : Field Request :=
  ⟨"id", .number Int64.minValue.toInt Int64.maxValue.toInt, fun v => withId (.ofInt v.asInt)⟩

def inputField : Field Request :=
  .ofText "input" fun t => onFile fun r => { r with input := t }

def outputField : Field Request :=
  .ofText "output" fun t => onFile fun r => { r with output := t }

def formatField : Field Request :=
  ⟨"format", .number 0 3, fun v => withFormat (.ofNumber v.asInt.toNat)⟩

def sizeField : Field Request :=
  ⟨"data_size", .number 0 (UInt64.size - 1),
    fun v => onBuffer fun r => { r with dataSize := some (.ofNat v.asInt.toNat) }⟩

def optionsField : Field Request :=
  ⟨"options", .object, fun v => onOptions fun _ => Options.ofJson v⟩

/-- The fields of a request after its type. -/
def knownFields : Request → List (Field Request)
  | init _ => [pathField, fontsField]
  | convert _ => [idField, inputField, outputField, formatField, optionsField]
  | convertBuffer _ => [idField, formatField, sizeField, optionsField]
  | quit => []

theorem independent_knownFields (r : Request) : Field.Independent r.knownFields where
  apart := by
    cases r
    all_goals
      simp only [knownFields, List.pairwise_cons, List.forall_mem_cons, List.not_mem_nil,
        false_imp_iff, implies_true, List.Pairwise.nil, and_true]
    all_goals repeat' apply And.intro
    all_goals first | decide | exact fun _ _ r => by cases r <;> rfl
  put_put := by
    cases r
    all_goals
      simp only [knownFields, List.forall_mem_cons, List.not_mem_nil, false_imp_iff, implies_true,
        and_true]
    all_goals repeat' apply And.intro
    all_goals exact fun _ _ r => by cases r <;> rfl

/-! ### Reading them -/

theorem reads_fonts : fontsField.Reads (fun texts => onInit fun r => { r with fontPaths := texts })
    fun m => ((m.bind Json.asArray?).getD []).filterMap Json.asString? where
  accepted v r h := by
    cases v with
    | arr items => rfl
    | _ => cases h
  refused v h := by
    cases v with
    | arr items => cases h
    | _ => rfl

theorem reads_id : idField.Reads withId fun m => (m.bind Json.asInt64?).getD 0 where
  accepted v r h := by
    cases v with
    | int n =>
        have hn : Json.asInt64? (.int n) = some (Int64.ofInt n) := if_pos (of_decide_eq_true h)
        rw [Option.bind_some, hn]
        rfl
    | _ => cases h
  refused v h := by
    cases v with
    | int n =>
        have hn : Json.asInt64? (.int n) = none := if_neg (of_decide_eq_false h)
        rw [Option.bind_some, hn]
        rfl
    | _ => rfl

theorem reads_format : formatField.Reads withFormat Format.ofJson where
  accepted v r h := by
    have hn := Json.asNatBelow?_of_accepts h (by decide) UInt32.size (by decide)
    rw [Format.ofJson, Option.bind_some, hn.1]
    rfl
  refused v h := by
    rw [Format.ofJson, Option.bind_some]
    cases hn : v.asNatBelow? UInt32.size with
    | none => rfl
    | some n =>
        have hlarge : 3 < n := by
          have hout := Json.range_of_refused h hn
          omega
        obtain ⟨k, rfl⟩ := Nat.exists_eq_add_of_le' hlarge
        rfl

theorem reads_size : sizeField.Reads (fun n => onBuffer fun r => { r with dataSize := n })
    (·.bind Json.asUInt64?) where
  accepted v r h := by
    have hn := Json.asNatBelow?_of_accepts h (by decide) UInt64.size (by decide)
    rw [Option.bind_some, Json.asUInt64?, hn.1]
    rfl
  refused v h := by
    rw [Option.bind_some, Json.asUInt64?]
    cases hn : v.asNatBelow? UInt64.size with
    | none => rfl
    | some n =>
        have hbelow := Json.asNatBelow?_lt hn
        have hout := Json.range_of_refused h hn
        omega

theorem reads_options : optionsField.Reads (fun o => onOptions fun _ => o)
    fun m => (m.map Options.ofJson).getD {} where
  accepted v r h := rfl
  refused v h := by
    cases v with
    | obj members => cases h
    | _ => rfl

theorem reads_path : pathField.Reads (fun t => onInit fun r => { r with resourcePath := t })
    (·.bind Json.asString?) :=
  Field.reads_ofText _ _

theorem reads_input : inputField.Reads (fun t => onFile fun r => { r with input := t })
    (·.bind Json.asString?) :=
  Field.reads_ofText _ _

theorem reads_output : outputField.Reads (fun t => onFile fun r => { r with output := t })
    (·.bind Json.asString?) :=
  Field.reads_ofText _ _

/-- The message of a type, before its fields are read. -/
def blank : Option String → Decoded
  | none => .ignored none
  | some kind =>
    if kind = "init" then .request (.init {})
    else if kind = "convert" then .request (.convert {})
    else if kind = "convert_buffer" then .request (.convertBuffer {})
    else if kind = "quit" then .request .quit
    else .ignored (some kind)

/-- The fields of a message after its type. -/
def Decoded.knownFields : Decoded → List (Field Request)
  | .request r => r.knownFields
  | .ignored _ => []

/-- Reads the fields of a message. -/
def Decoded.read (members : List (String × Json)) : Decoded → Decoded
  | .request r => .request (Field.readAll r.knownFields members r)
  | .ignored kind => .ignored kind

/-- **A message is read field by field** after its type. -/
theorem ofMembers_eq (members : List (String × Json)) :
    ofMembers members = (blank (textMember "type" members)).read members := by
  have hinit : Request.init (initOfMembers members)
      = Field.readAll [pathField, fontsField] members (.init {}) := by
    rw [Field.readAll, List.foldl_cons, List.foldl_cons, List.foldl_nil, reads_path.read_eq rfl,
      reads_fonts.read_eq rfl]
    rfl
  have hfile : Request.convert (fileOfMembers members) = Field.readAll
      [idField, inputField, outputField, formatField, optionsField] members (.convert {}) := by
    rw [Field.readAll, List.foldl_cons, List.foldl_cons, List.foldl_cons, List.foldl_cons,
      List.foldl_cons, List.foldl_nil, reads_id.read_eq rfl, reads_input.read_eq rfl,
      reads_output.read_eq rfl, reads_format.read_eq rfl, reads_options.read_eq rfl]
    rfl
  have hbuffer : Request.convertBuffer (bufferOfMembers members) = Field.readAll
      [idField, formatField, sizeField, optionsField] members (.convertBuffer {}) := by
    rw [Field.readAll, List.foldl_cons, List.foldl_cons, List.foldl_cons, List.foldl_cons,
      List.foldl_nil, reads_id.read_eq rfl, reads_format.read_eq rfl, reads_size.read_eq rfl,
      reads_options.read_eq rfl]
    rfl
  unfold ofMembers blank
  cases textMember "type" members with
  | none => rfl
  | some kind =>
      simp only
      split
      · exact congrArg Decoded.request hinit
      · split
        · exact congrArg Decoded.request hfile
        · split
          · exact congrArg Decoded.request hbuffer
          · split <;> rfl

end Request

end PdfWorker
