import PdfWorker.Proofs.Diagnostic
import PdfWorker.Proofs.Json.Members
import PdfWorker.Response
set_option autoImplicit false

/-! # Responses that are written and read

`Response.decode_encode` says that a supervisor reads every answer as the worker wrote it. The
reader is strict, so each record needs two facts: no field is written twice, and each is found
where the reader looks for it (`fields?_obj`). The last section bounds the length of an answer by
what it tells.
-/

namespace PdfWorker

open Json (lookup occurrences lookup_append lookup_toList_map PlainMembers plainMembers_nil
  plainMembers_toList_map plain_ofNat plain_toInt)

namespace Json

theorem fields?_obj {names : List String} {atLeast : Nat} {members : List (String × Json)}
    (h : ∀ name ∈ names, occurrences name members ≤ 1) :
    fields? names atLeast (.obj members) = some (names.map (lookup · members)) := by
  rw [fields?, if_pos]
  simpa using h

/-- A text that may be missing is read as it was written, with nothing or with null for none. -/
theorem optionalField_asString?_map (text : Option String) :
    optionalField asString? (text.map .str) = some text := by
  cases text <;> rfl

theorem optionalField_asUInt64?_map (n : Option UInt64) :
    optionalField asUInt64? (n.map fun n => .int n.toNat) = some n := by
  cases n with
  | none => rfl
  | some n => rw [Option.map_some, optionalField, asUInt64?_toNat, Option.map_some]; simp

end Json

namespace Diagnostic

/-- A diagnostic is read as it was written. -/
theorem ofJson?_toJson (loose : Bool) (d : Diagnostic) : ofJson? loose d.toJson = some d := by
  obtain ⟨severity, category, message, font, other⟩ := d
  have hfields : (toJson ⟨severity, category, message, font, other⟩).fields? fieldNames 3
      = some [some (.str severity.name), some (.str category.name), some (.str message),
        font.map .str, other.map .str] := by
    rw [toJson, Json.fields?_obj]
    · simp [fieldNames, members, lookup, lookup_append, lookup_toList_map]
    · cases font <;> cases other <;> simp [fieldNames, members, occurrences]
  rw [ofJson?, hfields, Option.bind_some, ofFields?]
  simp [Json.name?, Json.asString?, Json.optionalField_asString?_map]

theorem plain_toJson (depth : Nat) (d : Diagnostic) : Json.Plain (depth + 1) d.toJson := by
  refine PlainMembers.obj (.append (.append ?_ ?_) ?_)
  · exact .cons .str (.cons .str (.cons .str plainMembers_nil))
  · exact plainMembers_toList_map (fun _ => .str) _
  · exact plainMembers_toList_map (fun _ => .str) _

end Diagnostic

namespace Response

/-! ## The outcome of a conversion -/

theorem diagnosticsField_map (ds : List Diagnostic) :
    diagnosticsField (some (.arr (ds.map Diagnostic.toJson))) = some ds := by
  rw [diagnosticsField, Json.listField]
  induction ds with
  | nil => rfl
  | cons d ds ih => rw [List.map_cons, List.mapM_cons, Diagnostic.ofJson?_toJson, ih]; rfl

theorem optionalField_errorCode? (code : Option ErrorCode) :
    Json.optionalField errorCode? (some (orNull (code.map fun c => .int c.number)))
      = some code := by
  cases code with
  | none => rfl
  | some c =>
      have hlt : c.number < UInt32.size := Nat.lt_trans c.number_lt (by decide)
      rw [Option.map_some, orNull, Json.optionalField, errorCode?, Json.asNatBelow?_ofNat hlt]
      · simp
      · simp

theorem optionalField_message (message : Option String) :
    Json.optionalField Json.asString? (some (orNull (message.map .str))) = some message := by
  cases message <;> rfl

theorem plain_outcomeMembers (depth : Nat) (code : Option ErrorCode) (message : Option String)
    (ds : List Diagnostic) :
    PlainMembers (depth + 2) (outcomeMembers code message ds) := by
  refine .cons ?_ (.cons ?_ (.cons (.arr fun v hv => ?_) plainMembers_nil))
  · cases code with
    | none => exact .null
    | some c => exact plain_ofNat (Nat.lt_trans c.number_lt (by decide))
  · cases message with
    | none => exact .null
    | some m => exact .str
  · obtain ⟨d, -, rfl⟩ := List.mem_map.mp hv
    exact d.plain_toJson depth

theorem plain_toJson (depth : Nat) (r : Response) : Json.Plain (depth + 3) r.toJson := by
  refine PlainMembers.obj (.cons .str ?_)
  cases r with
  | ready version => exact .cons .str plainMembers_nil
  | error message => exact .cons .str plainMembers_nil
  | result r => exact .cons (plain_toInt _) (.cons .bool (plain_outcomeMembers depth _ _ _))
  | bufferResult r =>
      refine .append (.cons (plain_toInt _) (.cons .bool ?_)) (plain_outcomeMembers depth _ _ _)
      exact plainMembers_toList_map (fun n => plain_ofNat n.toNat_lt) _

/-! ## Answers -/

theorem fields?_result (r : ConversionReply) :
    (Json.obj (("type", .str "result") :: (result r).members)).fields? resultFields 4
      = some [some (.int r.id.toInt), some (.bool r.success),
        some (orNull (r.errorCode.map fun c => .int c.number)),
        some (orNull (r.errorMessage.map .str)),
        some (.arr (r.diagnostics.map Diagnostic.toJson))] := by
  rw [Json.fields?_obj]
  · simp [resultFields, members, outcomeMembers, lookup]
  · simp [resultFields, members, outcomeMembers, occurrences]

theorem fields?_bufferResult (r : BufferReply) :
    (Json.obj (("type", .str "buffer_result") :: (bufferResult r).members)).fields? bufferFields 5
      = some [some (.int r.id.toInt), some (.bool r.success),
        r.dataSize.map (fun n => .int n.toNat),
        some (orNull (r.errorCode.map fun c => .int c.number)),
        some (orNull (r.errorMessage.map .str)),
        some (.arr (r.diagnostics.map Diagnostic.toJson))] := by
  rw [Json.fields?_obj]
  · simp [bufferFields, members, outcomeMembers, lookup, lookup_append, lookup_toList_map]
  · cases h : r.dataSize <;> simp [bufferFields, members, outcomeMembers, occurrences, h]

/-- The record of an answer is read as the answer. -/
theorem ofRecord?_members (r : Response) :
    ofRecord? r.kind (.obj (("type", .str r.kind) :: r.members)) = some r := by
  cases r with
  | ready version => simp [ofRecord?, kind, Json.fields?, members, occurrences, lookup,
      textOfFields?, Json.asString?]
  | error message => simp [ofRecord?, kind, Json.fields?, members, occurrences, lookup,
      textOfFields?, Json.asString?]
  | result r =>
      simp [ofRecord?, kind, fields?_result, resultOfFields?, Json.asInt64?_toInt, Json.asBool?,
        optionalField_errorCode?, optionalField_message, diagnosticsField_map]
  | bufferResult r =>
      simp [ofRecord?, kind, fields?_bufferResult, bufferOfFields?, Json.asInt64?_toInt,
        Json.asBool?, Json.optionalField_asUInt64?_map, optionalField_errorCode?,
        optionalField_message, diagnosticsField_map]

theorem occurrences_type (r : Response) :
    occurrences "type" (("type", .str r.kind) :: r.members) = 1 := by
  cases r with
  | ready version => simp [members, occurrences]
  | error message => simp [members, occurrences]
  | result r => simp [members, outcomeMembers, occurrences]
  | bufferResult r => cases h : r.dataSize <;> simp [members, outcomeMembers, occurrences, h]

theorem lookup_type (r : Response) :
    lookup "type" (("type", .str r.kind) :: r.members) = some (.str r.kind) := by
  cases r with
  | ready version => simp [members, lookup]
  | error message => simp [members, lookup]
  | result r => simp [members, outcomeMembers, lookup]
  | bufferResult r => simp [members, outcomeMembers, lookup, lookup_append, lookup_toList_map]

/-- **An answer is read as it was written.** -/
theorem decode_encode (r : Response) : decode r.encode = .ok r := by
  have hparse : Json.parse? r.encode = some r.toJson := Json.parse?_encode (r.plain_toJson 124)
  have hread : ofJson? r.toJson = some r := by
    -- the type is told once, and its record is read from the other members
    rw [toJson, ofJson?, if_pos r.occurrences_type, r.lookup_type]
    exact r.ofRecord?_members
  rw [decode, hparse, Option.bind_some, hread]

/-! ## How long answers are -/

open Json (memberSize size_obj_cons octets_quote_le)

/-- The octets of diagnostics as an answer lists them. -/
def diagnosticsSize (ds : List Diagnostic) : Nat :=
  (Json.arr (ds.map Diagnostic.toJson)).size

/-- The octets of a message as an answer tells it. -/
def messageSize (message : Option String) : Nat :=
  (orNull (message.map .str)).size

theorem memberSize_int_le (key : String) {n : Int} {k : Nat}
    (h : (Nat.toDigits 10 n.natAbs).length ≤ k) :
    memberSize (key, .int n) ≤ Text.octets (Json.quote key) + k + 3 := by
  have hn := Json.size_int_le h
  simp only [memberSize]
  omega

theorem sum_outcomeMembers_le (code : Option ErrorCode) (message : Option String)
    (ds : List Diagnostic) :
    ((outcomeMembers code message ds).map memberSize).sum
      ≤ messageSize message + diagnosticsSize ds + 50 := by
  have hcode : memberSize ("error_code", orNull (code.map fun c => .int c.number)) ≤ 18 := by
    have hkey : Text.octets (Json.quote "error_code") = 12 := by decide
    cases code with
    | none => decide
    | some c =>
        have hc : (Nat.toDigits 10 (c.number : Int).natAbs).length ≤ 2 := by
          have hlt := c.number_lt
          exact (Nat.length_toDigits_le_iff (by decide) (by decide)).mpr (by omega)
        have hmember := memberSize_int_le "error_code" hc
        simp only [Option.map_some, orNull]
        omega
  have hmessage : memberSize ("error_message", orNull (message.map .str))
      = messageSize message + 17 := by
    have hkey : Text.octets (Json.quote "error_message") = 15 := by decide
    simp only [memberSize, messageSize, hkey]
    omega
  have hdiagnostics : memberSize ("diagnostics", .arr (ds.map Diagnostic.toJson))
      = diagnosticsSize ds + 15 := by
    have hkey : Text.octets (Json.quote "diagnostics") = 13 := by decide
    simp only [memberSize, diagnosticsSize, hkey]
    omega
  simp only [outcomeMembers, List.map_cons, List.map_nil, List.sum_cons, List.sum_nil]
  omega

theorem memberSize_id_le (id : Int64) : memberSize ("id", .int id.toInt) ≤ 26 := by
  have hkey : Text.octets (Json.quote "id") = 4 := by decide
  have hid : (Nat.toDigits 10 id.toInt.natAbs).length ≤ 19 := by
    have hl := id.le_toInt
    have hu := id.toInt_lt
    exact (Nat.length_toDigits_le_iff (by decide) (by decide)).mpr (by omega)
  have hmember := memberSize_int_le "id" hid
  omega

theorem memberSize_success_le (success : Bool) : memberSize ("success", .bool success) ≤ 16 := by
  cases success <;> decide

/-- An answer takes what its members take. -/
theorem size_encode (r : Response) : r.encode.size
    = memberSize ("type", .str r.kind) + (r.members.map memberSize).sum + 1 := by
  rw [encode, Json.size_encode, toJson, size_obj_cons, List.map_cons, List.sum_cons]

/-- An answer with one text. -/
theorem size_encode_text_le {r : Response} {key text : String}
    (h : r.members = [(key, .str text)]) (hkind : Text.octets (Json.quote r.kind) = 7)
    (hkey : Text.octets (Json.quote key) = 9) : r.encode.size ≤ 6 * text.toList.length + 29 := by
  have htype : Text.octets (Json.quote "type") = 6 := by decide
  have htext := octets_quote_le text
  have hsize := r.size_encode
  rw [h, List.map_cons, List.map_nil, List.sum_cons, List.sum_nil] at hsize
  simp only [memberSize, htype, hkey, Json.size, Json.text, hkind] at hsize
  omega

theorem size_encode_ready_le (version : String) :
    (ready version).encode.size ≤ 6 * version.toList.length + 29 :=
  size_encode_text_le rfl (by show Text.octets (Json.quote "ready") = 7; decide)
    (by decide)

theorem size_encode_error_le (message : String) :
    (error message).encode.size ≤ 6 * message.toList.length + 29 :=
  size_encode_text_le rfl (by show Text.octets (Json.quote "error") = 7; decide)
    (by decide)

/-- **The answer to a file** is as long as its message and its diagnostics, and little more. -/
theorem size_encode_result_le (r : ConversionReply) : (result r).encode.size
    ≤ messageSize r.errorMessage + diagnosticsSize r.diagnostics + 109 := by
  have h := (result r).size_encode
  have htype : memberSize ("type", .str (result r).kind) = 16 := by
    show memberSize ("type", .str "result") = 16
    decide
  have hid := memberSize_id_le r.id
  have hsuccess := memberSize_success_le r.success
  have houtcome := sum_outcomeMembers_le r.errorCode r.errorMessage r.diagnostics
  simp only [members, List.map_cons, List.sum_cons] at h
  omega

/-- **The answer to a document** is as long as its message and its diagnostics, and little more. -/
theorem size_encode_bufferResult_le (r : BufferReply) : (bufferResult r).encode.size
    ≤ messageSize r.errorMessage + diagnosticsSize r.diagnostics + 150 := by
  have h := (bufferResult r).size_encode
  have htype : memberSize ("type", .str (bufferResult r).kind) = 23 := by
    show memberSize ("type", .str "buffer_result") = 23
    decide
  have hid := memberSize_id_le r.id
  have hsuccess := memberSize_success_le r.success
  have houtcome := sum_outcomeMembers_le r.errorCode r.errorMessage r.diagnostics
  have hsize : ((r.dataSize.map fun n => ("data_size", Json.int n.toNat)).toList.map
      memberSize).sum ≤ 34 := by
    have hkey : Text.octets (Json.quote "data_size") = 11 := by decide
    cases r.dataSize with
    | none => exact Nat.zero_le _
    | some n =>
        have hn : (Nat.toDigits 10 (n.toNat : Int).natAbs).length ≤ 20 := by
          have hlt := n.toNat_lt
          exact (Nat.length_toDigits_le_iff (by decide) (by decide)).mpr (by omega)
        have hmember := memberSize_int_le "data_size" hn
        simp only [Option.map_some, Option.toList_some, List.map_cons, List.map_nil, List.sum_cons,
          List.sum_nil]
        omega
  simp only [members, List.map_cons, List.cons_append, List.map_append, List.sum_cons,
    List.sum_append] at h
  omega

theorem messageSize_le (message : Option String) :
    messageSize message ≤ 6 * Diagnostic.lengthOf message + 4 := by
  cases message with
  | none => decide
  | some m =>
      have h := octets_quote_le m
      show Text.octets (Json.quote m) ≤ 6 * m.toList.length + 4
      omega

end Response

end PdfWorker
