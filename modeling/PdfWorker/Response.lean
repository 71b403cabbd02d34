import PdfWorker.Diagnostic
import PdfWorker.EngineError
import PdfWorker.Json.Parser
import PdfWorker.Json.Printer
import PdfWorker.LinkError
set_option autoImplicit false

/-! # Responses

What a worker answers: that its engine is ready, that a message made no sense or the engine did
not start, or how a conversion ended. After the answer to a document that was sent along and
converted, the PDF follows in a frame of its own.

`Response.encode` writes an answer, `Response.decode` reads it. Reading is strict: fields have to
have their types, must not be given twice, and only optional ones may be missing. -/

namespace PdfWorker

/-- How the conversion of a file ended. -/
structure ConversionReply where
  id : Int64
  success : Bool
  errorCode : Option ErrorCode := none
  errorMessage : Option String := none
  diagnostics : List Diagnostic := []
deriving DecidableEq, Repr

/-- How the conversion of a document that was sent along ended. -/
structure BufferReply where
  id : Int64
  success : Bool
  /-- The octets of the PDF. -/
  dataSize : Option UInt64 := none
  errorCode : Option ErrorCode := none
  errorMessage : Option String := none
  diagnostics : List Diagnostic := []
deriving DecidableEq, Repr

/-- What a worker answers. -/
inductive Response where
  | ready (version : String)
  | error (message : String)
  | result (reply : ConversionReply)
  | bufferResult (reply : BufferReply)
deriving DecidableEq, Repr

namespace ConversionReply

/-- A conversion that succeeded. -/
def ok (id : Int64) (diagnostics : List Diagnostic) : ConversionReply :=
  { id, success := true, diagnostics }

/-- A conversion that failed. -/
def failed (id : Int64) (e : EngineError) (diagnostics : List Diagnostic) : ConversionReply :=
  { id, success := false, errorCode := some e.code, errorMessage := some e.message, diagnostics }

end ConversionReply

namespace BufferReply

/-- A conversion that gave a PDF of `dataSize` octets. -/
def ok (id : Int64) (dataSize : UInt64) (diagnostics : List Diagnostic) : BufferReply :=
  { id, success := true, dataSize := some dataSize, diagnostics }

/-- A conversion that failed. -/
def failed (id : Int64) (e : EngineError) (diagnostics : List Diagnostic) : BufferReply :=
  { id, success := false, errorCode := some e.code, errorMessage := some e.message, diagnostics }

end BufferReply

namespace Response

/-- The name of an answer. -/
def kind : Response → String
  | ready _ => "ready"
  | error _ => "error"
  | result _ => "result"
  | bufferResult _ => "buffer_result"

/-! ## Writing -/

/-- A value, or null. -/
def orNull : Option Json → Json
  | some v => v
  | none => .null

/-- The members that tell how a conversion ended. -/
def outcomeMembers (code : Option ErrorCode) (message : Option String)
    (diagnostics : List Diagnostic) : List (String × Json) :=
  [("error_code", orNull (code.map fun c => .int c.number)),
   ("error_message", orNull (message.map .str)),
   ("diagnostics", .arr (diagnostics.map Diagnostic.toJson))]

/-- The members of an answer after its type. -/
def members : Response → List (String × Json)
  | ready version => [("version", .str version)]
  | error message => [("message", .str message)]
  | result r =>
    ("id", .int r.id.toInt) :: ("success", .bool r.success) ::
    outcomeMembers r.errorCode r.errorMessage r.diagnostics
  | bufferResult r =>
    ("id", .int r.id.toInt) :: ("success", .bool r.success) ::
    (r.dataSize.map fun n => ("data_size", Json.int n.toNat)).toList ++
    outcomeMembers r.errorCode r.errorMessage r.diagnostics

/-- The object that holds an answer. -/
def toJson (r : Response) : Json :=
  .obj (("type", .str r.kind) :: r.members)

/-- The control frame that holds an answer. -/
def encode (r : Response) : ByteArray := r.toJson.encode

/-! ## Reading -/

/-- An error code, given by its number. -/
def errorCode? (v : Json) : Option ErrorCode :=
  (v.asNatBelow? UInt32.size).map ErrorCode.ofNumber

/-- The diagnostics of an answer. -/
def diagnosticsField : Option Json → Option (List Diagnostic) :=
  Json.listField (Diagnostic.ofJson? true)

/-- The fields of the answer to a file, in order. -/
def resultFields : List String :=
  ["id", "success", "error_code", "error_message", "diagnostics"]

/-- The answer to a file with these values of its fields. -/
def resultOfFields? : List (Option Json) → Option Response
  | [id, success, code, message, diagnostics] => do
    let id ← id.bind Json.asInt64?
    let success ← success.bind Json.asBool?
    let errorCode ← Json.optionalField errorCode? code
    let errorMessage ← Json.optionalField Json.asString? message
    let diagnostics ← diagnosticsField diagnostics
    return .result { id, success, errorCode, errorMessage, diagnostics }
  | _ => none

/-- The fields of the answer to a document, in order. -/
def bufferFields : List String :=
  ["id", "success", "data_size", "error_code", "error_message", "diagnostics"]

/-- The answer to a document with these values of its fields. -/
def bufferOfFields? : List (Option Json) → Option Response
  | [id, success, size, code, message, diagnostics] => do
    let id ← id.bind Json.asInt64?
    let success ← success.bind Json.asBool?
    let dataSize ← Json.optionalField Json.asUInt64? size
    let errorCode ← Json.optionalField errorCode? code
    let errorMessage ← Json.optionalField Json.asString? message
    let diagnostics ← diagnosticsField diagnostics
    return .bufferResult { id, success, dataSize, errorCode, errorMessage, diagnostics }
  | _ => none

/-- The answer with one text field. -/
def textOfFields? (build : String → Response) : List (Option Json) → Option Response
  | [text] => (text.bind Json.asString?).map build
  | _ => none

/-- The answer of a kind that a record holds. -/
def ofRecord? (kind : String) (record : Json) : Option Response :=
  if kind = "ready" then (record.fields? ["version"] 1).bind (textOfFields? ready)
  else if kind = "error" then (record.fields? ["message"] 1).bind (textOfFields? error)
  else if kind = "result" then (record.fields? resultFields 4).bind resultOfFields?
  else if kind = "buffer_result" then (record.fields? bufferFields 5).bind bufferOfFields?
  else none

/-- The answer that a value holds: an object with one `type`, or a list that begins with it. -/
def ofJson? : Json → Option Response
  | .obj members =>
    if Json.occurrences "type" members = 1 then
      ((Json.lookup "type" members).bind Json.asString?).bind fun kind =>
        ofRecord? kind (.obj members)
    else none
  | .arr (.str kind :: items) => ofRecord? kind (.arr items)
  | _ => none

/-- The answer that a control frame holds. -/
def decode (payload : ByteArray) : Except LinkError Response :=
  match (Json.parse? payload).bind ofJson? with
  | some r => .ok r
  | none => .error .json

end Response

end PdfWorker
