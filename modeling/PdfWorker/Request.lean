import PdfWorker.Json.Parser
import PdfWorker.Json.Printer
import PdfWorker.LinkError
import PdfWorker.Options
set_option autoImplicit false

/-! # Requests

What a supervisor asks of a worker: to start its engine, to convert a file, to convert a document
that follows in the next frame, or to stop. A request is an object whose `type` names it.

`Request.decode` is lenient: a member that is mistyped counts as absent, and an object without a
known `type` is passed over. Only what is no object at all is an error. `Request.encode` writes a
request that `Request.decode` reads. `Request.describe` is for logs. -/

namespace PdfWorker

/-- The request to start the engine. -/
structure InitRequest where
  /-- Where the engine is installed. -/
  resourcePath : Option String := none
  fontPaths : List String := []
deriving DecidableEq, Repr, Inhabited

/-- The request to convert one file into another. -/
structure FileRequest where
  id : Int64 := 0
  input : Option String := none
  output : Option String := none
  format : Format := .unknown
  options : Options := {}
deriving DecidableEq, Repr, Inhabited

/-- The request to convert the document that the next frame holds. -/
structure BufferRequest where
  id : Int64 := 0
  format : Format := .unknown
  /-- The octets of the document. -/
  dataSize : Option UInt64 := none
  options : Options := {}
deriving DecidableEq, Repr, Inhabited

/-- What a supervisor asks of a worker. -/
inductive Request where
  | init (request : InitRequest)
  | convert (request : FileRequest)
  | convertBuffer (request : BufferRequest)
  | quit
deriving DecidableEq, Repr, Inhabited

namespace Request

/-- What a control frame holds. -/
inductive Decoded where
  | request (request : Request)
  /-- An object without a known type; its type, if it has one. -/
  | ignored (kind : Option String)
deriving DecidableEq, Repr

/-! ## Reading -/

/-- A member that is a text. -/
def textMember (key : String) (members : List (String × Json)) : Option String :=
  (Json.lookup key members).bind Json.asString?

/-- The number of a request; 0 if it has none. -/
def idMember (members : List (String × Json)) : Int64 :=
  ((Json.lookup "id" members).bind Json.asInt64?).getD 0

/-- The texts in a list member. -/
def textsMember (key : String) (members : List (String × Json)) : List String :=
  (((Json.lookup key members).bind Json.asArray?).getD []).filterMap Json.asString?

/-- The options of a request. -/
def optionsMember (members : List (String × Json)) : Options :=
  ((Json.lookup "options" members).map Options.ofJson).getD {}

/-- The request to start the engine that an object holds. -/
def initOfMembers (members : List (String × Json)) : InitRequest where
  resourcePath := textMember "resource_path" members
  fontPaths := textsMember "font_paths" members

/-- The request to convert a file that an object holds. -/
def fileOfMembers (members : List (String × Json)) : FileRequest where
  id := idMember members
  input := textMember "input" members
  output := textMember "output" members
  format := Format.ofJson (Json.lookup "format" members)
  options := optionsMember members

/-- The request to convert a document that an object holds. -/
def bufferOfMembers (members : List (String × Json)) : BufferRequest where
  id := idMember members
  format := Format.ofJson (Json.lookup "format" members)
  dataSize := (Json.lookup "data_size" members).bind Json.asUInt64?
  options := optionsMember members

/-- What an object holds. -/
def ofMembers (members : List (String × Json)) : Decoded :=
  match textMember "type" members with
  | none => .ignored none
  | some kind =>
    if kind = "init" then .request (.init (initOfMembers members))
    else if kind = "convert" then .request (.convert (fileOfMembers members))
    else if kind = "convert_buffer" then .request (.convertBuffer (bufferOfMembers members))
    else if kind = "quit" then .request .quit
    else .ignored (some kind)

/-- What a JSON value holds. -/
def ofJson (v : Json) : Except LinkError Decoded :=
  match v.asObject? with
  | some members => .ok (ofMembers members)
  | none => .error (.protocol "control message is not a JSON object")

/-- What a control frame holds. -/
def decode (payload : ByteArray) : Except LinkError Decoded :=
  match Json.parse? payload with
  | some v => ofJson v
  | none => .error .json

/-! ## Writing -/

/-- The name of a request. -/
def kind : Request → String
  | init _ => "init"
  | convert _ => "convert"
  | convertBuffer _ => "convert_buffer"
  | quit => "quit"

/-- A text member, if there is a text. -/
def textPair (key : String) (text : Option String) : List (String × Json) :=
  (text.map fun t => (key, Json.str t)).toList

/-- The members of a request after its type. -/
def fields : Request → List (String × Json)
  | init r =>
    textPair "resource_path" r.resourcePath ++
    (if r.fontPaths.isEmpty then [] else [("font_paths", .arr (r.fontPaths.map Json.str))])
  | convert r =>
    ("id", .int r.id.toInt) ::
    textPair "input" r.input ++ textPair "output" r.output ++
    [("format", .int r.format.number), ("options", r.options.toJson)]
  | convertBuffer r =>
    ("id", .int r.id.toInt) :: ("format", .int r.format.number) ::
    (r.dataSize.map fun n => ("data_size", Json.int n.toNat)).toList ++
    [("options", r.options.toJson)]
  | quit => []

/-- The object that holds a request. -/
def toJson (r : Request) : Json :=
  .obj (("type", .str r.kind) :: r.fields)

/-- The control frame that holds a request. -/
def encode (r : Request) : ByteArray := r.toJson.encode

/-! ## Telling -/

/-- A list of texts in logs. -/
def describeTexts (texts : List String) : String :=
  "[" ++ ", ".intercalate (texts.map Text.literal) ++ "]"

/-- A request in logs. -/
def describe : Request → String
  | init r =>
    "Init(InitRequest \x7b resource_path: " ++
    Options.describeOption (r.resourcePath.map Text.literal) ++
    ", font_paths: " ++ describeTexts r.fontPaths ++ " \x7d)"
  | convert r =>
    "Convert(ConvertRequest \x7b id: " ++ toString r.id.toInt ++
    ", input: " ++ Options.describeOption (r.input.map Text.literal) ++
    ", output: " ++ Options.describeOption (r.output.map Text.literal) ++
    ", format: " ++ r.format.name ++ ", options: " ++ r.options.describe ++ " \x7d)"
  | convertBuffer r =>
    "ConvertBuffer(ConvertBufferRequest \x7b id: " ++ toString r.id.toInt ++
    ", format: " ++ r.format.name ++
    ", data_size: " ++ Options.describeOption (r.dataSize.map fun n => toString n.toNat) ++
    ", options: " ++ r.options.describe ++ " \x7d)"
  | quit => "Quit"

end Request

end PdfWorker
