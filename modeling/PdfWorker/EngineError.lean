import PdfWorker.Fault
set_option autoImplicit false

/-! # Failures of a conversion

`ErrorCode` is the number that a reply carries when a conversion fails, `EngineError` the number
with its message. A number outside the list counts as `unknown`. -/

namespace PdfWorker

/-- What went wrong with a conversion, as replies name it. -/
inductive ErrorCode where
  | ok
  | initFailed
  | loadFailed
  | exportFailed
  | invalidFormat
  | fileNotFound
  | outOfMemory
  | permissionDenied
  | alreadyInitialized
  | notInitialized
  | invalidArgument
  | unknown
deriving DecidableEq, Repr

namespace ErrorCode

/-- The number that stands for a code. -/
def number : ErrorCode → Nat
  | ok => 0
  | initFailed => 1
  | loadFailed => 2
  | exportFailed => 3
  | invalidFormat => 4
  | fileNotFound => 5
  | outOfMemory => 6
  | permissionDenied => 7
  | alreadyInitialized => 8
  | notInitialized => 9
  | invalidArgument => 10
  | unknown => 99

/-- The code that a number stands for. -/
def ofNumber : Nat → ErrorCode
  | 0 => ok
  | 1 => initFailed
  | 2 => loadFailed
  | 3 => exportFailed
  | 4 => invalidFormat
  | 5 => fileNotFound
  | 6 => outOfMemory
  | 7 => permissionDenied
  | 8 => alreadyInitialized
  | 9 => notInitialized
  | 10 => invalidArgument
  | _ => unknown

@[simp] theorem ofNumber_number (c : ErrorCode) : ofNumber c.number = c := by
  cases c <;> rfl

theorem number_lt (c : ErrorCode) : c.number < 100 := by
  cases c <;> decide

/-- The name of a code. -/
def name : ErrorCode → String
  | ok => "ok"
  | initFailed => "init_failed"
  | loadFailed => "load_failed"
  | exportFailed => "export_failed"
  | invalidFormat => "invalid_format"
  | fileNotFound => "file_not_found"
  | outOfMemory => "out_of_memory"
  | permissionDenied => "permission_denied"
  | alreadyInitialized => "already_initialized"
  | notInitialized => "not_initialized"
  | invalidArgument => "invalid_argument"
  | unknown => "unknown"

/-- The name with the number after it. -/
def display (c : ErrorCode) : String :=
  c.name ++ " (" ++ toString c.number ++ ")"

/-- The code for a fault on a temporary file. -/
def ofFault (k : FaultKind) : ErrorCode :=
  if k = .outOfMemory then outOfMemory else permissionDenied

end ErrorCode

/-- A failed conversion, or an engine that did not start. -/
structure EngineError where
  code : ErrorCode
  message : String
deriving DecidableEq, Repr

namespace EngineError

def initFailed (message : String) : EngineError := ⟨.initFailed, message⟩

def loadFailed (message : String) : EngineError := ⟨.loadFailed, message⟩

def exportFailed (message : String) : EngineError := ⟨.exportFailed, message⟩

def invalidArgument (message : String) : EngineError := ⟨.invalidArgument, message⟩

/-- A request that comes before the engine has started or after it was released. -/
def notInitialized : EngineError := ⟨.notInitialized, "Worker not initialized"⟩

/-- A fault on a temporary file, met while doing what `context` tells. -/
def resource (context : String) (fault : Fault) : EngineError :=
  ⟨.ofFault fault.kind, context ++ ": " ++ fault.message⟩

end EngineError

end PdfWorker
