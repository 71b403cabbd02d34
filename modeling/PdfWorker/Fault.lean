set_option autoImplicit false

/-! # Faults

A fault is what a read, a write or a call on the file tree reports instead of an answer. Its kind
decides what is done about it (`interrupted` alone is tried again), its message is only shown. -/

namespace PdfWorker

/-- The kind of a fault. -/
inductive FaultKind where
  /-- The call was broken off before it did anything, and may be made again. -/
  | interrupted
  | wouldBlock
  | brokenPipe
  | connectionReset
  | unexpectedEnd
  | outOfMemory
  | permissionDenied
  | notFound
  | alreadyExists
  | notADirectory
  | isADirectory
  | invalidName
  | storageFull
  | timedOut
  /-- A write took nothing. -/
  | nothingWritten
  | other
deriving DecidableEq, Repr

/-- A failed call. -/
structure Fault where
  kind : FaultKind
  message : String
deriving DecidableEq, Repr

namespace Fault

/-- A write that took nothing. -/
def nothingWritten : Fault := ⟨.nothingWritten, "failed to write whole buffer"⟩

/-! ## What the system reports about paths -/

def notFound : Fault := ⟨.notFound, "No such file or directory (os error 2)"⟩

def permissionDenied : Fault := ⟨.permissionDenied, "Permission denied (os error 13)"⟩

def alreadyExists : Fault := ⟨.alreadyExists, "File exists (os error 17)"⟩

def notADirectory : Fault := ⟨.notADirectory, "Not a directory (os error 20)"⟩

def isADirectory : Fault := ⟨.isADirectory, "Is a directory (os error 21)"⟩

def storageFull : Fault := ⟨.storageFull, "No space left on device (os error 28)"⟩

def outOfMemory : Fault := ⟨.outOfMemory, "Cannot allocate memory (os error 12)"⟩

def inputOutput : Fault := ⟨.other, "Input/output error (os error 5)"⟩

def nameTooLong : Fault := ⟨.invalidName, "File name too long (os error 36)"⟩

/-- A path with a NUL character never reaches the system. -/
def nulInName : Fault := ⟨.invalidName, "file name contained an unexpected NUL byte"⟩

end Fault

end PdfWorker
