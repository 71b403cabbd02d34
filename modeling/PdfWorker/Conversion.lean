import PdfWorker.Staging
import PdfWorker.World
set_option autoImplicit false

/-! # Conversions

`convertFile` converts one file into another: the input has to be there, the engine loads it, the
engine exports it; the first failure ends it. `convertDocument` does the same for a document that
was sent along, by way of two staged files, which are removed whatever happens. -/

namespace PdfWorker.Conversion

variable {ε δ κ : Type}

/-- Converts one file into another. -/
def convertFile (host : Host ε δ κ) (input output : String) (format : Format)
    (options : Options) (world : World ε κ) : Except EngineError Unit × World ε κ :=
  if world.files.holds input then
    match world.load host input options.password with
    | (.error e, world) => (.error e, world)
    | (.ok document, world) => world.exportPdf host document output format options
  else (.error ⟨.fileNotFound, "Input file not found: " ++ input⟩, world)

/-- Removes a staged file. -/
def discard (path : String) (world : World ε κ) : World ε κ :=
  { world with files := world.files.remove path }

/-- Converts a staged input to a staged output and reads the PDF. -/
def convertStaged (host : Host ε δ κ) (input output : String) (format : Format)
    (options : Options) (world : World ε κ) : Except EngineError ByteArray × World ε κ :=
  match convertFile host input output format options world with
  | (.error e, world) => (.error e, world)
  | (.ok (), world) => (Staging.readOutput world.files output, world)

/-- Reserves an output for a staged input, converts, and removes the output. -/
def convertToReserved (host : Host ε δ κ) (input : String) (format : Format) (options : Options)
    (world : World ε κ) : Except EngineError ByteArray × World ε κ :=
  match Staging.reserveOutput world.files host.settings.stagingDirectory with
  | .error e => (.error e, world)
  | .ok (output, files) =>
    let (result, world) := convertStaged host input output format options { world with files }
    (result, discard output world)

/-- Stages a document, converts it, and removes what was staged. -/
def convertAs (host : Host ε δ κ) (document : ByteArray) (extension : String) (format : Format)
    (options : Options) (world : World ε κ) : Except EngineError ByteArray × World ε κ :=
  match Staging.stageInput world.files host.settings.stagingDirectory document extension with
  | .error failure => (.error failure, { world with files := failure.files })
  | .ok (input, files) =>
    let (result, world) := convertToReserved host input format options { world with files }
    (result, discard input world)

/-- Converts a document that was sent along. Its format has to be known, since it names the staged
file. -/
def convertDocument (host : Host ε δ κ) (document : ByteArray) (format : Format)
    (options : Options) (world : World ε κ) : Except EngineError ByteArray × World ε κ :=
  if document.size = 0 then (.error (.invalidArgument "Document data is empty"), world)
  else match format.extension? with
    | none =>
      (.error ⟨.invalidFormat, "Buffer conversion requires an explicit document format"⟩, world)
    | some extension => convertAs host document extension format options world

end PdfWorker.Conversion
