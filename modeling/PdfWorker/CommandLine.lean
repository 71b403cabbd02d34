import PdfWorker.Capture.ErrorStream
import PdfWorker.Worker
set_option autoImplicit false

/-! # The command line

`CommandLine.parse` reads the arguments of a worker from left to right; the first that is wrong,
or that asks for help or the version, decides. `CommandLine.execute` gives what the program writes
and its exit code for given arguments and input: a worker without an engine. -/

namespace PdfWorker

/-- How log lines are written. -/
inductive LogFormat where
  | compact
  | json
deriving DecidableEq, Repr

/-- The arguments of a worker. What is unset has its default. -/
structure Arguments where
  debug : Bool := false
  logFormat : Option LogFormat := none
  maxFrame : Option Nat := none
  stagingDirectory : Option String := none
deriving DecidableEq, Repr

/-- What the command line asks for. -/
inductive CommandLine where
  | serve (arguments : Arguments)
  | help
  | version
  /-- The arguments make no sense. -/
  | refused
deriving DecidableEq, Repr

namespace CommandLine

/-! ## Texts -/

/-- The answer to a request for the version. -/
def versionText : String := "slimlo-worker 0.3.0\n"

/-- The answer to a request for help. -/
def helpText : String :=
  "Out-of-process SlimLO PDF conversion worker\n\n" ++
  "Usage: slimlo-worker [OPTIONS]\n\n" ++
  "Options:\n" ++
  "  -d, --debug\n" ++
  "          Enable debug logging (overridden by SLIMLO_LOG)\n" ++
  "      --log-format <LOG_FORMAT>\n" ++
  "          Log line format on stderr [default: compact] [possible values: compact, json]\n" ++
  "      --max-frame-size <MAX_FRAME_SIZE>\n" ++
  "          Largest frame accepted on stdin, in bytes (capped at 256 MiB) " ++
  "[default: 268435456]\n" ++
  "      --spool-dir <SPOOL_DIR>\n" ++
  "          Directory for temporary files used by buffer conversions\n" ++
  "  -h, --help\n" ++
  "          Print help\n" ++
  "  -V, --version\n" ++
  "          Print version\n"

/-! ## Values -/

/-- A number in decimal digits, perhaps after a plus sign, that fits 64 bits. -/
def size? (text : String) : Option Nat :=
  let digits := match text.toList with
    | '+' :: rest => rest
    | all => all
  if digits.isEmpty ∨ digits.any (!·.isDigit) then none
  else
    let n := digits.foldl (fun n c => n * 10 + (c.toNat - '0'.toNat)) 0
    if n < UInt64.size then some n else none

/-- The name of a log format. -/
def logFormat? (text : String) : Option LogFormat :=
  if text = "compact" then some .compact else if text = "json" then some .json else none

/-- Whether an argument can be the value of the one before it. -/
def isValue (argument : String) : Bool :=
  argument.toList.head? ≠ some '-' || argument = "-"

/-! ## Options -/

/-- The options that take no value. -/
inductive Switch where
  | debug
  | help
  | version
deriving DecidableEq

/-- The options that take a value. -/
inductive Setting where
  | logFormat
  | maxFrame
  | stagingDirectory
deriving DecidableEq

/-- The switch with a long name. -/
def switch? (name : String) : Option Switch :=
  if name = "debug" then some .debug
  else if name = "help" then some .help
  else if name = "version" then some .version
  else none

/-- The switch with a letter. -/
def letter? (c : Char) : Option Switch :=
  if c = 'd' then some .debug
  else if c = 'h' then some .help
  else if c = 'V' then some .version
  else none

/-- The option with a long name that takes a value. -/
def setting? (name : String) : Option Setting :=
  if name = "log-format" then some .logFormat
  else if name = "max-frame-size" then some .maxFrame
  else if name = "spool-dir" then some .stagingDirectory
  else none

/-- Gives an option a value; none if it has one already, or if the value is wrong. -/
def set? (arguments : Arguments) (setting : Setting) (value : String) : Option Arguments :=
  match setting with
  | .logFormat =>
    if arguments.logFormat.isSome then none
    else (logFormat? value).map fun f => { arguments with logFormat := some f }
  | .maxFrame =>
    if arguments.maxFrame.isSome then none
    else (size? value).map fun n => { arguments with maxFrame := some n }
  | .stagingDirectory =>
    if arguments.stagingDirectory.isSome ∨ value = "" then none
    else some { arguments with stagingDirectory := some value }

/-! ## Arguments -/

/-- Applies a switch: the arguments with it, or what the command line asks for then. -/
def apply (arguments : Arguments) : Switch → Except CommandLine Arguments
  | .debug => if arguments.debug then .error .refused else .ok { arguments with debug := true }
  | .help => .error .help
  | .version => .error .version

/-- Applies the letters after a single dash. -/
def applyLetters (arguments : Arguments) : List Char → Except CommandLine Arguments
  | [] => .ok arguments
  | c :: cs =>
    match letter? c with
    | none => .error .refused
    | some switch =>
      match apply arguments switch with
      | .ok arguments => applyLetters arguments cs
      | .error asked => .error asked

/-- The shape of an argument. -/
inductive Shape where
  /-- Two dashes: no options follow. -/
  | endOfOptions
  /-- Two dashes, a name, and perhaps an equals sign and a value. -/
  | long (name : String) (value : Option String)
  /-- A dash and letters. -/
  | letters (cs : List Char)
  | plain

/-- The shape of an argument. -/
def shape (argument : String) : Shape :=
  match argument.toList with
  | ['-', '-'] => .endOfOptions
  | '-' :: '-' :: rest =>
    match Text.find? ['='] rest with
    | some (name, value) => .long (String.ofList name) (some (String.ofList value))
    | none => .long (String.ofList rest) none
  | '-' :: c :: cs => .letters (c :: cs)
  | _ => .plain

/-- Reads the rest of the arguments. -/
def parseFrom (arguments : Arguments) : List String → CommandLine
  | [] => .serve arguments
  | argument :: rest =>
    match shape argument with
    | .endOfOptions => if rest.isEmpty then .serve arguments else .refused
    | .plain => .refused
    | .letters cs =>
      match applyLetters arguments cs with
      | .ok arguments => parseFrom arguments rest
      | .error asked => asked
    | .long name value =>
      match switch? name, setting? name, value with
      | some switch, _, none =>
        match apply arguments switch with
        | .ok arguments => parseFrom arguments rest
        | .error asked => asked
      | none, some setting, some value =>
        match set? arguments setting value with
        | some arguments => parseFrom arguments rest
        | none => .refused
      | none, some setting, none =>
        match rest with
        | [] => .refused
        | value :: rest =>
          if isValue value then
            match set? arguments setting value with
            | some arguments => parseFrom arguments rest
            | none => .refused
          else .refused
      | _, _, _ => .refused

/-- Reads the arguments. -/
def parse (arguments : List String) : CommandLine := parseFrom {} arguments

/-! ## Running -/

/-- The settings that arguments give. -/
def settings (arguments : Arguments) : Settings :=
  let chosen := ({} : Settings).withMaxFrame (arguments.maxFrame.getD Limits.frame)
  match arguments.stagingDirectory with
  | some dir => chosen.withStagingDirectory dir
  | none => chosen

/-- What a worker without an engine finds in place. -/
def host (platform : Platform) (arguments : Arguments) : Host Unit Empty StderrCapture where
  platform
  settings := settings arguments
  engine := .missing
  capture := .stderr

/-- A worker without an engine that has just started. -/
def session (platform : Platform) (files : FileTree) (environment : Environment)
    (arguments : Arguments) : Session Unit StderrCapture where
  phase := .uninitialized
  world := {
    files
    environment := (platform.applyDefaults environment).2
    engine := ()
    capture := { limit := (settings arguments).captureLimit } }
  sink := {}

/-- The exit code when the arguments make no sense. -/
def refusedStatus : Nat := 2

/-- The exit code and the output for given arguments and input. -/
def execute (platform : Platform) (files : FileTree) (environment : Environment)
    (arguments : List String) (input : Source) : Nat × ByteArray :=
  match parse arguments with
  | .refused => (refusedStatus, .empty)
  | .help => (0, helpText.toUTF8)
  | .version => (0, versionText.toUTF8)
  | .serve arguments =>
    let (reason, served, _) := Worker.run (host platform arguments)
      (session platform files environment arguments) input
    (reason.exitCode, served.sink.accepted)

end CommandLine

end PdfWorker
