import PdfWorker.LinkError
import PdfWorker.Platform
import PdfWorker.Request
set_option autoImplicit false

/-! # Finding and starting a worker

`Launch.locate` finds the executable of a worker: the one that the environment names, else one
beside the running program, else one in the engine's directory. `Launch.prepare` says whether a
worker can be started and with which environment: the loader looks beside the executable and in
the engine's directory before it looks elsewhere. -/

namespace PdfWorker

/-- How a supervisor starts a worker. -/
structure Launch where
  executable : String
  resourcePath : String
  fontPaths : List String := []
  platform : Platform

namespace Launch

/-- The variable that names the executable. -/
def executableVariable : String := "SLIMLO_WORKER_PATH"

/-- The places of an executable that is not named, given the directory of the running program. -/
def candidates (platform : Platform) (files : FileTree) (programDirectory : Option String)
    (resourcePath : Option String) : List String :=
  let name := platform.executableName
  (programDirectory.map fun dir => Path.join dir name).toList ++
  (resourcePath.map fun dir => Path.join (platform.programDirectory files dir) name).toList

/-- Finds the executable of a worker. -/
def locate (platform : Platform) (files : FileTree) (environment : Environment)
    (programDirectory : Option String) (resourcePath : Option String) :
    Except LinkError String :=
  match (environment.get? executableVariable).filter (· ≠ "") with
  | some path => if files.isFile path then .ok path else .error (.executableNotFound path)
  | none =>
    let places := candidates platform files programDirectory resourcePath
    match places.find? files.isFile with
    | some path => .ok path
    | none => .error (.executableNotFound (places.headD platform.executableName))

/-- The directories that a worker's loader looks in first. -/
def libraryDirectories (launch : Launch) (files : FileTree) : List String :=
  (Path.parent? launch.executable).toList ++
  [launch.platform.programDirectory files launch.resourcePath]

/-- The environment of a worker. -/
def environment (launch : Launch) (files : FileTree) (env : Environment) : Environment :=
  match launch.platform.libraryVariable? with
  | none => env
  | some name =>
    match Platform.librarySearchPath (launch.libraryDirectories files) (env.get? name) with
    | some value => env.set name value
    | none => env

/-- Whether the system finds an executable by its path. A bare name is looked for elsewhere. -/
def isPath (executable : String) : Bool := executable.contains '/'

/-- Why the system does not run the file that is given as executable, if it does not. -/
def refusal? (launch : Launch) (files : FileTree) : Option Fault :=
  if !isPath launch.executable then some .notFound
  else if !files.isProgram launch.executable then some .permissionDenied
  else none

/-- The environment in which a worker can be started, or why it cannot. -/
def prepare (launch : Launch) (files : FileTree) (env : Environment) :
    Except LinkError Environment :=
  if !files.isFile launch.executable then .error (.executableNotFound launch.executable)
  else match launch.refusal? files with
    | some fault =>
      .error (.io { fault with message := "spawn " ++ launch.executable ++ ": " ++ fault.message })
    | none => .ok (launch.environment files env)

/-- The request to start the engine of a worker. -/
def request (launch : Launch) : Request :=
  .init { resourcePath := some launch.resourcePath, fontPaths := launch.fontPaths }

end Launch

end PdfWorker
