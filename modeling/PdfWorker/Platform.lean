import PdfWorker.Environment
import PdfWorker.FileTree
set_option autoImplicit false

/-! # Platforms

What differs from one system to another: the engine's defaults in the environment, the separator
of font paths, where an installed engine has its libraries, and the variable that tells the loader
where to look for them. -/

namespace PdfWorker

/-- A system that a worker runs on. -/
inductive Platform where
  | linux
  | macos
  | windows
  | unknown
deriving DecidableEq, Repr, Inhabited

namespace Platform

/-- The variable that names font directories for the engine. -/
def fontPathVariable : String := "SAL_FONTPATH"

/-- The variable that picks the engine's way of drawing. -/
def drawingVariable : String := "SAL_USE_VCLPLUGIN"

/-- The variable that sets the engine's way of polling. -/
def pollingVariable : String := "SAL_LOK_OPTIONS"

/-- The variable that picks what the engine writes to its error stream. -/
def logVariable : String := "SAL_LOG"

/-- Without font warnings there would be nothing to read diagnostics from. -/
def logFilter : String := "+WARN.vcl.fonts+INFO.vcl+WARN.vcl"

/-- The file name of a worker, without an extension. -/
def workerName : String := "slimlo-worker"

def name : Platform → String
  | linux => "linux"
  | macos => "macos"
  | windows => "windows"
  | unknown => "unknown"

/-! ## Fonts and defaults -/

/-- What separates font paths. -/
def fontSeparator : Platform → Char
  | windows => ';'
  | _ => ':'

/-- The font paths that are not empty, as one text; none if there are none. -/
def joinFontPaths (p : Platform) (paths : List String) : Option String :=
  let given := paths.filter (· ≠ "")
  if given.isEmpty then none
  else some (String.intercalate (String.singleton p.fontSeparator) given)

/-- Points the engine at font directories; without any, the variable stays as it is. None if a path
holds a NUL character, since no variable can take it. -/
def applyFontPaths (p : Platform) (paths : List String) (env : Environment) :
    Option Environment :=
  match p.joinFontPaths paths with
  | some joined => env.set? fontPathVariable joined
  | none => some env

/-- The engine's defaults, as variables and values. -/
def defaults : Platform → List (String × String)
  | macos => [(pollingVariable, "unipoll"), (logVariable, logFilter)]
  | _ => [(drawingVariable, "svp"), (logVariable, logFilter)]

/-- Sets the variables that are not set yet. Gives the names of those that it sets, too. -/
def setMissing : List (String × String) → Environment → List String × Environment
  | [], env => ([], env)
  | (name, value) :: rest, env =>
    match env.get? name with
    | some _ => setMissing rest env
    | none =>
      let (names, env) := setMissing rest (env.set name value)
      (name :: names, env)

/-- Sets the engine's defaults where nothing else is set. -/
def applyDefaults (p : Platform) (env : Environment) : List String × Environment :=
  setMissing p.defaults env

/-! ## Libraries -/

/-- The directory with the engine's libraries. A bundle keeps them under `Frameworks`, any other
installation under `program`. -/
def programDirectory (p : Platform) (files : FileTree) (resourcePath : String) : String :=
  let bundled := Path.join resourcePath "Frameworks"
  if p = macos ∧ files.isDirectory bundled then bundled else Path.join resourcePath "program"

/-- The variable that tells the loader where to look for libraries. -/
def libraryVariable? : Platform → Option String
  | linux | unknown => some "LD_LIBRARY_PATH"
  | macos => some "DYLD_LIBRARY_PATH"
  | windows => none

/-- What separates the directories of a search path. -/
def searchSeparator : Char := ':'

/-- Adds a directory that is not yet listed under any spelling. -/
def addDirectory (found : List String) (dir : String) : List String :=
  if found.any (Path.same dir) then found else found ++ [dir]

/-- The directories of a search path as it is set. An empty one lists none. -/
def searchedDirectories : Option String → List String
  | none => []
  | some value =>
    if value = "" then [] else (Text.split searchSeparator value.toList).map String.ofList

/-- The search path with `dirs`, each listed once, before what is searched already. There is none
if a directory's name holds the separator. -/
def librarySearchPath (dirs : List String) (existing : Option String) : Option String :=
  let all := dirs.foldl addDirectory [] ++ searchedDirectories existing
  if all.any (·.contains searchSeparator) then none
  else some (String.intercalate (String.singleton searchSeparator) all)

/-- The file name of a worker. -/
def executableName : Platform → String
  | windows => workerName ++ ".exe"
  | _ => workerName

end Platform

end PdfWorker
