import PackageTrial.Path
import PackageTrial.Settings

/-!
# Build layout

Where a build puts its files: below `build` in the output root, in one folder for the listed
settings, in one directory per build type. A single-configuration build tree belongs to one build
type; a multi-configuration tree holds a directory for each. `Layout.compute` only computes: it
never looks at the disk.
-/

namespace PackageTrial

/-- Why there is no layout or no binary path. -/
inductive LayoutError
  /-- The variable is no setting that a folder may be named for. -/
  | unknownVariable (name : String)
  /-- The variable's value is no plain directory name. -/
  | unsafeFolderValue (name value : String)
  /-- The binary's name is no plain file name. -/
  | invalidBinaryName (name : String)
  deriving DecidableEq

/-- The message for people. -/
def LayoutError.message : LayoutError → String
  | .unknownVariable name => s!"unsupported build folder variable '{name}'"
  | .unsafeFolderValue name value => s!"build folder variable '{name}' has unsafe value '{value}'"
  | .invalidBinaryName name => s!"binary name '{name}' must be a plain file name"

/-- What shapes a layout. -/
structure LayoutOptions where
  /-- The directory of the consumer project. -/
  sourceDir : Path
  /-- The directory that holds the build tree. -/
  outputRoot : Path
  /-- One build tree serves every build type. -/
  multiConfig : Bool
  /-- The settings that name the build folder. -/
  buildFolderVars : List String
  deriving DecidableEq, Inhabited

/-- The directories of one build. -/
structure Layout where
  sourceDir : Path
  buildDir : Path
  /-- Where generated files go. -/
  generatorsDir : Path
  /-- Where binaries are put; the test binary is in the first. -/
  binDirs : List Path
  deriving DecidableEq, Inhabited

namespace Layout

/-- The directory below the output root. -/
def buildDirName : String := "build"

/-- The directory for generated files, below the build directory. -/
def generatorsDirName : String := "generators"

/-- The text stays one step below its parent directory: no separator of any system, no `.`, no
`..`. -/
def isPlain (s : String) : Bool :=
  !s.toList.any (fun c => c == '/' || c == '\\') && s != "." && s != ".."

/-- Accepts the name of a binary: a plain name that is not blank. -/
def checkBinaryName (name : String) : Except LayoutError Unit :=
  if Text.isBlankText name || !isPlain name then .error (.invalidBinaryName name) else .ok ()

/-- The parts that the variables contribute to the folder's name, in lower case; an empty value
contributes none. -/
def folderParts (settings : Settings) : List String → Except LayoutError (List String)
  | [] => .ok []
  | name :: rest =>
    match settings.lookup? name with
    | none => .error (.unknownVariable name)
    | some value =>
      if value = "" then folderParts settings rest
      else if isPlain value then (Text.lower value :: ·) <$> folderParts settings rest
      else .error (.unsafeFolderValue name value)

/-- The folder's name: its parts joined by dashes; none without parts. -/
def folderName (settings : Settings) (names : List String) :
    Except LayoutError (Option String) := do
  match ← folderParts settings names with
  | [] => return none
  | parts => return some ("-".intercalate parts)

/-- The layout of a build. -/
def compute (options : LayoutOptions) (settings : Settings) : Except LayoutError Layout := do
  let base := options.outputRoot.child buildDirName
  let buildRoot := match ← folderName settings options.buildFolderVars with
    | some folder => base.child folder
    | none => base
  let typed := buildRoot.child settings.buildType.name
  let buildDir := if options.multiConfig then buildRoot else typed
  return ⟨options.sourceDir, buildDir, buildDir.child generatorsDirName, [typed]⟩

/-- The directory of the test binary. -/
def primaryBinDir (l : Layout) : Path :=
  l.binDirs.headD l.buildDir

/-- Where the binary of a name is expected. -/
def binaryPath (l : Layout) (name : String) (settings : Settings) : Except LayoutError Path := do
  checkBinaryName name
  return l.primaryBinDir.child (name ++ settings.os.executableSuffix)

end Layout

end PackageTrial
