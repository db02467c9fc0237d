import PackageTrial.Platform
import PackageTrial.Text.Cut

/-!
# Build settings

The settings of one build: platform, compiler and build type. They start from the host's defaults
and change by assignments `key=value`, each of which either changes the settings or is refused as a
whole. Choosing a compiler forgets the version and library of the one before.
-/

namespace PackageTrial

/-! ## Build types and compilers -/

/-- A build configuration. -/
inductive BuildType
  | debug
  | release
  | relWithDebInfo
  | minSizeRel
  deriving DecidableEq, Inhabited

namespace BuildType

/-- Reads a build type in any ASCII case, with blanks around it. -/
def parse? (value : String) : Option BuildType :=
  let name := Text.lower (Text.trim value)
  if name = "debug" then some .debug
  else if name = "release" then some .release
  else if name = "relwithdebinfo" then some .relWithDebInfo
  else if name = "minsizerel" then some .minSizeRel
  else none

/-- The canonical spelling. -/
def name : BuildType → String
  | .debug => "Debug"
  | .release => "Release"
  | .relWithDebInfo => "RelWithDebInfo"
  | .minSizeRel => "MinSizeRel"

end BuildType

/-- A compiler, with its version and C++ library when they matter. -/
structure Compiler where
  name : String
  version : Option String
  libcxx : Option String
  deriving DecidableEq, Inhabited

namespace Compiler

/-- The compiler of a name. -/
def named (name : String) : Compiler := ⟨name, none, none⟩

/-- The name, followed by the version when there is one. -/
def text (c : Compiler) : String :=
  match c.version with
  | some version => c.name ++ "-" ++ version
  | none => c.name

end Compiler

/-! ## Assignments -/

/-- Why an assignment is refused. -/
inductive SettingsError
  /-- Not of the form `key=value`. -/
  | malformedAssignment (assignment : String)
  /-- The key names no setting. -/
  | unknownKey (key : String)
  /-- The value is empty or unknown for the key. -/
  | invalidValue (key value : String)
  deriving DecidableEq

/-- The message for people. -/
def SettingsError.message : SettingsError → String
  | .malformedAssignment assignment => s!"setting '{assignment}' must have the form key=value"
  | .unknownKey key => s!"unknown setting '{key}'"
  | .invalidValue key value => s!"invalid value '{value}' for setting '{key}'"

/-- The key before the first `=` and the value after it, both trimmed and neither empty. -/
def splitAssignment (assignment : String) : Except SettingsError (String × String) :=
  match Text.cut '=' assignment with
  | none => .error (.malformedAssignment assignment)
  | some (before, after) =>
    let key := Text.trim before
    let value := Text.trim after
    if key = "" then .error (.malformedAssignment assignment)
    else if value = "" then .error (.invalidValue key value)
    else .ok (key, value)

/-- The assignment of a value to a key, as it is written. -/
def assignmentText (key value : String) : String := key ++ "=" ++ value

/-- Overrides the host's `os` or `arch`. -/
def Host.assign (host : Host) (assignment : String) : Except SettingsError Host := do
  let (key, value) ← splitAssignment assignment
  if key = "os" then return { host with os := Os.parse value }
  else if key = "arch" then return { host with arch := Arch.parse value }
  else throw (.unknownKey key)

/-- Overrides the host by every assignment in turn. -/
def Host.assignAll (host : Host) (assignments : List String) : Except SettingsError Host :=
  assignments.foldlM Host.assign host

/-! ## Settings -/

/-- The settings of one build. -/
structure Settings where
  os : Os
  arch : Arch
  compiler : Compiler
  buildType : BuildType
  deriving DecidableEq, Inhabited

namespace Settings

/-- The settings of a build for the host itself, with its usual compiler. -/
def native (host : Host) : Settings :=
  let compiler := match host.os with
    | .windows => "msvc"
    | .macos => "apple-clang"
    | _ => "gcc"
  ⟨host.os, host.arch, Compiler.named compiler, .release⟩

/-- Applies one assignment. -/
def assign (s : Settings) (assignment : String) : Except SettingsError Settings := do
  let (key, value) ← splitAssignment assignment
  if key = "os" then return { s with os := Os.parse value }
  else if key = "arch" then return { s with arch := Arch.parse value }
  else if key = "compiler" then return { s with compiler := Compiler.named value }
  else if key = "compiler.version" then
    return { s with compiler := { s.compiler with version := some value } }
  else if key = "compiler.libcxx" then
    return { s with compiler := { s.compiler with libcxx := some value } }
  else if key = "build_type" then
    match BuildType.parse? value with
    | some buildType => return { s with buildType }
    | none => throw (.invalidValue key value)
  else throw (.unknownKey key)

/-- Applies assignments up to the first that is refused: the settings reached, and the refusal. -/
def assignUpTo (s : Settings) : List String → Settings × Option SettingsError
  | [] => (s, none)
  | assignment :: rest =>
    match s.assign assignment with
    | .ok s' => s'.assignUpTo rest
    | .error e => (s, some e)

/-- Applies every assignment, or fails as the first that is refused. -/
def assignAll (s : Settings) (assignments : List String) : Except SettingsError Settings :=
  match s.assignUpTo assignments with
  | (reached, none) => .ok reached
  | (_, some e) => .error e

/-! ## Variables of the build folder -/

/-- A setting that may become part of a folder name. -/
inductive Variable
  | os
  | arch
  | compiler
  | compilerVersion
  | buildType
  deriving DecidableEq

/-- Every variable, in the order in which they are listed for people. -/
def Variable.all : List Variable := [.os, .arch, .compiler, .compilerVersion, .buildType]

/-- The variable's name. -/
def Variable.name : Variable → String
  | .os => "settings.os"
  | .arch => "settings.arch"
  | .compiler => "settings.compiler"
  | .compilerVersion => "settings.compiler.version"
  | .buildType => "settings.build_type"

/-- The variable of a name. -/
def Variable.ofName? (name : String) : Option Variable :=
  Variable.all.find? (·.name = name)

/-- The value of a variable; an absent compiler version is the empty text. -/
def value (s : Settings) : Variable → String
  | .os => s.os.name
  | .arch => s.arch.name
  | .compiler => s.compiler.name
  | .compilerVersion => s.compiler.version.getD ""
  | .buildType => s.buildType.name

/-- The value of the variable of a name. -/
def lookup? (s : Settings) (name : String) : Option String :=
  (Variable.ofName? name).map s.value

end Settings

end PackageTrial
