import PackageTrial.Dictionary
import PackageTrial.Layout
import PackageTrial.Plan
import PackageTrial.Toml.Value
import PackageTrial.Workspace

/-!
# Configurations

What the operator fixes for all trials of a project, section by section. Every section has a
default, so the empty configuration is one. A configuration that was read need not be valid: which
are is said elsewhere, and `ConfigurationFault` lists what may be wrong with one.
-/

namespace PackageTrial

/-! ## Sections -/

/-- The consumer project. -/
structure TestSection where
  /-- The test binary's name, without the suffix of executables. -/
  binary : String
  /-- The directory of the project. -/
  sourceDir : Path
  /-- What the test needs besides the package. -/
  requires : List String
  deriving DecidableEq, Inhabited

/-- Where builds go. -/
structure LayoutSection where
  /-- The directory that holds the build tree, where it is not the project's. -/
  outputDir : Option Path
  multiConfig : Bool
  buildFolderVars : List String
  deriving DecidableEq, Inhabited

/-- The build tool. -/
structure BuildSection where
  /-- The command. -/
  cmake : String
  generator : Option String
  /-- How many jobs may run at a time. -/
  jobs : Option Nat
  deriving DecidableEq, Inhabited

/-- Where packages are found. -/
structure RepositorySection where
  root : Option Path
  deriving DecidableEq, Inhabited

/-- Settings that replace the host's. -/
structure SettingsSection where
  os : Option String
  arch : Option String
  compiler : Option String
  compilerVersion : Option String
  compilerLibcxx : Option String
  buildType : Option String
  deriving DecidableEq, Inhabited

/-- What overrides the verdict on foreign binaries. -/
structure ExecutionSection where
  canRun : Option Bool
  /-- Emulator command lines by architecture, in any spelling. -/
  emulators : Dictionary (List String)
  deriving DecidableEq, Inhabited

/-- A configuration. -/
structure Configuration where
  test : TestSection
  layout : LayoutSection
  build : BuildSection
  repository : RepositorySection
  settings : SettingsSection
  execution : ExecutionSection
  /-- The directory from which the paths of the configuration are seen. -/
  baseDir : Path
  deriving DecidableEq, Inhabited

namespace TestSection

/-- The project of the working directory. -/
def default : TestSection := ⟨Plan.defaultBinary, .ofString ".", [Plan.defaultFramework]⟩

end TestSection

namespace LayoutSection

/-- A single-configuration tree below the project. -/
def default : LayoutSection := ⟨none, false, []⟩

end LayoutSection

namespace BuildSection

/-- The usual command, as it comes. -/
def default : BuildSection := ⟨"cmake", none, none⟩

end BuildSection

namespace RepositorySection

/-- No place is given. -/
def default : RepositorySection := ⟨none⟩

end RepositorySection

namespace SettingsSection

/-- Nothing is replaced. -/
def default : SettingsSection := ⟨none, none, none, none, none, none⟩

/-- The given settings as assignments; the compiler comes before its version. -/
def assignments (s : SettingsSection) : List String :=
  [("os", s.os), ("arch", s.arch), ("compiler", s.compiler),
   ("compiler.version", s.compilerVersion), ("compiler.libcxx", s.compilerLibcxx),
   ("build_type", s.buildType)].filterMap fun (key, value) =>
    value.map (assignmentText key)

end SettingsSection

namespace ExecutionSection

/-- Nothing is overridden. -/
def default : ExecutionSection := ⟨none, Dictionary.empty⟩

end ExecutionSection

/-- The configuration in which nothing is given. -/
def Configuration.default (baseDir : Path) : Configuration :=
  ⟨.default, .default, .default, .default, .default, .default, baseDir⟩

/-! ## Faults -/

/-- A value of a configuration that is a path. -/
inductive PathField
  | sourceDir
  | outputDir
  | cmake
  | repositoryRoot
  /-- The program that emulates an architecture. -/
  | emulator (arch : String)
  deriving DecidableEq

/-- The name under which the value is given. -/
def PathField.label : PathField → String
  | .sourceDir => "test.source_dir"
  | .outputDir => "layout.output_dir"
  | .cmake => "build.cmake"
  | .repositoryRoot => "repository.root"
  | .emulator arch => s!"execution.emulators.{arch}"

/-- What may be wrong with a path. -/
inductive PathFault
  | empty
  | tooLong
  | componentTooLong
  deriving DecidableEq

/-- The fault in words. -/
def PathFault.message : PathFault → String
  | .empty => "must be non-empty"
  | .tooLong => "exceeds max length"
  | .componentTooLong => "path component too long"

/-- What may be wrong with a configuration. -/
inductive ConfigurationFault
  /-- The path of the file itself. -/
  | filePath (fault : PathFault)
  | fileTooLarge
  | notUtf8
  | binaryName (error : LayoutError)
  | path (field : PathField) (fault : PathFault)
  | tooManyRequires
  | requirement (error : ReferenceError)
  | repeatedRequirement (name : String)
  | unsupportedVariable (name : String)
  | blankGenerator
  | jobsOutOfRange
  | settings (error : SettingsError)
  | tooManyEmulators
  | blankArch
  | missingProgram (arch : String)
  | tooManyArguments (arch : String)
  /-- A requirement of the test is the package under test. -/
  | requiresTested (reference : Reference)
  deriving DecidableEq

/-- How many jobs may run at a time at most. -/
def BuildSection.maxJobs : Nat := 256

/-- The fault in words. -/
def ConfigurationFault.message : ConfigurationFault → String
  | .filePath .componentTooLong => "config path component too long"
  | .filePath fault => "config path " ++ fault.message
  | .fileTooLarge => "config file exceeds size limit"
  | .notUtf8 => "config file must be utf-8"
  | .binaryName error => "test.binary: " ++ error.message
  | .path field fault => field.label ++ " " ++ fault.message
  | .tooManyRequires => "test.requires has too many entries"
  | .requirement error => "test.requires: " ++ error.message
  | .repeatedRequirement name => s!"test.requires lists {name} more than once"
  | .unsupportedVariable name => s!"layout.build_folder_vars: unsupported variable {name}"
  | .blankGenerator => "build.generator must be non-empty"
  | .jobsOutOfRange => "build.jobs must be between 1 and " ++ toString BuildSection.maxJobs
  | .settings error => "settings: " ++ error.message
  | .tooManyEmulators => "execution.emulators has too many entries"
  | .blankArch => "execution.emulators keys must be non-empty"
  | .missingProgram arch => s!"execution.emulators.{arch} must name a program"
  | .tooManyArguments arch => s!"execution.emulators.{arch} has too many arguments"
  | .requiresTested reference =>
    "test.requires entry " ++ reference.text ++ " names the package under test"

/-- Why there is no configuration. -/
inductive ConfigurationError
  /-- The file cannot be read. -/
  | io (fault : Fault)
  /-- Not TOML, or not of the shape of a configuration. -/
  | document (fault : Toml.DocumentFault)
  | invalid (fault : ConfigurationFault)
  deriving DecidableEq

/-- The message for people. -/
def ConfigurationError.message : ConfigurationError → String
  | .io fault => "config io error: " ++ fault.message
  | .document fault => "config parse error: " ++ fault.message
  | .invalid fault => "invalid config: " ++ fault.message

end PackageTrial
