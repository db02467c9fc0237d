import PackageTrial.Configuration.Basic

/-!
# Valid configurations

`Configuration.validate` goes through the sections in order and reports the first fault. What it
accepts is enough for every value that is derived from a configuration to exist.
-/

namespace PackageTrial

/-- Accepts a configuration or part of one, or names its first fault. -/
abbrev Validation := Except ConfigurationFault Unit

namespace Validation

/-- Accepts if there is no fault. -/
def require (holds : Bool) (fault : ConfigurationFault) : Validation :=
  if holds then .ok () else .error fault

/-! ## Paths -/

/-- The most bytes of a path. -/
def maxPathLength : Nat := 4096

/-- The most bytes of a component. -/
def maxComponentLength : Nat := 255

/-- Every component of the path is short enough. -/
def hasShortComponents (path : Path) : Bool :=
  path.components.all fun c => (RawText.display c.raw).utf8ByteSize ≤ maxComponentLength

/-- The first fault of a text that is to be a path, blanks around it aside. -/
def pathFault? (text : String) : Option PathFault :=
  let trimmed := Text.trim text
  if trimmed = "" then some .empty
  else if maxPathLength < trimmed.utf8ByteSize then some .tooLong
  else if hasShortComponents (.ofString trimmed) then none
  else some .componentTooLong

/-- Accepts a text that is to be a path. -/
def checkPath (field : PathField) (text : String) : Validation :=
  match pathFault? text with
  | none => .ok ()
  | some fault => .error (.path field fault)

end Validation

open Validation

/-! ## Sections -/

namespace TestSection

/-- The most requirements of a test. -/
def maxRequires : Nat := 32

/-- The requirements, once each is a reference. -/
def references (s : TestSection) : Except ConfigurationFault (List Reference) :=
  s.requires.mapM fun written => (Reference.parse written).mapError .requirement

/-- The first name that stood earlier in the list. -/
def repeated? : List String → List String → Option String
  | _, [] => none
  | seen, name :: rest => if name ∈ seen then some name else repeated? (name :: seen) rest

/-- Accepts the section. -/
def validate (s : TestSection) : Validation := do
  (Layout.checkBinaryName s.binary).mapError .binaryName
  checkPath .sourceDir s.sourceDir.display
  require (s.requires.length ≤ maxRequires) .tooManyRequires
  match repeated? [] ((← s.references).map (·.name)) with
  | some name => throw (.repeatedRequirement name)
  | none => return

end TestSection

/-- Accepts the section. -/
def LayoutSection.validate (s : LayoutSection) : Validation := do
  if let some dir := s.outputDir then checkPath .outputDir dir.display
  match s.buildFolderVars.find? fun name => (Settings.Variable.ofName? name).isNone with
  | some name => throw (.unsupportedVariable name)
  | none => return

/-- Accepts the section. -/
def BuildSection.validate (s : BuildSection) : Validation := do
  checkPath .cmake s.cmake
  require (!s.generator.any Text.isBlankText) .blankGenerator
  require (s.jobs.all fun jobs => 1 ≤ jobs && jobs ≤ maxJobs) .jobsOutOfRange

/-- Accepts the section. -/
def RepositorySection.validate (s : RepositorySection) : Validation := do
  if let some root := s.root then checkPath .repositoryRoot root.display

/-- Accepts the section, whose assignments have to be ones. -/
def SettingsSection.validate (s : SettingsSection) : Validation := do
  let _ ← ((Settings.native Host.detected).assignAll s.assignments).mapError .settings
  return

namespace ExecutionSection

/-- The most emulators. -/
def maxEmulators : Nat := 32

/-- The most parts of an emulator's command line. -/
def maxEmulatorParts : Nat := 64

/-- Accepts an emulator. -/
def checkEmulator (arch : String) (command : List String) : Validation := do
  require (!Text.isBlankText arch) .blankArch
  match command with
  | [] => throw (.missingProgram arch)
  | program :: _ =>
    checkPath (.emulator arch) program
    require (command.length ≤ maxEmulatorParts) (.tooManyArguments arch)

/-- Accepts the section. -/
def validate (s : ExecutionSection) : Validation := do
  require (s.emulators.size ≤ maxEmulators) .tooManyEmulators
  s.emulators.entries.forM fun (arch, command) => checkEmulator arch command

end ExecutionSection

/-- Accepts the configuration. -/
def Configuration.validate (c : Configuration) : Validation := do
  c.test.validate
  c.layout.validate
  c.build.validate
  c.repository.validate
  c.settings.validate
  c.execution.validate

end PackageTrial
