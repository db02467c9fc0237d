import PackageTrial.Capability
import PackageTrial.Configuration.Validation

/-!
# What follows from a configuration

The plan of a trial, the settings of its build, the overrides of its verdict and the directories it
works with, all derived from a configuration. Relative paths are seen from the configuration's own
directory.
-/

namespace PackageTrial.Configuration

/-- A path as it is seen from the directory of the configuration. -/
def resolve (c : Configuration) (path : Path) : Path :=
  if path.isAbsolute then path else c.baseDir.join path

/-- The layout of builds; where no output directory is given, it is the project's. -/
def layoutOptions (c : Configuration) : LayoutOptions :=
  let sourceDir := c.resolve c.test.sourceDir
  ⟨sourceDir, (c.layout.outputDir.map c.resolve).getD sourceDir, c.layout.multiConfig,
    c.layout.buildFolderVars⟩

/-- The directory of packages where none is given. -/
def defaultRepository : String := "packages"

/-- The directory of packages. -/
def repositoryRoot (c : Configuration) : Path :=
  match c.repository.root with
  | some root => c.resolve root
  | none => c.baseDir.child defaultRepository

/-- The settings of a build: the host's, those of the configuration, then the given assignments. -/
def buildSettings (c : Configuration) (host : Host) (assignments : List String) :
    Except SettingsError Settings := do
  (← (Settings.native host).assignAll c.settings.assignments).assignAll assignments

/-- What overrides the verdict. Emulators go by the canonical spelling of their architecture; of two
spellings of one architecture the later in order counts. -/
def overrides (c : Configuration) : Overrides :=
  ⟨c.execution.canRun,
    .ofList (c.execution.emulators.entries.map fun (arch, command) =>
      ((Arch.parse arch).name, command))⟩

/-- The plan for a package, which the test must not require besides. -/
def plan (c : Configuration) (tested : Reference) : Except ConfigurationFault Plan := do
  let references ← c.test.references
  match references.find? (·.name = tested.name) with
  | some clash => throw (.requiresTested clash)
  | none => return ⟨tested, references, c.layoutOptions, c.test.binary⟩

end PackageTrial.Configuration
