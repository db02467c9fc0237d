import PackageTrial.CommandLine.Arguments
import PackageTrial.Configuration.Derived
import PackageTrial.Configuration.Loading
import PackageTrial.Machine.Collaborators
import PackageTrial.Messages.Catalog
import PackageTrial.Serialization.Encode

/-!
# Sessions

A session is one use of the command line on a machine: arguments go in, a reply comes out. The
status of a reply is that of the test binary or of the tool that failed, as far as a byte can
(`exitByte`).
-/

namespace PackageTrial.CommandLine

/-! ## Replies -/

/-- What a session says and how it ends. -/
structure Reply where
  exit : UInt8
  stdout : String
  stderr : String
  deriving DecidableEq, Inhabited

/-- The status byte that tells of an exit code; 1 for a code that is no byte. -/
def exitByte (code : Int32) : UInt8 :=
  if 0 ≤ code.toInt ∧ code.toInt ≤ 255 then UInt8.ofNat code.toInt.toNat else 1

/-- A failure of a session: what is said about it and the status. -/
structure Failure where
  message : String
  exit : UInt8

/-- What a session gives back: its status, and its lines. -/
abbrev Answer := UInt8 × List String

/-- What a session does. -/
abbrev Session := ExceptT Failure (StateM Machine)

/-- The program's version. -/
def programVersion : String := "0.1.0"

/-- The variable that may name the language. -/
def languageVariable : String := "PKGCHECK_LANG"

/-- The variable that may name the package under test. -/
def referenceVariable : String := "PKGCHECK_TESTED_REFERENCE"

/-- How the program is used. -/
def usage : String :=
  "Usage: pkgcheck [OPTIONS] [COMMAND]\n\nCommands:\n" ++
    "  test             Build the consumer project against a package and run it\n" ++
    "  layout           Print the build layout\n" ++
    "  can-run          Print whether this host can run binaries for the target\n" ++
    "  config validate  Check a config file\n\nOptions:\n" ++
    "      --version           Print the version\n" ++
    "      --lang <LANG>       Language of the output: en, ca\n" ++
    "      --config <PATH>     Config file\n" ++
    "  -s, --setting <K=V>     Target setting\n" ++
    "      --host-setting <K=V>  Host setting\n" ++
    "      --reference <REF>   Package under test\n" ++
    "      --format <FORMAT>   Format of the output: text, json\n" ++
    "  -h, --help              Print this help\n"

section Commands

variable (locale : Locale)

/-- Fails with a message, and with the status of no process. -/
def fail {α : Type} (m : Message) (args : Template.Arguments) : Session α :=
  throw ⟨m.text locale args, 1⟩

/-- Fails with a message about an error. -/
def require {ε α : Type} (m : Message) (describe : ε → String) : Except ε α → Session α
  | .ok a => pure a
  | .error e => fail locale m [("error", describe e)]

/-- Writes a value that mentions paths; they have to be texts. -/
def writeJson (paths : List Path) (value : Json) : Session (List String) :=
  if paths.all (·.text?.isSome) then return [value.pretty]
  else fail locale .jsonFailed [("error", "path contains invalid UTF-8 characters")]

/-- A path as it is written in JSON. -/
def pathText (p : Path) : Json := .string p.display

/-- The paths of a layout. -/
def layoutPaths (l : Layout) : List Path :=
  l.sourceDir :: l.buildDir :: l.generatorsDir :: l.binDirs

/-! ## Inputs -/

/-- Loads the configuration. -/
def loadConfiguration (file : Option Path) : Session Configuration := do
  let machine ← get
  let variableValue := machine.ambient.get? Configuration.fileVariable
  require locale .configurationFailed ConfigurationError.message
    (Configuration.load file variableValue machine.workspace)

/-- The package under test: the one that was given, else the one that the variable names. -/
def testedReference (given : Option String) : Session Reference := do
  let named := given <|> (← get).ambient.text? referenceVariable
  match (named.map Text.trim).filter (· ≠ "") with
  | none => fail locale .missingReference [("env", referenceVariable)]
  | some written =>
    match Reference.parse written with
    | .ok reference => return reference
    | .error e => fail locale .invalidReference [("value", written), ("error", e.message)]

/-- The settings of a build for a host. -/
def targetSettings (c : Configuration) (host : Host) (assignments : List String) :
    Session Settings :=
  require locale .invalidSetting SettingsError.message (c.buildSettings host assignments)

/-- The surroundings of a trial. -/
def contextOf (c : Configuration) (args : Arguments) : Session Context := do
  let host ← require locale .invalidHostSetting SettingsError.message
    (Host.detected.assignAll args.hostSettings)
  let target ← targetSettings locale c host args.settings
  return ⟨target, host, c.overrides, (← get).ambient⟩

/-! ## The trial -/

/-- The build tool of a configuration. -/
def toolOf (c : Configuration) : CMake.Tool :=
  ⟨c.build.cmake, c.build.generator, c.build.jobs, c.layout.multiConfig⟩

/-- What is said of a report. -/
def reportLines (r : Report) : List String :=
  [Message.testedPackage.text locale [("reference", r.tested.text)],
   Message.testedCapability.text locale [("capability", r.verdict.label)],
   Message.testedBinary.text locale [("path", r.binary.display)],
   match r.outcome with
   | .executed code => Message.binaryPassed.text locale [("code", toString code.toInt)]
   | .skipped reason => Message.binarySkipped.text locale [("reason", reason.label)]]

/-- Runs a trial. -/
def test (args : Arguments) : Session Answer := do
  let tested ← testedReference locale args.reference
  let c ← loadConfiguration locale args.configuration
  let context ← contextOf locale c args
  let plan ← require locale .invalidPlan
    (fun fault => (ConfigurationError.invalid fault).message) (c.plan tested)
  let collaborators := Machine.collaborators c.repositoryRoot (toolOf c)
  match ← (Trial.run collaborators plan context).run with
  | .ok report =>
    let lines ← match args.format with
      | .text => pure (reportLines locale report)
      | .json =>
        writeJson locale (report.binary :: layoutPaths report.layout) (report.toJson pathText)
    return (exitByte report.exitCode, lines)
  | .error e =>
    let message := Message.trialFailed.text locale
      [("stage", e.failedStage.label), ("error", e.message)]
    throw ⟨message, exitByte e.exitCode⟩

/-! ## Inspection -/

/-- What is said of a layout. -/
def layoutLines (l : Layout) (binary : Path) : List String :=
  let line (m : Message) (p : Path) := m.text locale [("path", p.display)]
  [line .sourceDirectory l.sourceDir, line .buildDirectory l.buildDir,
   line .generatorsDirectory l.generatorsDir] ++ l.binDirs.map (line .binaryDirectory) ++
    [line .binaryPath binary]

/-- Prints the layout of a build. -/
def layout (args : Arguments) : Session Answer := do
  let c ← loadConfiguration locale args.configuration
  let settings ← targetSettings locale c Host.detected args.settings
  let invalid {α : Type} : Except LayoutError α → Session α :=
    require locale .invalidLayout LayoutError.message
  let l ← invalid (Layout.compute c.layoutOptions settings)
  let binary ← invalid (l.binaryPath c.test.binary settings)
  let lines ← match args.format with
    | .text => pure (layoutLines locale l binary)
    | .json =>
      writeJson locale (binary :: layoutPaths l)
        (.object [("settings", settings.toJson), ("layout", l.toJson pathText),
          ("binary", pathText binary)])
  return (0, lines)

/-- What is said of a verdict. -/
def verdictLines (target : Settings) (verdict : Verdict) : List String :=
  let name := target.os.name ++ "/" ++ target.arch.name
  let answer := match verdict.reason? with
    | some reason => Message.cannotRun.text locale [("target", name), ("reason", reason.label)]
    | none => Message.canRun.text locale [("target", name)]
  let emulator := verdict.emulator?.map fun command =>
    Message.emulator.text locale [("command", " ".intercalate command)]
  [Message.verdict.text locale [("capability", verdict.label)], answer] ++ emulator.toList

/-- Prints whether the host can run binaries of the target. -/
def canRun (args : Arguments) : Session Answer := do
  let c ← loadConfiguration locale args.configuration
  let context ← contextOf locale c args
  let lines ← match args.format with
    | .text => pure (verdictLines locale context.target context.verdict)
    | .json =>
      writeJson locale []
        (.object [("host", context.host.toJson), ("target", context.target.toJson),
          ("capability", context.verdict.toJson), ("can_execute", .bool context.canExecute)])
  return (0, lines)

/-- Checks a configuration. -/
def validate (args : Arguments) : Session Answer := do
  let _ ← loadConfiguration locale args.configuration
  return (0, [Message.configurationValid.text locale []])

/-- Does what the arguments ask for. -/
def perform (args : Arguments) : Session Answer :=
  if args.version then
    return (0, [Message.version.text locale [("version", programVersion)]])
  else match args.level with
    | .test => test locale args
    | .layout => layout locale args
    | .canRun => canRun locale args
    | .validate => validate locale args
    | .top | .configuration => return (0, [usage])

end Commands

/-! ## The whole session -/

/-- The locale: the one that was given, else the one that the variable names, else English. -/
def localeOf (given : Option Locale) (variableValue : Option String) : Except Failure Locale :=
  match given, variableValue with
  | some locale, _ => .ok locale
  | none, none => .ok .english
  | none, some value =>
    match Locale.parse? value with
    | some locale => .ok locale
    | none =>
      .error ⟨Message.invalidLanguage.text .english
        [("env", languageVariable), ("value", value)], 1⟩

/-- Lines, each with its end. -/
def joinLines (lines : List String) : String :=
  String.join (lines.map (· ++ "\n"))

/-- What is said before anything else. -/
def disclaimer (locale : Locale) : List String :=
  if locale = .english then [] else [Message.machineTranslated.text locale []]

/-- One use of the command line. What child processes print comes first. -/
def run (args : List RawText) : StateM Machine Reply := do
  match Arguments.read args with
  | .error .help => return ⟨0, usage, ""⟩
  | .error .misuse => return ⟨2, "", "error: invalid arguments\n\n" ++ usage⟩
  | .ok given =>
    match localeOf given.language ((← get).ambient.text? languageVariable) with
    | .error failure => return ⟨failure.exit, "", joinLines [failure.message]⟩
    | .ok locale =>
      let answer ← (perform locale given).run
      let printed := (← get).printed.display
      match answer with
      | .ok (exit, lines) =>
        return ⟨exit, printed ++ joinLines lines, joinLines (disclaimer locale)⟩
      | .error failure =>
        return ⟨failure.exit, printed, joinLines (disclaimer locale ++ [failure.message])⟩

end PackageTrial.CommandLine
