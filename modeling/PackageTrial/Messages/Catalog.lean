import PackageTrial.Messages.Locale
import PackageTrial.Messages.Template

/-!
# Messages

Everything that the program says to people on its own account, with a template in every language.
Each message has a key, under which it can also be asked for by name.
-/

namespace PackageTrial

/-- A message. -/
inductive Message
  | version
  | standardOutput
  | standardError
  | unknownOutput
  | writeFailed
  | jsonFailed
  | configurationFailed
  | configurationValid
  | invalidSetting
  | invalidHostSetting
  | missingReference
  | invalidReference
  | invalidPlan
  | invalidLayout
  | sourceDirectory
  | buildDirectory
  | generatorsDirectory
  | binaryDirectory
  | binaryPath
  | trialFailed
  | testedPackage
  | testedCapability
  | testedBinary
  | binaryPassed
  | binarySkipped
  | verdict
  | canRun
  | cannotRun
  | emulator
  | invalidLanguage
  | machineTranslated
  deriving DecidableEq

namespace Message

/-- Every message. -/
def all : List Message :=
  [.version, .standardOutput, .standardError, .unknownOutput, .writeFailed, .jsonFailed,
   .configurationFailed, .configurationValid, .invalidSetting, .invalidHostSetting,
   .missingReference, .invalidReference, .invalidPlan, .invalidLayout, .sourceDirectory,
   .buildDirectory, .generatorsDirectory, .binaryDirectory, .binaryPath, .trialFailed,
   .testedPackage, .testedCapability, .testedBinary, .binaryPassed, .binarySkipped, .verdict,
   .canRun, .cannotRun, .emulator, .invalidLanguage, .machineTranslated]

/-- The message's key. -/
def key : Message → String
  | .version => "main.version"
  | .standardOutput => "output.stream.stdout"
  | .standardError => "output.stream.stderr"
  | .unknownOutput => "output.stream.unknown"
  | .writeFailed => "output.write_failed"
  | .jsonFailed => "output.json_failed"
  | .configurationFailed => "config.load_failed"
  | .configurationValid => "config.validate.ok"
  | .invalidSetting => "settings.invalid"
  | .invalidHostSetting => "host.invalid"
  | .missingReference => "reference.missing"
  | .invalidReference => "reference.invalid"
  | .invalidPlan => "plan.invalid"
  | .invalidLayout => "layout.invalid"
  | .sourceDirectory => "layout.source"
  | .buildDirectory => "layout.build"
  | .generatorsDirectory => "layout.generators"
  | .binaryDirectory => "layout.bindir"
  | .binaryPath => "layout.binary"
  | .trialFailed => "test.failed"
  | .testedPackage => "test.summary.tested"
  | .testedCapability => "test.summary.capability"
  | .testedBinary => "test.summary.binary"
  | .binaryPassed => "test.summary.passed"
  | .binarySkipped => "test.summary.skipped"
  | .verdict => "can_run.verdict"
  | .canRun => "can_run.yes"
  | .cannotRun => "can_run.no"
  | .emulator => "can_run.emulator"
  | .invalidLanguage => "i18n.lang.invalid_env"
  | .machineTranslated => "i18n.disclaimer.machine_translated"

/-- The message of a key. -/
def ofKey? (key : String) : Option Message :=
  all.find? (·.key = key)

/-- The English template. -/
def english : Message → String
  | .version => "pkgcheck {version}"
  | .standardOutput => "stdout"
  | .standardError => "stderr"
  | .unknownOutput => "output"
  | .writeFailed => "Failed to write to {stream}: {error}"
  | .jsonFailed => "Failed to render JSON output: {error}"
  | .configurationFailed => "Failed to load config: {error}"
  | .configurationValid => "Config is valid."
  | .invalidSetting => "Invalid target setting: {error}"
  | .invalidHostSetting => "Invalid host setting: {error}"
  | .missingReference => "No package reference given. Pass --reference or set {env}."
  | .invalidReference => "Invalid package reference {value}: {error}"
  | .invalidPlan => "Invalid test plan: {error}"
  | .invalidLayout => "Failed to compute the build layout: {error}"
  | .sourceDirectory => "Source directory: {path}"
  | .buildDirectory => "Build directory: {path}"
  | .generatorsDirectory => "Generators directory: {path}"
  | .binaryDirectory => "Binary directory: {path}"
  | .binaryPath => "Test binary: {path}"
  | .trialFailed => "Package test failed at stage {stage}: {error}"
  | .testedPackage => "Tested package: {reference}"
  | .testedCapability => "Execution capability: {capability}"
  | .testedBinary => "Test binary: {path}"
  | .binaryPassed => "Test binary passed (exit code {code})."
  | .binarySkipped => "Test binary built but not executed: the host cannot run it ({reason})."
  | .verdict => "Capability: {capability}"
  | .canRun => "This host can run binaries built for {target}."
  | .cannotRun => "This host cannot run binaries built for {target} ({reason})."
  | .emulator => "Emulator: {command}"
  | .invalidLanguage => "Invalid value for {env}: {value}. Expected 'en' or 'ca'."
  | .machineTranslated => "Note: non-English output is machine-translated and may be inaccurate."

/-- The Catalan template. -/
def catalan : Message → String
  | .version => "pkgcheck {version}"
  | .standardOutput => "stdout"
  | .standardError => "stderr"
  | .unknownOutput => "sortida"
  | .writeFailed => "No s'ha pogut escriure a {stream}: {error}"
  | .jsonFailed => "No s'ha pogut generar la sortida JSON: {error}"
  | .configurationFailed => "No s'ha pogut carregar la configuració: {error}"
  | .configurationValid => "La configuració és vàlida."
  | .invalidSetting => "Paràmetre de destinació no vàlid: {error}"
  | .invalidHostSetting => "Paràmetre d'amfitrió no vàlid: {error}"
  | .missingReference =>
    "No s'ha indicat cap referència de paquet. Useu --reference o definiu {env}."
  | .invalidReference => "Referència de paquet no vàlida {value}: {error}"
  | .invalidPlan => "Pla de prova no vàlid: {error}"
  | .invalidLayout => "No s'ha pogut calcular la disposició de compilació: {error}"
  | .sourceDirectory => "Directori de fonts: {path}"
  | .buildDirectory => "Directori de compilació: {path}"
  | .generatorsDirectory => "Directori de generadors: {path}"
  | .binaryDirectory => "Directori de binaris: {path}"
  | .binaryPath => "Binari de prova: {path}"
  | .trialFailed => "La prova del paquet ha fallat a l'etapa {stage}: {error}"
  | .testedPackage => "Paquet provat: {reference}"
  | .testedCapability => "Capacitat d'execució: {capability}"
  | .testedBinary => "Binari de prova: {path}"
  | .binaryPassed => "El binari de prova ha passat (codi de sortida {code})."
  | .binarySkipped =>
    "El binari de prova s'ha compilat però no s'ha executat: " ++
      "l'amfitrió no el pot executar ({reason})."
  | .verdict => "Capacitat: {capability}"
  | .canRun => "Aquest amfitrió pot executar binaris compilats per a {target}."
  | .cannotRun => "Aquest amfitrió no pot executar binaris compilats per a {target} ({reason})."
  | .emulator => "Emulador: {command}"
  | .invalidLanguage => "Valor no vàlid per a {env}: {value}. S'esperava 'en' o 'ca'."
  | .machineTranslated =>
    "Nota: la sortida que no és en anglès està traduïda automàticament i pot ser inexacta."

/-- The template in a language. -/
def template (m : Message) : Locale → String
  | .english => m.english
  | .catalan => m.catalan

/-- The message in a language, with values in its places. -/
def text (m : Message) (locale : Locale) (args : Template.Arguments) : String :=
  Template.fill (m.template locale) args

/-- The message of a key; an unknown key is its own template. -/
def translate (locale : Locale) (key : String) (args : Template.Arguments) : String :=
  match ofKey? key with
  | some m => m.text locale args
  | none => Template.fill key args

end Message

end PackageTrial
