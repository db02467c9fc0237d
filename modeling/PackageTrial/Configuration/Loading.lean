import PackageTrial.Configuration.Reading
import PackageTrial.Configuration.Validation

/-!
# Loading configurations

A configuration comes from the file that the operator names, else from the one that a variable
names, else from the usual file of the working directory. Only the last of these may be missing,
and then everything takes its default. Whatever is loaded is valid.
-/

namespace PackageTrial.Configuration

/-- The usual file. -/
def defaultFile : String := "pkgcheck.toml"

/-- The variable that may name the file. -/
def fileVariable : String := "PKGCHECK_CONFIG"

/-- The most bytes of a file. -/
def maxFileSize : Nat := 1024 * 1024

/-- Where a configuration comes from. -/
structure Source where
  file : Path
  /-- Someone has named the file. -/
  named : Bool
  deriving DecidableEq

/-- The source, from an argument and the variable. A variable that is no text does not count. -/
def source (argument : Option Path) (variableValue : Option RawText) :
    Except ConfigurationError Source :=
  match argument, variableValue.bind RawText.text? with
  | some file, _ => .ok ⟨file, true⟩
  | none, some name =>
    if Validation.maxPathLength < name.utf8ByteSize then .error (.invalid (.filePath .tooLong))
    else .ok ⟨.ofString name, true⟩
  | none, none => .ok ⟨.ofString defaultFile, false⟩

/-- Accepts the path of a file. -/
def checkFile (file : Path) : Except ConfigurationError Unit :=
  if Validation.maxPathLength < file.display.utf8ByteSize then
    .error (.invalid (.filePath .tooLong))
  else if Validation.hasShortComponents file then .ok ()
  else .error (.invalid (.filePath .componentTooLong))

/-- The directory of a file as the paths in it are seen. -/
def directoryOf (w : Workspace) (file : Path) : Path :=
  let above := match file.parent with
    | some parent => if parent = Path.blank then .ofString "." else parent
    | none => .ofString "."
  Path.absoluteFrom w.workingPath above

/-- The text of a file, within the limits. -/
def contentOf (bytes : ByteArray) : Except ConfigurationError String :=
  if maxFileSize < bytes.size then .error (.invalid .fileTooLarge)
  else match String.fromUTF8? bytes with
    | some content => .ok content
    | none => .error (.invalid .notUtf8)

/-- The configuration, if it is valid. -/
def validated (c : Configuration) : Except ConfigurationError Configuration := do
  c.validate.mapError .invalid
  return c

/-- Loads the configuration. -/
def load (argument : Option Path) (variableValue : Option RawText) (w : Workspace) :
    Except ConfigurationError Configuration := do
  let source ← source argument variableValue
  checkFile source.file
  if ¬ source.named ∧ ¬ w.has source.file then
    validated (.default (Path.absoluteFrom w.workingPath (.ofString ".")))
  else
    let bytes ← (w.read source.file).mapError .io
    let content ← contentOf bytes
    validated (← parse content (directoryOf w source.file))

end PackageTrial.Configuration
