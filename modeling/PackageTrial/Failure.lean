import PackageTrial.Layout
import PackageTrial.Reference
import PackageTrial.Stage
import PackageTrial.Toml.Value

/-!
# Failures of a trial

How processes end, why packages cannot be resolved, why a tool gives up, and which of these ends a
trial. Each failure is a cause with one message, one exit code and one stage.
-/

namespace PackageTrial

/-! ## The end of a process -/

/-- How a process ended. At most one of the two is known. -/
structure Status where
  code : Option Int32
  signal : Option Int32
  deriving DecidableEq, Inhabited

namespace Status

/-- The process exited with a code. -/
def exited (code : Int32) : Status := ⟨some code, none⟩

/-- A signal killed the process. -/
def signaled (signal : Int32) : Status := ⟨none, some signal⟩

/-- The process exited with code zero. -/
def success (s : Status) : Bool :=
  s.code == some 0

/-- The code as a shell reports it: 128 more than the signal, and 1 when nothing is known. -/
def exitCode (s : Status) : Int32 :=
  match s.code, s.signal with
  | some code, _ => code
  | none, some signal => 128 + signal
  | none, none => 1

end Status

/-! ## Resolution -/

/-- A setting that a package may restrict. -/
inductive Restriction
  | os
  | arch
  deriving DecidableEq

/-- The setting's name. -/
def Restriction.label : Restriction → String
  | .os => "os"
  | .arch => "arch"

/-- What is wrong with a manifest. -/
inductive ManifestFault
  | tooLarge
  | notUtf8
  /-- Not TOML, or not of the shape of a manifest. -/
  | document (fault : Toml.DocumentFault)
  /-- It declares another package. -/
  | declares (name version : String)
  /-- A requirement or the revision makes no reference. -/
  | badReference (error : ReferenceError)
  /-- A directory leads out of the package. -/
  | escapingDirectory (dir : Path)
  /-- Any other, in words. -/
  | other (text : String)
  deriving DecidableEq

/-- The fault in words. -/
def ManifestFault.message : ManifestFault → String
  | .tooLarge => "manifest exceeds size limit"
  | .notUtf8 => "manifest must be utf-8"
  | .document fault => fault.message
  | .declares name version => s!"manifest declares {name}/{version}"
  | .badReference error => error.message
  | .escapingDirectory dir => "directory " ++ dir.display ++ " must be relative to the package"
  | .other text => text

/-- Why declarations cannot be resolved. -/
inductive ResolveError
  | notFound (reference : Reference)
  /-- Two requirements disagree on a package. -/
  | conflict (name : String) (existing requested : Reference)
  /-- Requirements lead in a circle or too deep; the names on the way. -/
  | cycle (chain : List String)
  /-- The package does not support the target. -/
  | incompatible (reference : Reference) (setting : Restriction) (value : String)
  /-- The pinned revision is not the one that is available. -/
  | revisionMismatch (reference : Reference) (available : String)
  | manifest (reference : Reference) (fault : ManifestFault)
  | io (text : String)
  deriving DecidableEq

/-- The message for people. -/
def ResolveError.message : ResolveError → String
  | .notFound reference => "package " ++ reference.text ++ " not found"
  | .conflict name existing requested =>
    s!"conflicting requirements for {name}: " ++ existing.text ++ " vs " ++ requested.text
  | .cycle chain => "dependency cycle: " ++ " -> ".intercalate chain
  | .incompatible reference setting value =>
    "package " ++ reference.text ++ " does not support " ++ setting.label ++ "=" ++ value
  | .revisionMismatch reference available =>
    "package " ++ reference.text ++ s!" revision mismatch (available {available})"
  | .manifest reference fault =>
    "invalid manifest for " ++ reference.text ++ ": " ++ fault.message
  | .io text => s!"package repository error: {text}"

/-! ## Tools -/

/-- Why a tool did not do its work. -/
inductive ToolError
  /-- It could not be started. -/
  | spawn (program message : String)
  /-- It ran and reported failure. -/
  | failed (program : String) (status : Status)
  /-- What it needs could not be prepared. -/
  | prepare (message : String)
  deriving DecidableEq

namespace ToolError

/-- The message for people. -/
def message : ToolError → String
  | .spawn program message => s!"failed to start {program}: {message}"
  | .failed program status => s!"{program} failed with exit code " ++ toString status.exitCode.toInt
  | .prepare message => message

/-- The exit code to pass on. -/
def exitCode : ToolError → Int32
  | .failed _ status => status.exitCode
  | .spawn _ _ | .prepare _ => 1

end ToolError

/-! ## Trials -/

/-- Why a trial ended early. -/
inductive TrialError
  | resolution (error : ResolveError)
  | layout (error : LayoutError)
  | configure (error : ToolError)
  | build (error : ToolError)
  /-- The build made no test binary. -/
  | missingArtifact (binary : Path)
  /-- The test binary could not be run. -/
  | run (error : ToolError)
  /-- The test binary reported failure. -/
  | binaryFailed (binary : Path) (status : Status)
  /-- The stages went out of order. -/
  | outOfOrder (error : StageError)
  deriving DecidableEq

namespace TrialError

/-- The message for people. -/
def message : TrialError → String
  | .resolution error => "dependency resolution failed: " ++ error.message
  | .layout error => "invalid build layout: " ++ error.message
  | .configure error => "configure step failed: " ++ error.message
  | .build error => "build step failed: " ++ error.message
  | .missingArtifact binary => "test binary not found at " ++ binary.display
  | .run error => "failed to run test binary: " ++ error.message
  | .binaryFailed binary status =>
    "test binary " ++ binary.display ++ " failed with exit code " ++
      toString status.exitCode.toInt
  | .outOfOrder error => "internal error: " ++ error.message

/-- The exit code of the process that failed; 1 where none did. -/
def processCode : TrialError → Int32
  | .configure error | .build error | .run error => error.exitCode
  | .binaryFailed _ status => status.exitCode
  | .resolution _ | .layout _ | .missingArtifact _ | .outOfOrder _ => 1

/-- The exit code to pass on, which is never zero. -/
def exitCode (e : TrialError) : Int32 :=
  if e.processCode = 0 then 1 else e.processCode

/-- The stage that could not be entered. -/
def failedStage : TrialError → Stage
  | .resolution _ => .dependenciesDeclared
  | .layout _ => .layoutComputed
  | .configure _ => .configured
  | .build _ => .built
  | .missingArtifact _ | .run _ | .binaryFailed _ _ => .executed
  | .outOfOrder error => error.requested

end TrialError

end PackageTrial
