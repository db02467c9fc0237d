import PackageTrial.Environment
import PackageTrial.Text.Blank

/-!
# Scenario settings

Settings of scenario runs, which come from the environment alone. Every value has to be UTF-8 and
must not be blank; a variable that is not set has its default.
-/

namespace PackageTrial

/-- A variable of scenario runs. -/
inductive ScenarioVariable
  /-- The directory that keeps the scenarios. -/
  | runRoot
  /-- An existing scenario may be used again. -/
  | allowOverwrite
  /-- The program under test. -/
  | program
  deriving DecidableEq

namespace ScenarioVariable

/-- The variable's name. -/
def name : ScenarioVariable → String
  | .runRoot => "PKGCHECK_SYSTEM_TEST_RUN_ROOT"
  | .allowOverwrite => "PKGCHECK_SYSTEM_TEST_ALLOW_OVERWRITE"
  | .program => "PKGCHECK_SYSTEM_TEST_CLI"

/-- Every variable. -/
def all : List ScenarioVariable := [.runRoot, .allowOverwrite, .program]

end ScenarioVariable

/-- What is wrong with the value of a variable. -/
inductive ScenarioFault
  | notUtf8
  | blank
  | notBoolean
  deriving DecidableEq

/-- The fault in words. -/
def ScenarioFault.message (variableName : String) : ScenarioFault → String
  | .notUtf8 => variableName ++ " must be valid UTF-8"
  | .blank => variableName ++ " must not be empty"
  | .notBoolean => variableName ++ " must be 1, 0, true, or false"

/-- A fault and the variable it is about. -/
structure ScenarioError where
  about : ScenarioVariable
  fault : ScenarioFault
  deriving DecidableEq

/-- The message for people. -/
def ScenarioError.message (e : ScenarioError) : String :=
  e.fault.message e.about.name

/-- The settings of scenario runs. -/
structure ScenarioSettings where
  runRoot : Option String
  allowOverwrite : Bool
  program : Option String
  deriving DecidableEq

namespace ScenarioSettings

/-- The value of a variable, which has to be a text. -/
def read (environment : Snapshot) (v : ScenarioVariable) :
    Except ScenarioError (Option String) :=
  match environment.get? v.name with
  | none => .ok none
  | some raw =>
    match raw.text? with
    | some value => .ok (some value)
    | none => .error ⟨v, .notUtf8⟩

/-- The value of a variable, which must not be blank. -/
def readFilled (environment : Snapshot) (v : ScenarioVariable) :
    Except ScenarioError (Option String) := do
  let value ← read environment v
  if value.any Text.isBlankText then throw ⟨v, .blank⟩
  return value

/-- A truth value: a word in any ASCII case, or a digit. -/
def boolean? (value : String) : Option Bool :=
  let word := Text.lower (Text.trim value)
  if word = "true" ∨ word = "1" then some true
  else if word = "false" ∨ word = "0" then some false
  else none

/-- The truth value of a variable; false when it is not set. -/
def readFlag (environment : Snapshot) (v : ScenarioVariable) : Except ScenarioError Bool := do
  match ← readFilled environment v with
  | none => return false
  | some value =>
    match boolean? value with
    | some flag => return flag
    | none => throw ⟨v, .notBoolean⟩

/-- Reads the settings. -/
def load (environment : Snapshot) : Except ScenarioError ScenarioSettings := do
  let runRoot ← readFilled environment .runRoot
  let allowOverwrite ← readFlag environment .allowOverwrite
  return ⟨runRoot, allowOverwrite, ← readFilled environment .program⟩

end ScenarioSettings

end PackageTrial
