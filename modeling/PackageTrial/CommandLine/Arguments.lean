import PackageTrial.Messages.Locale
import PackageTrial.Path

/-!
# Arguments

What the arguments of a command line ask for. They are read one at a time (`Reader.step`), and the
first that cannot be right ends the reading, as does a call for help. Options belong to the command
after which they stand; the version flag and the language may stand anywhere, and the innermost
language counts.
-/

namespace PackageTrial.CommandLine

/-! ## What can be asked for -/

/-- How results are written. -/
inductive Format
  | text
  | json
  deriving DecidableEq, Inhabited

/-- Where arguments stand. -/
inductive Level
  /-- Before any command. -/
  | top
  | test
  | layout
  | canRun
  | configuration
  | validate
  deriving DecidableEq

/-- An option. -/
inductive Flag
  | version
  | help
  | language
  | configuration
  | setting
  | reference
  | hostSetting
  | format
  deriving DecidableEq

namespace Flag

/-- Every option. -/
def all : List Flag :=
  [.version, .help, .language, .configuration, .setting, .reference, .hostSetting, .format]

/-- The option's long name. -/
def name : Flag → String
  | .version => "version"
  | .help => "help"
  | .language => "lang"
  | .configuration => "config"
  | .setting => "setting"
  | .reference => "reference"
  | .hostSetting => "host-setting"
  | .format => "format"

/-- The option stands alone. -/
def isSwitch : Flag → Bool
  | .version | .help => true
  | _ => false

/-- The option may be given more than once. -/
def isRepeatable : Flag → Bool
  | .setting | .hostSetting => true
  | _ => false

end Flag

/-- The options of a level. -/
def Level.flags : Level → List Flag
  | .top | .configuration => [.version, .help, .language]
  | .test =>
    [.version, .help, .language, .configuration, .setting, .reference, .hostSetting, .format]
  | .layout => [.version, .help, .language, .configuration, .setting, .format]
  | .canRun => [.version, .help, .language, .configuration, .setting, .hostSetting, .format]
  | .validate => [.version, .help, .language, .configuration]

/-- The commands of a level. -/
def Level.commands : Level → List (String × Level)
  | .top =>
    [("test", .test), ("layout", .layout), ("can-run", .canRun), ("config", .configuration)]
  | .configuration => [("validate", .validate)]
  | _ => []

/-- Everything that was given. -/
structure Arguments where
  level : Level
  version : Bool
  language : Option Locale
  configuration : Option Path
  settings : List String
  reference : Option String
  hostSettings : List String
  format : Format

/-- Why there is nothing to run. -/
inductive Stop
  /-- Help was called for. -/
  | help
  /-- The arguments are not right. -/
  | misuse
  deriving DecidableEq

/-! ## Reading -/

/-- How far the arguments were read. -/
structure Reader where
  given : Arguments
  /-- The options given at this level. -/
  here : List Flag
  /-- The option whose value is due. -/
  awaiting : Option Flag
  /-- What follows is no option. -/
  ended : Bool

namespace Reader

/-- Nothing was given. -/
def initial : Reader :=
  ⟨⟨.top, false, none, none, [], none, [], .text⟩, [], none, false⟩

/-- A value of a few. -/
def choose {α : Type} (choices : List (String × α)) (value : RawText) : Except Stop α :=
  match choices.find? fun c => RawText.ofString c.1 = value with
  | some c => .ok c.2
  | none => .error .misuse

/-- A value that has to be a text. -/
def text (value : RawText) : Except Stop String :=
  match value.text? with
  | some s => .ok s
  | none => .error .misuse

/-- What is given once an option has a value. -/
def record (given : Arguments) (value : RawText) : Flag → Except Stop Arguments
  | .version => .ok { given with version := true }
  | .help => .error .help
  | .language => do
    let language ← choose [("en", Locale.english), ("ca", Locale.catalan)] value
    return { given with language := some language }
  | .configuration =>
    if value = [] then .error .misuse else .ok { given with configuration := some ⟨value⟩ }
  | .setting => do return { given with settings := given.settings ++ [← text value] }
  | .reference => do return { given with reference := some (← text value) }
  | .hostSetting => do return { given with hostSettings := given.hostSettings ++ [← text value] }
  | .format => do
    return { given with format := ← choose [("text", Format.text), ("json", Format.json)] value }

/-- Takes an option with its value; a switch has none. -/
def take (r : Reader) (flag : Flag) (value : RawText) : Except Stop Reader := do
  let given ← record r.given value flag
  if flag ∈ r.here ∧ ¬ flag.isRepeatable then throw .misuse
  return { r with given, here := flag :: r.here, awaiting := none }

/-- An option, with the value that is attached to it, if one is. -/
def option (r : Reader) (flag : Flag) (attached : Option RawText) : Except Stop Reader :=
  match attached with
  | some value => if flag.isSwitch then .error .misuse else r.take flag value
  | none => if flag.isSwitch then r.take flag [] else .ok { r with awaiting := some flag }

/-- A long option without its dashes. -/
def long (r : Reader) (body : RawText) : Except Stop Reader :=
  let (name, attached) := match Text.cutFirst 0x3D body with
    | some (name, value) => (name, some value)
    | none => (body, none)
  match r.given.level.flags.find? fun flag => RawText.ofString flag.name = name with
  | some flag => r.option flag attached
  | none => .error .misuse

/-- A short option without its dash: its letter and what is attached to it. -/
def short (r : Reader) (letter : UInt8) (attached : RawText) : Except Stop Reader :=
  if letter = 0x68 then .error .help
  else if letter = 0x73 ∧ .setting ∈ r.given.level.flags then
    match attached with
    | [] => r.option .setting none
    | 0x3D :: value => r.option .setting (some value)
    | value => r.option .setting (some value)
  else .error .misuse

/-- An argument that is no option: the name of a command. -/
def command (r : Reader) (arg : RawText) : Except Stop Reader := do
  let level ← choose r.given.level.commands arg
  return { r with given := { r.given with level }, here := [] }

/-- Reads an argument. -/
def step (r : Reader) (arg : RawText) : Except Stop Reader :=
  if r.ended then .error .misuse
  else match r.awaiting, arg with
    | none, [0x2D, 0x2D] => .ok { r with ended := true }
    | none, 0x2D :: 0x2D :: body => r.long body
    | none, 0x2D :: letter :: attached => r.short letter attached
    | none, arg => r.command arg
    | some _, 0x2D :: _ :: _ => .error .misuse
    | some flag, value => r.take flag value

/-- What was given once the arguments have ended. -/
def finish (r : Reader) : Except Stop Arguments :=
  match r.awaiting, r.given.level with
  | some _, _ => .error .misuse
  | none, .configuration => .error .misuse
  | none, _ => .ok r.given

end Reader

/-- Reads the arguments of a command line, the program's name aside. -/
def Arguments.read (args : List RawText) : Except Stop Arguments := do
  (← args.foldlM Reader.step .initial).finish

end PackageTrial.CommandLine
