import PackageTrial.Capability
import PackageTrial.Declaration
import PackageTrial.Json
import PackageTrial.Layout

/-!
# Reading written forms

From JSON values back to data. A record is an object with its fields, in which others are passed
over, or an array of exactly its fields in order. The first value that does not fit decides the
error; most errors say no more than that.
-/

namespace PackageTrial

/-- Why a value is not the written form of something. -/
inductive DecodeError
  /-- It is a value of another shape. -/
  | shape
  | emptyOs
  | emptyArch
  | invalidBuildType (value : String)
  | reference (error : ReferenceError)
  deriving DecidableEq

/-- What the error says about itself, if anything. -/
def DecodeError.message? : DecodeError → Option String
  | .shape => none
  | .emptyOs => some "os must not be empty"
  | .emptyArch => some "arch must not be empty"
  | .invalidBuildType value => some s!"invalid build_type '{value}'"
  | .reference error => some error.message

/-- Reads a written form. -/
abbrev Decoding (α : Type) := Json → Except DecodeError α

namespace Decoding

/-! ## Simple values -/

/-- A text. -/
def string : Decoding String
  | .string s => .ok s
  | _ => .error .shape

/-- A truth value. -/
def boolean : Decoding Bool
  | .bool b => .ok b
  | _ => .error .shape

/-- A path. -/
def path : Decoding Path := fun j => Path.ofString <$> string j

/-- A value or nothing. -/
def nullable {α : Type} (d : Decoding α) : Decoding (Option α)
  | .null => .ok none
  | j => some <$> d j

/-- A list. -/
def list {α : Type} (d : Decoding α) : Decoding (List α)
  | .array items => items.mapM d
  | _ => .error .shape

/-- A dictionary. -/
def dictionary {α : Type} (d : Decoding α) : Decoding (Dictionary α)
  | .object members => do
    return .ofList (← members.mapM fun m => do return (m.1, ← d m.2))
  | _ => .error .shape

/-- One of a few values by its label: a text, or an object whose one member is nothing. -/
def oneOf {α : Type} (all : List α) (label : α → String) : Decoding α := fun j =>
  let named (name : String) := match all.find? (label · = name) with
    | some a => .ok a
    | none => .error .shape
  match j with
  | .string name => named name
  | .object [(name, .null)] => named name
  | _ => .error .shape

/-! ## Records -/

/-- The fields of a record that were given, as they are written. -/
abbrev Given := List (String × Json)

/-- A field of a record. -/
structure Member (α : Type) where
  name : String
  decode : Decoding α

/-- Accepts the written values of a field. -/
def Member.check {α : Type} (f : Member α) : String × (Json → Except DecodeError Unit) :=
  (f.name, fun j => do let _ ← f.decode j)

/-- Accepts one given field. -/
def checkGiven (checks : List (String × (Json → Except DecodeError Unit))) (field : String × Json) :
    Except DecodeError Unit :=
  match checks.find? (·.1 = field.1) with
  | some check => check.2 field.2
  | none => .ok ()

/-- Reads a record, whose fields are checked in the order in which they are given. -/
def record (checks : List (String × (Json → Except DecodeError Unit))) : Decoding Given
  | .object members => do
    members.forM (checkGiven checks)
    return members
  | .array items => do
    let given := (checks.map (·.1)).zip items
    given.forM (checkGiven checks)
    if items.length = checks.length then return given else throw .shape
  | _ => .error .shape

/-- The value of a field that has to be given. -/
def Member.get {α : Type} (f : Member α) (given : Given) : Except DecodeError α :=
  match given.find? (·.1 = f.name) with
  | some field => f.decode field.2
  | none => .error .shape

/-- The value of a field that may be left out. -/
def Member.find {α : Type} (f : Member (Option α)) (given : Given) :
    Except DecodeError (Option α) :=
  match given.find? (·.1 = f.name) with
  | some field => f.decode field.2
  | none => .ok none

end Decoding

open Decoding

/-! ## Platforms and settings -/

/-- Reads the written form. -/
def Os.decode : Decoding Os := fun j => do
  let name ← string j
  if Text.isBlankText name then throw .emptyOs
  return .parse name

/-- Reads the written form. -/
def Arch.decode : Decoding Arch := fun j => do
  let name ← string j
  if Text.isBlankText name then throw .emptyArch
  return .parse name

/-- Reads the written form. -/
def BuildType.decode : Decoding BuildType := fun j => do
  let name ← string j
  match BuildType.parse? name with
  | some t => return t
  | none => throw (.invalidBuildType name)

/-- Reads the written form. -/
def Host.decode : Decoding Host := fun j => do
  let os : Member Os := ⟨"os", Os.decode⟩
  let arch : Member Arch := ⟨"arch", Arch.decode⟩
  let given ← record [os.check, arch.check] j
  return ⟨← os.get given, ← arch.get given⟩

/-- Reads the written form. -/
def Compiler.decode : Decoding Compiler := fun j => do
  let name : Member String := ⟨"name", string⟩
  let version : Member (Option String) := ⟨"version", nullable string⟩
  let libcxx : Member (Option String) := ⟨"libcxx", nullable string⟩
  let given ← record [name.check, version.check, libcxx.check] j
  return ⟨← name.get given, ← version.find given, ← libcxx.find given⟩

/-- Reads the written form. -/
def Settings.decode : Decoding Settings := fun j => do
  let os : Member Os := ⟨"os", Os.decode⟩
  let arch : Member Arch := ⟨"arch", Arch.decode⟩
  let compiler : Member Compiler := ⟨"compiler", Compiler.decode⟩
  let buildType : Member BuildType := ⟨"build_type", BuildType.decode⟩
  let given ← record [os.check, arch.check, compiler.check, buildType.check] j
  return ⟨← os.get given, ← arch.get given, ← compiler.get given, ← buildType.get given⟩

/-! ## Declarations -/

/-- Reads the written form. -/
def Reference.decode : Decoding Reference := fun j => do
  (Reference.parse (← string j)).mapError .reference

/-- Reads the written form. -/
def Role.decode : Decoding Role := oneOf Role.all Role.label

/-- Reads the written form. -/
def Declaration.decode : Decoding Declaration := fun j => do
  let reference : Member Reference := ⟨"reference", Reference.decode⟩
  let role : Member Role := ⟨"role", Role.decode⟩
  let given ← record [reference.check, role.check] j
  return ⟨← reference.get given, ← role.get given⟩

/-! ## Layouts and verdicts -/

/-- Reads the written form. -/
def LayoutOptions.decode : Decoding LayoutOptions := fun j => do
  let sourceDir : Member Path := ⟨"source_dir", path⟩
  let outputRoot : Member Path := ⟨"output_root", path⟩
  let multiConfig : Member Bool := ⟨"multi_config", boolean⟩
  let vars : Member (List String) := ⟨"build_folder_vars", list string⟩
  let given ← record [sourceDir.check, outputRoot.check, multiConfig.check, vars.check] j
  return ⟨← sourceDir.get given, ← outputRoot.get given, ← multiConfig.get given,
    ← vars.get given⟩

/-- Reads the written form. -/
def Layout.decode : Decoding Layout := fun j => do
  let sourceDir : Member Path := ⟨"source_dir", path⟩
  let buildDir : Member Path := ⟨"build_dir", path⟩
  let generatorsDir : Member Path := ⟨"generators_dir", path⟩
  let binDirs : Member (List Path) := ⟨"bindirs", list path⟩
  let given ← record [sourceDir.check, buildDir.check, generatorsDir.check, binDirs.check] j
  return ⟨← sourceDir.get given, ← buildDir.get given, ← generatorsDir.get given,
    ← binDirs.get given⟩

/-- Reads the written form. -/
def Overrides.decode : Decoding Overrides := fun j => do
  let canRun : Member (Option Bool) := ⟨"can_run", nullable boolean⟩
  let emulators : Member (Dictionary (List String)) := ⟨"emulators", dictionary (list string)⟩
  let given ← record [canRun.check, emulators.check] j
  return ⟨← canRun.find given, ← emulators.get given⟩

/-- Reads the written form. -/
def SkipReason.decode : Decoding SkipReason := oneOf SkipReason.all SkipReason.label

end PackageTrial
