import PackageTrial.Dictionary
import PackageTrial.Path
import PackageTrial.Toml.Document

/-!
# From TOML values to data

A decoder accepts values of one shape. A record may be written as a table of its fields or as an
array of them in order; a table may leave out fields that have a default but may not hold others,
and an array may end early or go on after the last field. `readAs` reads a document with a decoder.
-/

namespace PackageTrial.Toml

/-- Accepts the values of one shape. -/
abbrev Decoder (α : Type) := Value → Option α

namespace Decoder

/-- A text. -/
def string : Decoder String
  | .string text => some text
  | _ => none

/-- A text that is a path. -/
def path : Decoder Path := fun v => (string v).map Path.ofString

/-- A truth value. -/
def boolean : Decoder Bool
  | .boolean b => some b
  | _ => none

/-- A natural number below a bound. -/
def natural (bound : Nat) : Decoder Nat
  | .integer (.ofNat n) => if n < bound then some n else none
  | _ => none

/-- Whatever the decoder accepts, as the value of a field that may be absent. -/
def present {α : Type} (d : Decoder α) : Decoder (Option α) := fun v => (d v).map some

/-- An array of one kind of items. -/
def list {α : Type} (d : Decoder α) : Decoder (List α)
  | .array items => items.mapM d
  | _ => none

/-- A table of one kind of members. -/
def dictionary {α : Type} (d : Decoder α) : Decoder (Dictionary α)
  | .table members => do
    let entries ← members.mapM fun m => do return (m.1, ← d m.2)
    return Dictionary.ofList entries
  | _ => none

/-! ## Records -/

/-- The fields of a record that are given. -/
abbrev Fields := List (String × Value)

/-- Reads a record with the fields of these names. -/
def record (names : List String) : Decoder Fields
  | .table members => if members.all (·.1 ∈ names) then some members else none
  | .array items => some (names.zip items)
  | _ => none

/-- A field that has a default. -/
def Fields.get {α : Type} (fields : Fields) (name : String) (d : Decoder α) (absent : α) :
    Option α :=
  match fields.find? (·.1 = name) with
  | some field => d field.2
  | none => some absent

/-- A field that has to be given. -/
def Fields.require {α : Type} (fields : Fields) (name : String) (d : Decoder α) : Option α := do
  d (← fields.find? (·.1 = name)).2

end Decoder

/-- Reads a document of the shape that the decoder accepts. -/
def readAs {α : Type} (d : Decoder α) (document : String) : Except DocumentFault α := do
  orMalformed (d (← read document))

end PackageTrial.Toml
