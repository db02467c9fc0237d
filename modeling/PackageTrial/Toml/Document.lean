import PackageTrial.Toml.Statement
import PackageTrial.Toml.Table

/-!
# TOML documents

`read` reads a document: its characters become tokens, its tokens statements, and the statements one
table. A document whose signs are out of order is refused as a whole; otherwise the first fault in
reading order counts. The words of a key or a value are read when the statement is carried out.
-/

namespace PackageTrial.Toml

/-- What there is, where nothing else would do. -/
def orMalformed {α : Type} : Option α → Except DocumentFault α
  | some a => .ok a
  | none => .error .malformed

/-! ## Keys and values -/

/-- How many parts a key may have. -/
def maxKeyParts : Nat := 80

/-- The parts of a key. -/
def keyPath (words : KeyWords) : Except DocumentFault (List String) := do
  let parts ← words.mapM fun word => orMalformed word.key?
  if maxKeyParts < parts.length then throw .deepKey else return parts

mutual

/-- The value of an expression. -/
def Expression.value : Expression → Except DocumentFault Value
  | .word word => orMalformed word.value?
  | .array items => do return .array (← itemValues [] items)
  | .inline members => do return .table (membersValue (← inlineMembers [] members))

/-- The values of the items of an array, after those of earlier items in reverse order. -/
def itemValues (done : List Value) : List Expression → Except DocumentFault (List Value)
  | [] => .ok done.reverse
  | item :: rest => do itemValues ((← item.value) :: done) rest

/-- The members of an inline table, after earlier ones. -/
def inlineMembers (done : Members) : List (KeyWords × Expression) → Except DocumentFault Members
  | [] => .ok done
  | (words, expression) :: rest => do
    let path ← keyPath words
    let value ← expression.value
    inlineMembers (← orMalformed (done.assign value path)) rest

end

/-! ## The table of a document -/

/-- A table under construction. -/
structure Draft where
  members : Members
  /-- The path to the table to which entries belong. -/
  current : List String
  /-- The members of that table if there is no place for it, which counts once it is complete. -/
  astray : Option Members

namespace Draft

/-- Nothing was carried out yet. -/
def initial : Draft := ⟨[], [], none⟩

/-- The members, once the current table is complete. -/
def completed (d : Draft) : Except DocumentFault Members :=
  if d.astray.isSome then .error .malformed else .ok d.members

/-- Splits a path before its last part. -/
def splitLast? : List String → Option (List String × String)
  | [] => none
  | [key] => some ([], key)
  | part :: rest => (splitLast? rest).map fun (path, key) => (part :: path, key)

/-- Changes the table that is to hold the one of the given path. -/
def place? (members : Members) (path : List String) (change : String → Members → Option Members) :
    Option Members := do
  let (above, key) ← splitLast? path
  members.atPath (change key) above

/-- Carries out a statement. -/
def apply (d : Draft) : Statement → Except DocumentFault Draft
  | .table words => do
    let members ← d.completed
    let path ← keyPath words
    return ⟨← orMalformed (place? members path Members.declare), path, none⟩
  | .element words => do
    let members ← d.completed
    let path ← keyPath words
    match place? members path Members.begin with
    | some members => return ⟨members, path, none⟩
    | none => return ⟨members, path, some []⟩
  | .entry words expression => do
    let path ← keyPath words
    let value ← expression.value
    match d.astray with
    | none =>
      let members ← orMalformed (d.members.atPath (Members.assign value path) d.current)
      return { d with members }
    | some inner => return { d with astray := some (← orMalformed (inner.assign value path)) }

end Draft

/-- Reads a document. -/
def read (document : String) : Except DocumentFault Value := do
  let statements ← orMalformed ((Token.scan? document.toList).bind Statement.ofTokens?)
  let draft ← statements.foldlM Draft.apply .initial
  return .table (membersValue (← draft.completed))

end PackageTrial.Toml
