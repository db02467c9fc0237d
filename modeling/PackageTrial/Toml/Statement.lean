import PackageTrial.Toml.Token

/-!
# TOML statements

The second step of reading TOML: `Statement.ofTokens?` groups tokens into statements, by a machine
that moves by one token at a time and keeps the arrays and inline tables that are still open on a
stack. It checks signs and their order and nothing else: words keep their form, and where a part of
a key or a value is missing, a missing word stands.
-/

namespace PackageTrial.Toml

/-- The words of a key. -/
abbrev KeyWords := List Word

/-- A value as it is written. -/
inductive Expression
  | word (word : Word)
  | array (items : List Expression)
  | inline (members : List (KeyWords × Expression))

/-- A statement of a document. -/
inductive Statement
  /-- What follows belongs to the table of this key. -/
  | table (key : KeyWords)
  /-- What follows belongs to one more table of this key. -/
  | element (key : KeyWords)
  /-- A key of the current table has a value. -/
  | entry (key : KeyWords) (value : Expression)

/-- What a key is for. -/
inductive KeyUse
  | entry
  /-- A member of an inline table. -/
  | member
  | table
  | element
  deriving DecidableEq

/-- An array or inline table that is still open. -/
inductive Frame
  /-- The items so far, the latest first. -/
  | array (items : List Expression)
  /-- The members so far, the latest first, and the key of the next one. -/
  | inline (members : List (KeyWords × Expression)) (key : KeyWords)

/-- What is due. The words of keys are in reverse order. -/
inductive Mode
  /-- A statement. -/
  | line
  /-- The rest of a header, after its bracket. -/
  | header
  /-- A part of a key. -/
  | part (use : KeyUse) (done : KeyWords)
  /-- A dot, or what follows a key. -/
  | joint (use : KeyUse) (done : KeyWords)
  /-- The equals sign of a member, on a later line than its key. -/
  | sign (done : KeyWords)
  /-- The second closing bracket of a header. -/
  | closing (key : KeyWords)
  | value
  /-- More of a bare value, which is made of words with dots and blanks between them, or what
  follows it. Characters and blanks are in reverse order. -/
  | bare (chars blanks : List Char)
  /-- What follows a value inside an array or inline table. -/
  | after
  /-- The end of the line. -/
  | rest
  /-- The end of the line, whatever stands before it. -/
  | skipped

/-- How far a document has been read. -/
structure Reading where
  mode : Mode
  /-- What is still open, the innermost first. -/
  frames : List Frame
  /-- The key of the statement whose value is due. -/
  key : KeyWords
  /-- The statements so far, the latest first. -/
  done : List Statement

namespace Reading

/-- How deep arrays and inline tables may be nested. -/
def maxDepth : Nat := 80

/-- Nothing was read yet. -/
def initial : Reading := ⟨.line, [], [], []⟩

/-! ## Values -/

/-- Takes a finished value to where it belongs. -/
def give (r : Reading) (value : Expression) : Reading :=
  match r.frames with
  | [] => { r with mode := .rest, done := .entry r.key value :: r.done }
  | .array items :: outer => { r with mode := .after, frames := .array (value :: items) :: outer }
  | .inline members key :: outer =>
    { r with mode := .after, frames := .inline ((key, value) :: members) [] :: outer }

/-- Opens an array or inline table. -/
def opened (r : Reading) (frame : Frame) (mode : Mode) : Option Reading :=
  if r.frames.length < maxDepth then some { r with mode, frames := frame :: r.frames } else none

/-- Closes the innermost array. -/
def closeArray (r : Reading) : Option Reading :=
  match r.frames with
  | .array items :: outer => some ({ r with frames := outer }.give (.array items.reverse))
  | _ => none

/-- Closes the innermost inline table. -/
def closeInline (r : Reading) : Option Reading :=
  match r.frames with
  | .inline members _ :: outer => some ({ r with frames := outer }.give (.inline members.reverse))
  | _ => none

/-- Closes the innermost inline table where a value is due. -/
def closeMember (r : Reading) : Option Reading :=
  (r.give (.word .missing)).closeInline

/-! ## Keys -/

/-- Adds a statement, with the given mode for the rest of its line. -/
def add (r : Reading) (statement : Statement) (mode : Mode) : Reading :=
  { r with mode, done := statement :: r.done }

/-- The equals sign after a member's key. -/
def atSign (r : Reading) (done : KeyWords) : Option Reading :=
  match r.frames with
  | .inline members _ :: outer =>
    some { r with mode := .value, frames := .inline members done.reverse :: outer }
  | _ => none

/-- A token after a part of a key. A header whose key breaks off with a missing part is left at
that, whatever else stands on its line. -/
def atJoint (r : Reading) (use : KeyUse) (done : KeyWords) (token : Token) : Option Reading :=
  match use, token with
  | _, .blank _ => some r
  | _, .dot => some { r with mode := .part use done }
  | .entry, .equals => some { r with mode := .value, key := done.reverse }
  | .member, .equals => r.atSign done
  | .member, .newline => some { r with mode := .sign done }
  | .member, .closeBrace => do (← r.atSign done).closeMember
  | .table, .closeBracket => some (r.add (.table done.reverse) .rest)
  | .element, .closeBracket => some { r with mode := .closing done.reverse }
  | .entry, _ | .member, _ => none
  | .table, _ | .element, _ =>
    if done.head? = some .missing then
      some (r.add (.table done.reverse) (if token = .newline then .line else .skipped))
    else none

/-- A token where a part of a key is due. -/
def atPart (r : Reading) (use : KeyUse) (done : KeyWords) (token : Token) : Option Reading :=
  match token with
  | .word word => some { r with mode := .joint use (word :: done) }
  | .blank _ => some { r with mode := .part use done }
  | _ =>
    if use = .member ∧ done = [] ∧ token = .newline then some { r with mode := .part use done }
    else if use = .member ∧ done = [] ∧ token = .closeBrace then r.closeInline
    else r.atJoint use (.missing :: done) token

/-! ## Tokens -/

/-- A token after a statement. -/
def atRest (r : Reading) : Token → Option Reading
  | .blank _ => some r
  | .newline => some { r with mode := .line }
  | _ => none

/-- A token where a value is due. -/
def atValue (r : Reading) : Token → Option Reading
  | .blank _ => some r
  | .newline => if r.frames.isEmpty then (r.give (.word .missing)).atRest .newline else some r
  | .closeBracket => r.closeArray
  | .closeBrace => r.closeMember
  | .dot => some { r with mode := .bare ['.'] [] }
  | .word (.bare chars) => some { r with mode := .bare chars.reverse [] }
  | .word word => some (r.give (.word word))
  | .openBracket => r.opened (.array []) .value
  | .openBrace => r.opened (.inline [] []) (.part .member [])
  | .equals | .comma => none

/-- A token after a value inside an array or inline table. -/
def atAfter (r : Reading) (token : Token) : Option Reading :=
  match token, r.frames with
  | .blank _, _ => some r
  | .newline, _ => some r
  | .comma, .array _ :: _ => some { r with mode := .value }
  | .comma, .inline _ _ :: _ => some { r with mode := .part .member [] }
  | .closeBracket, _ => r.closeArray
  | .closeBrace, _ => r.closeInline
  | _, _ => none

/-- A token after a value. -/
def following (r : Reading) (token : Token) : Option Reading :=
  match r.mode with
  | .rest => r.atRest token
  | _ => r.atAfter token

/-- A token inside a bare value or after it. Blanks belong to the value if another bare word follows
them. -/
def atBare (r : Reading) (chars blanks : List Char) (token : Token) : Option Reading :=
  match token, blanks with
  | .blank c, _ => some { r with mode := .bare chars (c :: blanks) }
  | .dot, [] => some { r with mode := .bare ('.' :: chars) [] }
  | .word (.bare more), _ => some { r with mode := .bare (more.reverse ++ blanks ++ chars) [] }
  | _, _ => (r.give (.word (.bare chars.reverse))).following token

/-- Reads a token. -/
def step (r : Reading) (token : Token) : Option Reading :=
  match r.mode with
  | .line =>
    match token with
    | .newline | .blank _ => some r
    | .openBracket => some { r with mode := .header }
    | _ => r.atPart .entry [] token
  | .header =>
    match token with
    | .openBracket => some { r with mode := .part .element [] }
    | _ => r.atPart .table [] token
  | .part use done => r.atPart use done token
  | .joint use done => r.atJoint use done token
  | .sign done =>
    match token with
    | .blank _ | .newline => some r
    | .equals => r.atSign done
    | .closeBrace => do (← r.atSign done).closeMember
    | _ => none
  | .closing key => if token = .closeBracket then some (r.add (.element key) .rest) else none
  | .value => r.atValue token
  | .bare chars blanks => r.atBare chars blanks token
  | .after => r.atAfter token
  | .rest => r.atRest token
  | .skipped => some (if token = .newline then { r with mode := .line } else r)

/-- The statements once the tokens have ended; none in the middle of one. The end of the document
ends its last line. -/
def finish (r : Reading) : Option (List Statement) := do
  let r ← r.step .newline
  match r.mode with
  | .line => return r.done.reverse
  | _ => none

end Reading

/-- The statements of a list of tokens. -/
def Statement.ofTokens? (tokens : List Token) : Option (List Statement) := do
  (← tokens.foldlM Reading.step .initial).finish

end PackageTrial.Toml
