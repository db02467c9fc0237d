import PackageTrial.Text.Blank
import PackageTrial.Text.Cut

/-!
# Package references

A reference names one published package: `name/version`, then `@user/channel` when the package
lives in a namespace, then `#revision` when one recipe revision is meant. `Reference.parse` reads
the written form around blanks; `Reference.text` writes it. The parts are restricted so that each
can be a directory name and so that the separators can be told from the parts.
-/

namespace PackageTrial

/-- The namespace of a package. -/
structure Scope where
  user : String
  channel : String
  deriving DecidableEq, Ord, Inhabited

/-- The identity of a package. The derived order compares the parts in this order by code point,
with an absent part before a present one. -/
structure Reference where
  name : String
  version : String
  scope : Option Scope
  revision : Option String
  deriving DecidableEq, Ord, Inhabited

/-- The parts of a reference other than its name. -/
inductive Segment
  | version
  | user
  | channel
  | revision
  deriving DecidableEq

/-- The part's name in messages. -/
def Segment.label : Segment → String
  | .version => "version"
  | .user => "user"
  | .channel => "channel"
  | .revision => "revision"

/-- Why a text is no reference. -/
inductive ReferenceError
  /-- Only blanks. -/
  | empty
  /-- No `/` before the namespace. -/
  | missingVersion (text : String)
  /-- The name breaks the naming rules. -/
  | invalidName (name : String)
  /-- A part breaks the rules for parts. -/
  | invalidSegment (segment : Segment) (value : String)
  /-- A namespace without `/`. -/
  | incompleteScope (text : String)
  deriving DecidableEq

/-- The message for people. -/
def ReferenceError.message : ReferenceError → String
  | .empty => "package reference must not be empty"
  | .missingVersion text => s!"package reference '{text}' must have the form name/version"
  | .invalidName name => s!"invalid package name '{name}'"
  | .invalidSegment segment value =>
    "invalid " ++ segment.label ++ s!" '{value}' in package reference"
  | .incompleteScope text => s!"package reference '{text}' must specify both user and channel"

namespace Reference

/-! ## The rules for the parts -/

/-- A lower-case ASCII letter or a digit. -/
def isLowerAlphanumeric (c : Char) : Bool :=
  ('a' ≤ c && c ≤ 'z') || ('0' ≤ c && c ≤ '9')

/-- A character that a name may hold. -/
def isNameChar (c : Char) : Bool :=
  isLowerAlphanumeric c || c == '-' || c == '_' || c == '.' || c == '+'

/-- A name: 2 to 101 bytes, all of them name characters, the first a letter or digit. -/
def isName (s : String) : Bool :=
  2 ≤ s.utf8ByteSize && s.utf8ByteSize ≤ 101 && s.toList.head?.any isLowerAlphanumeric &&
    s.toList.all isNameChar

/-- A character that would be taken for a separator or a blank. -/
def isDelimiter (c : Char) : Bool :=
  Text.isBlank c || c == '/' || c == '@' || c == '#' || c == '\\'

/-- A version, user or channel: 1 to 128 bytes, not only dots, no delimiter. -/
def isSegment (s : String) : Bool :=
  s != "" && s.utf8ByteSize ≤ 128 && !s.toList.all (· == '.') && !s.toList.any isDelimiter

/-- An ASCII letter or digit. -/
def isAlphanumeric (c : Char) : Bool :=
  ('a' ≤ c && c ≤ 'z') || ('A' ≤ c && c ≤ 'Z') || ('0' ≤ c && c ≤ '9')

/-- A revision: 1 to 128 ASCII letters and digits. -/
def isRevision (s : String) : Bool :=
  s != "" && s.utf8ByteSize ≤ 128 && s.toList.all isAlphanumeric

/-- Accepts a name. -/
def checkName (s : String) : Except ReferenceError Unit :=
  if isName s then .ok () else .error (.invalidName s)

/-- Accepts a version, user or channel. -/
def checkSegment (segment : Segment) (s : String) : Except ReferenceError Unit :=
  if isSegment s then .ok () else .error (.invalidSegment segment s)

/-- Accepts a revision. -/
def checkRevision (s : String) : Except ReferenceError Unit :=
  if isRevision s then .ok () else .error (.invalidSegment .revision s)

/-! ## Reading and writing -/

/-- The part before the first separator, and the part after it when there is one. -/
def splitOptional (sep : Char) (s : String) : String × Option String :=
  match Text.cut sep s with
  | some (before, after) => (before, some after)
  | none => (s, none)

/-- Reads the namespace of the reference `whole`. -/
def parseScope (whole : String) : Option String → Except ReferenceError (Option Scope)
  | none => .ok none
  | some written =>
    match Text.cut '/' written with
    | none => .error (.incompleteScope whole)
    | some (user, channel) => do
      checkSegment .user user
      checkSegment .channel channel
      return some ⟨user, channel⟩

/-- Reads a reference. The revision is what follows the first `#`, the namespace what follows the
first `@` before it, the version what follows the first `/` before that. -/
def parse (raw : String) : Except ReferenceError Reference := do
  let whole := Text.trim raw
  if whole = "" then throw .empty
  let (body, revision) := splitOptional '#' whole
  let (pair, written) := splitOptional '@' body
  match Text.cut '/' pair with
  | none => throw (.missingVersion whole)
  | some (name, version) =>
    checkName name
    checkSegment .version version
    let scope ← parseScope whole written
    if let some r := revision then checkRevision r
    return ⟨name, version, scope, revision⟩

/-- Writes a reference. -/
def text (r : Reference) : String :=
  let scope := match r.scope with
    | some s => "@" ++ s.user ++ "/" ++ s.channel
    | none => ""
  let revision := match r.revision with
    | some v => "#" ++ v
    | none => ""
  r.name ++ "/" ++ r.version ++ scope ++ revision

/-- The same package, whatever its revision. -/
def withoutRevision (r : Reference) : Reference :=
  { r with revision := none }

/-- The order of references as a test. -/
def le (a b : Reference) : Bool :=
  (compare a b).isLE

end Reference

end PackageTrial
