import PackageTrial.Toml.Quoted
import PackageTrial.Toml.Scalar

/-!
# TOML tokens

The first step of reading TOML: `Token.scan?` cuts a document into tokens, one character at a time,
and drops comments. Words are cut out without a look inside: a bare word ends at a character that
means something to TOML, quoted text at its quotes. What a word is, a key or a value, depends on its
place, and whether it makes one is found later (`Word.key?`, `Word.value?`).
-/

namespace PackageTrial.Toml

/-! ## Words -/

/-- What may be a part of a key or a value. -/
inductive Word
  /-- Characters without quotes. -/
  | bare (chars : List Char)
  /-- Characters between quotes, which are open at the end when the line or the document ended
  first. -/
  | quoted (quotes : Quotes) (body : List Char) (closed : Bool)
  deriving DecidableEq

namespace Word

/-- The word that stands where there is none. -/
def missing : Word := .bare []

/-- A character of a key without quotes. -/
def isKeyChar (c : Char) : Bool :=
  c.isAlphanum || c == '_' || c == '-'

/-- The part of a key that the word makes. -/
def key? : Word → Option String
  | .bare chars =>
    if chars ≠ [] ∧ chars.all isKeyChar then some (String.ofList chars) else none
  | .quoted quotes body closed =>
    if closed ∧ ¬ quotes.tripled then quotes.read? body else none

/-- The value that the word makes. -/
def value? : Word → Option Value
  | .bare chars => Scalar.read? chars
  | .quoted quotes body closed => if closed then (quotes.read? body).map .string else none

end Word

/-! ## Tokens -/

/-- A token. -/
inductive Token
  | newline
  /-- A space or a tab. -/
  | blank (char : Char)
  | dot
  | equals
  | comma
  | openBracket
  | closeBracket
  | openBrace
  | closeBrace
  | word (word : Word)
  deriving DecidableEq

namespace Token

/-- The token of a character that stands for itself. -/
def ofChar? (c : Char) : Option Token :=
  if c = '\n' then some .newline
  else if c = ' ' ∨ c = '\t' then some (.blank c)
  else if c = '.' then some .dot
  else if c = '=' then some .equals
  else if c = ',' then some .comma
  else if c = '[' then some .openBracket
  else if c = ']' then some .closeBracket
  else if c = '\x7b' then some .openBrace
  else if c = '\x7d' then some .closeBrace
  else none

/-- A character that ends a bare word. -/
def isDelimiter (c : Char) : Bool :=
  (ofChar? c).isSome || c == '#' || c == '\r'

/-! ## Scanning -/

/-- Where the scanner is. Characters read so far are in reverse order. -/
inductive Place
  /-- Between tokens. -/
  | ground
  /-- After a carriage return, which only a line feed may follow. -/
  | carriage
  | comment
  | bare (chars : List Char)
  /-- After one or two quotes that begin a text. -/
  | opening (mark : Char) (two : Bool)
  | text (quotes : Quotes) (chars : List Char)
  /-- After a backslash inside a text. -/
  | escape (quotes : Quotes) (chars : List Char)
  /-- After quotes in a row inside tripled quotes. -/
  | closing (mark : Char) (chars : List Char) (count : Nat)

/-- The scanner's state: where it is, and the tokens so far in reverse order. -/
abbrev Scan := Place × List Token

/-- The token of a bare word whose characters were collected in reverse. -/
def bareWord (chars : List Char) : Token := .word (.bare chars.reverse)

/-- The token of quoted text whose characters were collected in reverse. -/
def quotedWord (quotes : Quotes) (chars : List Char) (closed : Bool) : Token :=
  .word (.quoted quotes chars.reverse closed)

/-- The token of a text that ends with quotes in a row; the last three do not belong to it. -/
def closedWord (mark : Char) (chars : List Char) (count : Nat) : Token :=
  quotedWord ⟨mark, true⟩ (List.replicate (count - 3) mark ++ chars) true

/-- One character between tokens. -/
def ground (out : List Token) (c : Char) : Option Scan :=
  match ofChar? c with
  | some token => some (.ground, token :: out)
  | none =>
    if c = '\r' then some (.carriage, out)
    else if c = '#' then some (.comment, out)
    else if Quotes.isMark c then some (.opening c false, out)
    else some (.bare [c], out)

/-- One character inside a text. -/
def inText (out : List Token) (quotes : Quotes) (chars : List Char) (c : Char) : Option Scan :=
  if c = quotes.mark then
    if quotes.tripled then some (.closing quotes.mark chars 1, out)
    else some (.ground, quotedWord quotes chars true :: out)
  else if c = '\n' ∧ ¬ quotes.tripled then ground (quotedWord quotes chars false :: out) c
  else if c = '\\' ∧ quotes.knowsEscapes then some (.escape quotes (c :: chars), out)
  else some (.text quotes (c :: chars), out)

/-- One character of the document. -/
def step : Scan → Char → Option Scan
  | (.ground, out), c => ground out c
  | (.carriage, out), c => if c = '\n' then some (.ground, .newline :: out) else none
  | (.comment, out), c =>
    if c = '\n' ∨ c = '\r' then ground out c
    else if isControl c then none
    else some (.comment, out)
  | (.bare chars, out), c =>
    if isDelimiter c then ground (bareWord chars :: out) c
    else some (.bare (c :: chars), out)
  | (.opening mark two, out), c =>
    if c = mark then some (if two then .text ⟨mark, true⟩ [] else .opening mark true, out)
    else if two then ground (quotedWord ⟨mark, false⟩ [] true :: out) c
    else inText out ⟨mark, false⟩ [] c
  | (.text quotes chars, out), c => inText out quotes chars c
  | (.escape quotes chars, out), c =>
    if c = '\\' ∨ c = quotes.mark then some (.text quotes (c :: chars), out)
    else inText out quotes chars c
  | (.closing mark chars count, out), c =>
    if c = mark ∧ count < 5 then some (.closing mark chars (count + 1), out)
    else if count < 3 then inText out ⟨mark, true⟩ (List.replicate count mark ++ chars) c
    else ground (closedWord mark chars count :: out) c

/-- The tokens once the document has ended; none after a lone carriage return. -/
def finish : Scan → Option (List Token)
  | (.ground, out) | (.comment, out) => some out.reverse
  | (.carriage, _) => none
  | (.bare chars, out) => some (bareWord chars :: out).reverse
  | (.opening mark two, out) => some (quotedWord ⟨mark, false⟩ [] two :: out).reverse
  | (.text quotes chars, out) | (.escape quotes chars, out) =>
    some (quotedWord quotes chars false :: out).reverse
  | (.closing mark chars count, out) =>
    if count < 3 then some (quotedWord ⟨mark, true⟩ chars false :: out).reverse
    else some (closedWord mark chars count :: out).reverse

/-- The document's tokens, after a byte order mark. A lone carriage return and control characters
in comments are no part of any document. -/
def scan? (document : List Char) : Option (List Token) := do
  let chars := match document with
    | '\uFEFF' :: rest => rest
    | all => all
  finish (← chars.foldlM step (.ground, []))

end Token

end PackageTrial.Toml
