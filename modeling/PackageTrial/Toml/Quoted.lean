import PackageTrial.Toml.Digit

/-!
# Quoted text

`Quotes.read?` reads what stands between quotes. Single quotes take it as it is, double quotes know
escapes; tripled quotes admit line breaks, of which one at the beginning does not count. Control
characters other than the tab have to be escaped.
-/

namespace PackageTrial.Toml

/-- The quotes around a text. -/
structure Quotes where
  mark : Char
  tripled : Bool
  deriving DecidableEq

/-- A control character other than the tab. -/
def isControl (c : Char) : Bool :=
  (c.toNat < 0x20 && c != '\t') || c.toNat == 0x7F

namespace Quotes

/-- A character that begins quoted text. -/
def isMark (c : Char) : Bool :=
  c == '\x22' || c == '\x27'

/-- A backslash between these quotes begins an escape. -/
def knowsEscapes (quotes : Quotes) : Bool :=
  quotes.mark == '\x22'

/-! ## Escapes -/

/-- The character that a one-letter escape stands for. -/
def escaped? (c : Char) : Option Char :=
  if c = 'b' then some '\x08'
  else if c = 't' then some '\t'
  else if c = 'n' then some '\n'
  else if c = 'f' then some '\x0c'
  else if c = 'r' then some '\r'
  else if c = 'e' then some '\x1b'
  else if c = '\x22' ∨ c = '\\' then some c
  else none

/-- How many digits follow the letter of a numeric escape. -/
def escapeDigits? (c : Char) : Option Nat :=
  if c = 'x' then some 2
  else if c = 'u' then some 4
  else if c = 'U' then some 8
  else none

/-- The character of a code point; surrogates have none. -/
def charOf? (n : Nat) : Option Char :=
  if n.isValidChar then some (Char.ofNat n) else none

/-! ## Reading -/

/-- Where the reading of a text is. -/
inductive Place
  | plain
  /-- After a carriage return, which only a line feed may follow. -/
  | carriage
  /-- After a backslash. -/
  | escape
  /-- Inside a numeric escape, with the digits that are due and the value so far. -/
  | digits (due value : Nat)
  /-- After a backslash at the end of a line, once the line break was seen. -/
  | continued (broken : Bool)
  /-- There, after a carriage return. -/
  | continuedCarriage

/-- Where the reading is, and the text so far in reverse order. -/
abbrev Reading := Place × List Char

/-- One character that is not escaped. -/
def plain (quotes : Quotes) (text : List Char) (c : Char) : Option Reading :=
  if c = '\\' ∧ quotes.knowsEscapes then some (.escape, text)
  else if c = '\n' ∧ quotes.tripled then some (.plain, c :: text)
  else if c = '\r' ∧ quotes.tripled then some (.carriage, c :: text)
  else if isControl c then none
  else some (.plain, c :: text)

/-- One character after a backslash. -/
def escape (quotes : Quotes) (text : List Char) (c : Char) : Option Reading :=
  match escaped? c with
  | some d => some (.plain, d :: text)
  | none =>
    match escapeDigits? c with
    | some due => some (.digits due 0, text)
    | none =>
      if ¬ quotes.tripled then none
      else if c = ' ' ∨ c = '\t' then some (.continued false, text)
      else if c = '\n' then some (.continued true, text)
      else if c = '\r' then some (.continuedCarriage, text)
      else none

/-- One digit of a numeric escape. -/
def digit (text : List Char) (due value : Nat) (c : Char) : Option Reading := do
  let value := 16 * value + (← digitValue? c)
  if due ≤ 1 then return (.plain, (← charOf? value) :: text)
  else return (.digits (due - 1) value, text)

/-- One character. -/
def step (quotes : Quotes) : Reading → Char → Option Reading
  | (.plain, text), c => plain quotes text c
  | (.carriage, text), c => if c = '\n' then some (.plain, c :: text) else none
  | (.escape, text), c => escape quotes text c
  | (.digits due value, text), c => digit text due value c
  | (.continued broken, text), c =>
    if c = ' ' ∨ c = '\t' then some (.continued broken, text)
    else if c = '\n' then some (.continued true, text)
    else if c = '\r' then some (.continuedCarriage, text)
    else if broken then plain quotes text c
    else none
  | (.continuedCarriage, text), c => if c = '\n' then some (.continued true, text) else none

/-- The text once its end is reached; none in the middle of an escape. -/
def finish : Reading → Option String
  | (.plain, text) | (.continued true, text) => some (String.ofList text.reverse)
  | _ => none

/-- What counts of the characters between the quotes. -/
def content (quotes : Quotes) (body : List Char) : List Char :=
  match quotes.tripled, body with
  | true, '\n' :: rest => rest
  | true, '\r' :: '\n' :: rest => rest
  | _, _ => body

/-- Reads the characters between the quotes. -/
def read? (quotes : Quotes) (body : List Char) : Option String := do
  finish (← (quotes.content body).foldlM (step quotes) (.plain, []))

end Quotes

end PackageTrial.Toml
