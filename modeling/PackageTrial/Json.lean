/-!
# JSON values and their printed form

A value, with the members of an object in the order in which they are written, and its pretty
form: two spaces of indentation for each level, empty arrays and objects on one line.
-/

namespace PackageTrial

/-- A JSON value; a number is `mantissa / 10 ^ places`. -/
inductive Json
  | null
  | bool (value : Bool)
  | number (mantissa : Int) (places : Nat)
  | string (value : String)
  | array (items : List Json)
  | object (members : List (String × Json))
  deriving Inhabited

namespace Json

/-- A whole number. -/
def int (value : Int) : Json := .number value 0

/-- A text or nothing. -/
def option (value : Option String) : Json :=
  match value with
  | some s => .string s
  | none => .null

/-- A list of texts. -/
def strings (values : List String) : Json :=
  .array (values.map .string)

/-- A lower-case hexadecimal digit. -/
def hexDigit (n : Nat) : Char :=
  if n < 10 then Char.ofNat (0x30 + n) else Char.ofNat (0x57 + n)

/-- A character inside a quoted text: quotes, backslashes and control characters are escaped. -/
def escapeChar (c : Char) : List Char :=
  if c = '"' then ['\\', '"']
  else if c = '\\' then ['\\', '\\']
  else if c = '\n' then ['\\', 'n']
  else if c = '\r' then ['\\', 'r']
  else if c = '\t' then ['\\', 't']
  else if c = '\x08' then ['\\', 'b']
  else if c = '\x0c' then ['\\', 'f']
  else if c.toNat < 0x20 then
    ['\\', 'u', '0', '0', hexDigit (c.toNat / 16), hexDigit (c.toNat % 16)]
  else [c]

/-- A quoted text. -/
def quote (s : String) : String :=
  String.ofList ('"' :: s.toList.flatMap escapeChar ++ ['"'])

/-- A number in positional notation. -/
def numberText (mantissa : Int) (places : Nat) : String :=
  if places = 0 then toString mantissa
  else
    let digits := toString mantissa.natAbs
    let padded := String.ofList (List.replicate (places + 1 - digits.length) '0') ++ digits
    let split := padded.length - places
    (if mantissa < 0 then "-" else "") ++ String.ofList (padded.toList.take split) ++ "." ++
      String.ofList (padded.toList.drop split)

/-- The line break and indentation at a level. -/
def newline (level : Nat) : String :=
  "\n" ++ String.ofList (List.replicate (2 * level) ' ')

mutual

/-- The pretty form of a value whose first line starts at the given level. -/
def prettyAt (level : Nat) : Json → String
  | .null => "null"
  | .bool true => "true"
  | .bool false => "false"
  | .number mantissa places => numberText mantissa places
  | .string s => quote s
  | .array [] => "[]"
  | .array (item :: items) =>
    "[" ++ newline (level + 1) ++ prettyAt (level + 1) item ++ prettyItems (level + 1) items ++
      newline level ++ "]"
  | .object [] => "\x7b\x7d"
  | .object ((key, value) :: members) =>
    "\x7b" ++ newline (level + 1) ++ quote key ++ ": " ++ prettyAt (level + 1) value ++
      prettyMembers (level + 1) members ++ newline level ++ "\x7d"

/-- The remaining items of an array. -/
def prettyItems (level : Nat) : List Json → String
  | [] => ""
  | item :: items => "," ++ newline level ++ prettyAt level item ++ prettyItems level items

/-- The remaining members of an object. -/
def prettyMembers (level : Nat) : List (String × Json) → String
  | [] => ""
  | (key, value) :: members =>
    "," ++ newline level ++ quote key ++ ": " ++ prettyAt level value ++
      prettyMembers level members

end

/-- The pretty form of a value. -/
def pretty (value : Json) : String := prettyAt 0 value

end Json

end PackageTrial
