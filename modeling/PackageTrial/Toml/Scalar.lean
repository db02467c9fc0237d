import PackageTrial.Toml.Digit
import PackageTrial.Toml.Value

/-!
# Bare values

Values that TOML writes without quotes and brackets: truth values, numbers and points in time. A
text that has no form of a value is none. The form of a whole number is a loose one: what follows
the first underscore counts only when somebody wants the number.
-/

namespace PackageTrial.Toml.Scalar

/-- The text after an optional sign, and whether the sign is a minus. -/
def unsigned : List Char → Bool × List Char
  | '-' :: rest => (true, rest)
  | '+' :: rest => (false, rest)
  | s => (false, s)

/-- Every underscore stands between two digits. -/
def isGrouped (isDigit : Char → Bool) (s : List Char) : Bool :=
  go false s
where
  /-- The rest of the text, when the character before it is a digit or not. -/
  go : Bool → List Char → Bool
    | _, [] => true
    | afterDigit, c :: rest =>
      if c = '_' then afterDigit && rest.head?.any isDigit && go false rest
      else go (isDigit c) rest

/-! ## Whole numbers -/

/-- The number that a sign and digits denote in a base, underscores aside, if they denote one. -/
def integer (base : Nat) (s : List Char) : Value :=
  let (negative, digits) := unsigned (s.filter (· ≠ '_'))
  if digits ≠ [] ∧ digits.all (isDigitOf base) then
    let n := numberOf base digits
    .integer (if negative then -(n : Int) else n)
  else .unreadable (String.ofList s)

/-- A whole number in another base than ten, after the letter of its base. -/
def based? (base : Nat) (s : List Char) : Option Value :=
  if s.all (fun c => c == '_' || isDigitOf base c) ∧ isGrouped (isDigitOf 16) s then
    some (integer base s)
  else none

/-- A whole number in base ten, which has digits or an underscore at its front. -/
def decimal? (s : List Char) : Option Value :=
  let (_, body) := unsigned s
  if body = ['0'] ∨ (body ≠ [] ∧ body.head? ≠ some '0' ∧ isGrouped (isDigitOf 16) s) then
    some (integer 10 s)
  else none

/-! ## Numbers with a fraction -/

/-- What follows digits and underscores, of which at least one is a digit. Digits that do not stay
alone must not begin with zero, if so wanted. -/
def digits? (leadingZero : Bool) (s : List Char) : Option (List Char) :=
  let front := s.takeWhile fun c => c.isDigit || c == '_'
  let count := front.countP Char.isDigit
  if count = 0 ∨ (1 < count ∧ ¬ leadingZero ∧ front.head? = some '0') then none
  else some (s.drop front.length)

/-- What follows the fraction, if there is one. -/
def fraction? : List Char → Option (List Char)
  | '.' :: rest => digits? true rest
  | rest => some rest

/-- What follows the exponent, if there is one. -/
def exponent? : List Char → Option (List Char)
  | 'e' :: rest | 'E' :: rest => digits? true (unsigned rest).2
  | rest => some rest

/-- A number with a fraction or an exponent. -/
def float? (s : List Char) : Option Value := do
  let rest ← exponent? (← fraction? (← digits? false (unsigned s).2))
  if rest = [] ∧ isGrouped Char.isDigit s then return .float (String.ofList s) else none

/-! ## Points in time -/

/-- Two digits at the front, within bounds, and what follows them. -/
def twoDigits? (low high : Nat) : List Char → Option (Nat × List Char)
  | a :: b :: rest =>
    let n := numberOf 10 [a, b]
    if a.isDigit ∧ b.isDigit ∧ low ≤ n ∧ n ≤ high then some (n, rest) else none
  | _ => none

/-- The days of a month. -/
def daysIn (year month : Nat) : Nat :=
  if month = 2 then
    if year % 4 = 0 ∧ (year % 100 ≠ 0 ∨ year % 400 = 0) then 29 else 28
  else if month = 4 ∨ month = 6 ∨ month = 9 ∨ month = 11 then 30
  else 31

/-- A date at the front, and what follows it. -/
def date? : List Char → Option (List Char)
  | a :: b :: c :: d :: '-' :: rest => do
    if ¬ [a, b, c, d].all Char.isDigit then none
    else match ← twoDigits? 1 12 rest with
      | (month, '-' :: rest) =>
        let (_, rest) ← twoDigits? 1 (daysIn (numberOf 10 [a, b, c, d]) month) rest
        return rest
      | _ => none
  | _ => none

/-- A fraction of a second at the front, if there is one, and what follows it. -/
def subsecond? : List Char → Option (List Char)
  | '.' :: rest => if rest.head?.any Char.isDigit then some (rest.dropWhile Char.isDigit) else none
  | rest => some rest

/-- A time of day at the front, and what follows it; seconds may be left out. -/
def time? (s : List Char) : Option (List Char) := do
  match ← twoDigits? 0 23 s with
  | (_, ':' :: rest) =>
    match ← twoDigits? 0 59 rest with
    | (_, ':' :: rest) =>
      let (_, rest) ← twoDigits? 0 60 rest
      subsecond? rest
    | (_, rest) => return rest
  | _ => none

/-- The distance from universal time, or nothing. -/
def isOffset : List Char → Bool
  | [] | ['Z'] | ['z'] => true
  | sign :: rest =>
    (sign == '+' || sign == '-') &&
      match twoDigits? 0 23 rest with
      | some (_, ':' :: rest) => (twoDigits? 0 59 rest).any (·.2 = [])
      | _ => false

/-- A date, a time, or a date with a time. -/
def isMoment (s : List Char) : Bool :=
  match date? s with
  | some [] => true
  | some (c :: rest) => (c == 'T' || c == 't' || c == ' ') && (time? rest).any isOffset
  | none => time? s == some []

/-! ## Values -/

/-- A number or a point in time, told apart by what follows the first digits. -/
def numeral? (s : List Char) : Option Value :=
  let rest := (unsigned s).2.dropWhile Char.isDigit
  if rest.head? = some '-' ∨ rest.head? = some ':' then
    if isMoment s then some (.moment (String.ofList s)) else none
  else if ' ' ∈ rest then none
  else if '.' ∈ rest ∨ 'e' ∈ rest ∨ 'E' ∈ rest then float? s
  else if rest = [] ∨ rest.head? = some '_' then decimal? s
  else none

/-- The value of a bare text. -/
def read? (s : List Char) : Option Value :=
  let body := (unsigned s).2
  if s = ['t', 'r', 'u', 'e'] then some (.boolean true)
  else if s = ['f', 'a', 'l', 's', 'e'] then some (.boolean false)
  else if body = ['i', 'n', 'f'] ∨ body = ['n', 'a', 'n'] then some (.float (String.ofList s))
  else match s with
    | '0' :: 'x' :: digits => based? 16 digits
    | '0' :: 'o' :: digits => based? 8 digits
    | '0' :: 'b' :: digits => based? 2 digits
    | _ => numeral? s

end PackageTrial.Toml.Scalar
