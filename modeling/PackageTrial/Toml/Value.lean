/-!
# TOML values

What a TOML document holds, and why a text is no document. Numbers with a fraction and points in
time are kept as they are written.
-/

namespace PackageTrial.Toml

/-- A TOML value. The members of a table have different keys and stand in the order of their first
mention. -/
inductive Value
  | string (text : String)
  | integer (value : Int)
  /-- What has the form of a whole number but denotes none; nobody can use it. -/
  | unreadable (text : String)
  /-- A number with a fraction, an exponent or no bound. -/
  | float (text : String)
  | boolean (value : Bool)
  /-- A date, a time of day or both. -/
  | moment (text : String)
  | array (items : List Value)
  | table (members : List (String × Value))
  deriving Inhabited

/-- Why a text is no document of the wanted shape. -/
inductive DocumentFault
  | malformed
  /-- A key has too many parts. -/
  | deepKey
  deriving DecidableEq

/-- The fault in words. -/
def DocumentFault.message : DocumentFault → String
  | .malformed => "TOML parse error"
  | .deepKey => "recursion limit\n"

end PackageTrial.Toml
