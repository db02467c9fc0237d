/-!
# Blank characters

The characters with the Unicode property White_Space, and removing them from both ends of a text.
The lengths of texts are counted elsewhere in bytes; blanks are recognised by character.
-/

namespace PackageTrial.Text

/-- The code points with the property White_Space: twenty-five of them, in two runs and singles. -/
def isBlank (c : Char) : Bool :=
  let n := c.toNat
  (9 ≤ n && n ≤ 13) || n == 0x20 || n == 0x85 || n == 0xA0 || n == 0x1680 ||
    (0x2000 ≤ n && n ≤ 0x200A) || n == 0x2028 || n == 0x2029 || n == 0x202F || n == 0x205F ||
    n == 0x3000

/-- The characters between the first and the last that is not blank. -/
def trimBlanks (s : List Char) : List Char :=
  ((s.dropWhile isBlank).reverse.dropWhile isBlank).reverse

/-- The text without leading and trailing blanks. -/
def trim (s : String) : String :=
  String.ofList (trimBlanks s.toList)

/-- The text without trailing blanks. -/
def trimEnd (s : String) : String :=
  String.ofList (s.toList.reverse.dropWhile isBlank).reverse

/-- Nothing remains of the text once its blanks are trimmed. -/
def isBlankText (s : String) : Bool :=
  s.toList.all isBlank

/-- The text in ASCII lower case; other letters keep their case. -/
def lower (s : String) : String :=
  String.ofList (s.toList.map Char.toLower)

end PackageTrial.Text
