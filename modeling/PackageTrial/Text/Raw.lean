/-!
# Raw text

The system hands over names and values as bytes that need not be UTF-8. `RawText.text?` reads them
when they are; `RawText.display` always shows something, with the replacement character in place of
each longest run of bytes that could have begun a character.
-/

namespace PackageTrial

/-- Bytes as the system holds them in file names, arguments and environment variables. -/
abbrev RawText := List UInt8

namespace RawText

/-- The UTF-8 bytes of a text. -/
def ofString (s : String) : RawText :=
  s.toUTF8.data.toList

/-- The text, when the bytes are UTF-8. -/
def text? (b : RawText) : Option String :=
  String.fromUTF8? b.toByteArray

/-- What a leading byte announces: its own bits, how many bytes follow, and the bounds of the first
of them. The bounds exclude overlong forms, surrogates and values past the last code point. -/
structure Lead where
  bits : Nat
  tails : Nat
  low : UInt8
  high : UInt8

/-- The announcement of a leading byte; none for a byte that cannot lead. -/
def lead (b : UInt8) : Option Lead :=
  if b ≤ 0x7F then some ⟨b.toNat, 0, 0, 0⟩
  else if 0xC2 ≤ b && b ≤ 0xDF then some ⟨b.toNat - 0xC0, 1, 0x80, 0xBF⟩
  else if b == 0xE0 then some ⟨0, 2, 0xA0, 0xBF⟩
  else if b == 0xED then some ⟨0xD, 2, 0x80, 0x9F⟩
  else if 0xE1 ≤ b && b ≤ 0xEF then some ⟨b.toNat - 0xE0, 2, 0x80, 0xBF⟩
  else if b == 0xF0 then some ⟨0, 3, 0x90, 0xBF⟩
  else if 0xF1 ≤ b && b ≤ 0xF3 then some ⟨b.toNat - 0xF0, 3, 0x80, 0xBF⟩
  else if b == 0xF4 then some ⟨4, 3, 0x80, 0x8F⟩
  else none

/-- The longest run of at most `n` continuation bytes, the first of them within the bounds. -/
def continuation : Nat → UInt8 → UInt8 → List UInt8 → List UInt8
  | n + 1, low, high, b :: rest =>
    if low ≤ b && b ≤ high then b :: continuation n 0x80 0xBF rest else []
  | _, _, _, _ => []

/-- The character at the front of `b :: rest`, and how many bytes of `rest` it takes. -/
def firstChar (b : UInt8) (rest : List UInt8) : Char × Nat :=
  match lead b with
  | none => ('\uFFFD', 0)
  | some l =>
    let t := continuation l.tails l.low l.high rest
    if t.length = l.tails then
      (Char.ofNat (t.foldl (fun acc x => acc * 64 + (x.toNat - 0x80)) l.bits), t.length)
    else ('\uFFFD', t.length)

/-- The characters of the bytes, with replacement characters for what is no character. -/
def repaired : List UInt8 → List Char
  | [] => []
  | b :: rest =>
    let (c, n) := firstChar b rest
    c :: repaired (rest.drop n)
termination_by b => b.length
decreasing_by simp only [List.length_drop, List.length_cons]; omega

/-- The bytes as text for people: themselves when they are UTF-8, else repaired. -/
def display (b : RawText) : String :=
  match text? b with
  | some s => s
  | none => String.ofList (repaired b)

/-- The byte order, in which absence of further bytes comes first. -/
def before (a b : RawText) : Bool :=
  decide (a < b)

/-- A NUL byte ends every text that is passed to the system, so none can hold one. -/
def hasNul (b : RawText) : Bool :=
  b.contains 0

theorem text?_ofString (s : String) : text? (ofString s) = some s := by
  have h : (ofString s).toByteArray = s.toByteArray := by
    apply ByteArray.ext
    simp [ofString, List.data_toByteArray]
  unfold text? String.fromUTF8?
  rw [h, dif_pos s.isValidUTF8]
  rfl

theorem display_ofString (s : String) : display (ofString s) = s := by
  simp [display, text?_ofString]

end RawText

end PackageTrial
