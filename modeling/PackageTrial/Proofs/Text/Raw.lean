import PackageTrial.Text.Raw

/-!
# Bytes of texts

The bytes of a text are those of its characters in turn (`ofString_eq_flatMap`), and they determine
the text (`ofString_injective`). Every byte of a character outside of ASCII is 0x80 or more
(`le_of_mem_utf8EncodeChar`), so a byte below stands for the character of that code wherever it
occurs (`mem_ofString_iff`).
-/

namespace PackageTrial.RawText

theorem ofString_injective : Function.Injective ofString := by
  intro s t h
  have htext := congrArg text? h
  simpa only [text?_ofString, Option.some.injEq] using htext

theorem ofString_of_text? {b : RawText} {s : String} (h : text? b = some s) : ofString s = b := by
  unfold text? String.fromUTF8? at h
  split at h
  · cases h
    exact congrArg Array.toList List.data_toByteArray
  · cases h

theorem ofString_eq_flatMap (s : String) : ofString s = s.toList.flatMap String.utf8EncodeChar := by
  have h : s.toByteArray = (s.toList.flatMap String.utf8EncodeChar).toByteArray :=
    String.utf8Encode_toList.symm
  simp [ofString, h, List.data_toByteArray]

theorem ofString_eq_nil_iff {s : String} : ofString s = [] ↔ s = "" :=
  ofString_injective.eq_iff' (by decide)

theorem le_of_mem_utf8EncodeChar {c : Char} (hc : 128 ≤ c.toNat) {b : UInt8}
    (h : b ∈ String.utf8EncodeChar c) : 0x80 ≤ b := by
  have hbyte : ∀ n : Nat, 128 ≤ n → n < 256 → 0x80 ≤ UInt8.ofNat n := by
    intro n hn hn'
    rw [UInt8.le_iff_toNat_le, UInt8.toNat_ofNat', Nat.mod_eq_of_lt hn']
    exact hn
  have hval : c.toNat = c.val.toNat := rfl
  simp only [String.utf8EncodeChar, if_neg (show ¬ c.val.toNat ≤ 127 by omega)] at h
  split at h
  · simp only [List.mem_cons, List.not_mem_nil, or_false] at h
    rcases h with rfl | rfl <;> exact hbyte _ (by omega) (by omega)
  split at h
  · simp only [List.mem_cons, List.not_mem_nil, or_false] at h
    rcases h with rfl | rfl | rfl <;> exact hbyte _ (by omega) (by omega)
  · simp only [List.mem_cons, List.not_mem_nil, or_false] at h
    rcases h with rfl | rfl | rfl | rfl <;> exact hbyte _ (by omega) (by omega)

theorem utf8EncodeChar_of_lt {c : Char} (hc : c.toNat < 128) :
    String.utf8EncodeChar c = [UInt8.ofNat c.toNat] := by
  have hval : c.toNat = c.val.toNat := rfl
  simp only [String.utf8EncodeChar, hval, if_pos (show c.val.toNat ≤ 127 by omega)]

/-- The byte of an ASCII character belongs to no other character. -/
theorem mem_utf8EncodeChar_iff {b : UInt8} (hb : b < 0x80) {c : Char} :
    b ∈ String.utf8EncodeChar c ↔ c.toNat = b.toNat := by
  have hb' : b.toNat < 128 := UInt8.lt_iff_toNat_lt.1 hb
  by_cases hc : 128 ≤ c.toNat
  · refine iff_of_false (fun h => ?_) (by omega)
    exact UInt8.not_lt.2 (le_of_mem_utf8EncodeChar hc h) hb
  · rw [utf8EncodeChar_of_lt (Nat.not_le.1 hc), List.mem_singleton, ← UInt8.toNat_inj,
      UInt8.toNat_ofNat', Nat.mod_eq_of_lt (by omega), eq_comm]

theorem mem_ofString_iff {b : UInt8} (hb : b < 0x80) {s : String} :
    b ∈ ofString s ↔ ∃ c ∈ s.toList, c.toNat = b.toNat := by
  simp only [ofString_eq_flatMap, List.mem_flatMap, mem_utf8EncodeChar_iff hb]

end PackageTrial.RawText
