import Mathlib
import PackageTrial.Text.Blank

/-!
# Lower case

A character that is no ASCII letter comes from itself alone when a text is put in lower case
(`toLower_eq_iff`). So the lower case of a text holds it where the text does
(`mem_toList_lower_iff`), and is a text without letters only if it was before (`lower_eq_iff`).
Blanks are no letters, so it is the same to trim a text before or after (`trim_lower`).
-/

namespace PackageTrial.Text

theorem toLower_eq_iff {c d : Char} (hd : ¬ d.isAlpha) : c.toLower = d ↔ c = d := by
  constructor
  · rintro rfl
    rw [Char.isAlpha_toLower_eq_isAlpha] at hd
    exact (Char.toLower_eq_of_not_isUpper fun h => hd (by simp [Char.isAlpha, h])).symm
  · rintro rfl
    exact Char.toLower_eq_of_not_isUpper fun h => hd (by simp [Char.isAlpha, h])

theorem toList_lower (s : String) : (lower s).toList = s.toList.map Char.toLower := by
  simp [lower]

theorem mem_toList_lower_iff {c : Char} (hc : ¬ c.isAlpha) {s : String} :
    c ∈ (lower s).toList ↔ c ∈ s.toList := by
  simp [toList_lower, toLower_eq_iff hc]

theorem lower_eq_iff {s t : String} (ht : ∀ c ∈ t.toList, ¬ c.isAlpha) : lower s = t ↔ s = t := by
  rw [← String.toList_inj, ← String.toList_inj, toList_lower]
  generalize s.toList = l
  generalize t.toList = m at ht
  induction l generalizing m with
  | nil => simp
  | cons c l ih =>
    cases m with
    | nil => simp
    | cons d m =>
      obtain ⟨hd, hm⟩ := List.forall_mem_cons.1 ht
      rw [List.map_cons, List.cons.injEq, List.cons.injEq, toLower_eq_iff hd, ih m hm]

theorem lower_eq_empty_iff {s : String} : lower s = "" ↔ s = "" :=
  lower_eq_iff (by simp)

theorem lower_lower (s : String) : lower (lower s) = lower s := by
  simp [lower, Function.comp_def]

/-! ## Blanks -/

theorem isBlank_of_isAlpha {c : Char} (h : c.isAlpha) : isBlank c = false := by
  simp only [Char.isAlpha, Char.isUpper, Char.isLower, Bool.or_eq_true, Bool.and_eq_true,
    decide_eq_true_eq, ge_iff_le, UInt32.le_iff_toNat_le] at h
  change 65 ≤ c.toNat ∧ c.toNat ≤ 90 ∨ 97 ≤ c.toNat ∧ c.toNat ≤ 122 at h
  simp only [isBlank, Bool.or_eq_false_iff, Bool.and_eq_false_iff, decide_eq_false_iff_not,
    beq_eq_false_iff_ne]
  omega

theorem isBlank_toLower (c : Char) : isBlank c.toLower = isBlank c := by
  by_cases h : c.isAlpha
  · rw [isBlank_of_isAlpha h, isBlank_of_isAlpha (by rwa [Char.isAlpha_toLower_eq_isAlpha])]
  · rw [Char.toLower_eq_of_not_isUpper fun hupper => h (by simp [Char.isAlpha, hupper])]

theorem trimBlanks_map_toLower (s : List Char) :
    trimBlanks (s.map Char.toLower) = (trimBlanks s).map Char.toLower := by
  have hblank : isBlank ∘ Char.toLower = isBlank := funext isBlank_toLower
  simp only [trimBlanks, List.dropWhile_map, ← List.map_reverse, hblank]

theorem trim_lower (s : String) : trim (lower s) = lower (trim s) := by
  simp [trim, lower, trimBlanks_map_toLower]

end PackageTrial.Text
