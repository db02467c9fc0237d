import PackageTrial.Proofs.Reference.RoundTrip

/-!
# The rules of written references

The rules for the parts of a reference, told by alphabets and sizes and not by the checks that
reading makes (`Reference.Conforms`). The references that keep them are the well-formed ones
(`conforms_iff_wellFormed`), so a text is read as a reference exactly when the reference keeps the
rules and its text is what remains of the text without the blanks at its ends
(`parse_characterized`).
-/

namespace PackageTrial.Reference

/-! ## Alphabets -/

/-- The characters that a name may begin with. -/
def lowerAlphanumerics : List Char := "abcdefghijklmnopqrstuvwxyz0123456789".toList

/-- The characters of names. -/
def nameAlphabet : List Char := lowerAlphanumerics ++ "-_.+".toList

/-- The characters of revisions. -/
def revisionAlphabet : List Char := lowerAlphanumerics ++ "ABCDEFGHIJKLMNOPQRSTUVWXYZ".toList

/-- The characters that no version, user or channel holds, besides blanks. -/
def separators : List Char := ['/', '@', '#', '\\']

/-- The characters from one to another, by their code points. -/
theorem mem_of_between {low high : Nat} {alphabet : List Char}
    (hall : ∀ n < high + 1 - low, Char.ofNat (low + n) ∈ alphabet) {c : Char}
    (hlow : low ≤ c.toNat) (hhigh : c.toNat ≤ high) : c ∈ alphabet := by
  have hmem := hall (c.toNat - low) (by omega)
  rwa [show low + (c.toNat - low) = c.toNat by omega, Char.ofNat_toNat] at hmem

theorem isLowerAlphanumeric_iff {c : Char} :
    isLowerAlphanumeric c = true ↔ c ∈ lowerAlphanumerics := by
  constructor
  · intro h
    simp only [isLowerAlphanumeric, Bool.or_eq_true, Bool.and_eq_true, decide_eq_true_eq,
      Char.le_def, UInt32.le_iff_toNat_le] at h
    rcases h with ⟨hlow, hhigh⟩ | ⟨hlow, hhigh⟩
    · exact mem_of_between (by decide) hlow hhigh
    · exact mem_of_between (by decide) hlow hhigh
  · have hall : lowerAlphanumerics.all isLowerAlphanumeric = true := by decide
    exact List.all_eq_true.1 hall c

theorem isNameChar_iff {c : Char} : isNameChar c = true ↔ c ∈ nameAlphabet := by
  rw [nameAlphabet, List.mem_append, ← isLowerAlphanumeric_iff]
  simp [isNameChar, or_assoc]

theorem isAlphanumeric_iff {c : Char} : isAlphanumeric c = true ↔ c ∈ revisionAlphabet := by
  rw [revisionAlphabet, List.mem_append, ← isLowerAlphanumeric_iff]
  constructor
  · intro h
    simp only [isAlphanumeric, isLowerAlphanumeric, Bool.or_eq_true, Bool.and_eq_true,
      decide_eq_true_eq] at h ⊢
    rcases h with (h | ⟨hlow, hhigh⟩) | h
    · exact .inl (.inl h)
    · simp only [Char.le_def, UInt32.le_iff_toNat_le] at hlow hhigh
      exact .inr (mem_of_between (by decide) hlow hhigh)
    · exact .inl (.inr h)
  · rintro (h | h)
    · simp only [isAlphanumeric, isLowerAlphanumeric, Bool.or_eq_true] at h ⊢
      exact h.imp_left .inl
    · have hall : "ABCDEFGHIJKLMNOPQRSTUVWXYZ".toList.all isAlphanumeric = true := by decide
      exact List.all_eq_true.1 hall c h

theorem isDelimiter_eq_false_iff {c : Char} :
    isDelimiter c = false ↔ Text.isBlank c = false ∧ c ∉ separators := by
  simp [isDelimiter, separators, and_assoc]

/-! ## The rules -/

/-- A name: 2 to 101 bytes of the alphabet of names, the first a letter or a digit. -/
structure NameRule (s : String) : Prop where
  size : 2 ≤ s.utf8ByteSize ∧ s.utf8ByteSize ≤ 101
  first : ∃ c ∈ s.toList.head?, c ∈ lowerAlphanumerics
  chars : ∀ c ∈ s.toList, c ∈ nameAlphabet

/-- A version, user or channel: 1 to 128 bytes without blanks and separators, not all of them
dots. -/
structure SegmentRule (s : String) : Prop where
  size : 1 ≤ s.utf8ByteSize ∧ s.utf8ByteSize ≤ 128
  not_dots : ∃ c ∈ s.toList, c ≠ '.'
  chars : ∀ c ∈ s.toList, Text.isBlank c = false ∧ c ∉ separators

/-- A revision: 1 to 128 bytes of the alphabet of revisions. -/
structure RevisionRule (s : String) : Prop where
  size : 1 ≤ s.utf8ByteSize ∧ s.utf8ByteSize ≤ 128
  chars : ∀ c ∈ s.toList, c ∈ revisionAlphabet

/-- The parts of a reference keep their rules; user and channel come together or not at all. -/
structure Conforms (r : Reference) : Prop where
  name : NameRule r.name
  version : SegmentRule r.version
  scope : ∀ s, r.scope = some s → SegmentRule s.user ∧ SegmentRule s.channel
  revision : ∀ v, r.revision = some v → RevisionRule v

theorem one_le_utf8ByteSize_iff {s : String} : 1 ≤ s.utf8ByteSize ↔ s ≠ "" := by
  rw [Nat.one_le_iff_ne_zero, ne_eq, String.utf8ByteSize_eq_zero_iff]

theorem isName_iff {s : String} : isName s = true ↔ NameRule s := by
  simp only [isName, Bool.and_eq_true, decide_eq_true_eq, Option.any_eq_true, List.all_eq_true,
    isLowerAlphanumeric_iff, isNameChar_iff]
  exact ⟨fun h => ⟨h.1.1, h.1.2, h.2⟩, fun h => ⟨⟨h.size, h.first⟩, h.chars⟩⟩

theorem isSegment_iff {s : String} : isSegment s = true ↔ SegmentRule s := by
  simp only [isSegment, Bool.and_eq_true, decide_eq_true_eq, bne_iff_ne, Bool.not_eq_true',
    List.all_eq_false, List.any_eq_false, beq_iff_eq, Bool.not_eq_true, isDelimiter_eq_false_iff,
    ← one_le_utf8ByteSize_iff]
  exact ⟨fun h => ⟨h.1.1, h.1.2, h.2⟩, fun h => ⟨⟨h.size, h.not_dots⟩, h.chars⟩⟩

theorem isRevision_iff {s : String} : isRevision s = true ↔ RevisionRule s := by
  simp only [isRevision, Bool.and_eq_true, decide_eq_true_eq, bne_iff_ne, List.all_eq_true,
    isAlphanumeric_iff, ← one_le_utf8ByteSize_iff]
  exact ⟨fun h => ⟨h.1, h.2⟩, fun h => ⟨h.size, h.chars⟩⟩

theorem conforms_iff_wellFormed {r : Reference} : r.Conforms ↔ r.WellFormed := by
  constructor
  · intro h
    exact ⟨isName_iff.2 h.name, isSegment_iff.2 h.version,
      fun s hs => (h.scope s hs).imp isSegment_iff.2 isSegment_iff.2,
      fun v hv => isRevision_iff.2 (h.revision v hv)⟩
  · intro h
    exact ⟨isName_iff.1 h.name, isSegment_iff.1 h.version,
      fun s hs => (h.scope s hs).imp isSegment_iff.1 isSegment_iff.1,
      fun v hv => isRevision_iff.1 (h.revision v hv)⟩

/-! ## Reading and writing -/

/-- **Reading accepts exactly what conforms.** A text is read as the reference that keeps the rules
and whose text remains when the blanks at both ends are trimmed. So reading undoes writing, also
between blanks, writing undoes reading but for the blanks, and what is read is the same exactly when
the trimmed texts are. -/
theorem parse_characterized (s : String) (r : Reference) :
    (parse s = .ok r ↔ r.Conforms ∧ Text.trim s = r.text) ∧
    (r.Conforms → ∀ front back, Text.isBlankText front = true → Text.isBlankText back = true →
      parse (front ++ r.text ++ back) = .ok r) ∧
    (parse s = .ok r → r.text = Text.trim s ∧
      ∀ s' r', parse s' = .ok r' → (r = r' ↔ Text.trim s = Text.trim s')) := by
  rw [conforms_iff_wellFormed]
  refine ⟨⟨wellFormed_of_parse, fun h => parse_of_text h.1 h.2⟩,
    fun h front back hfront hback => ?_, fun h => ?_⟩
  · exact parse_of_text h (Text.trim_between hfront hback h.not_blank)
  · obtain ⟨hr, htext⟩ := wellFormed_of_parse h
    refine ⟨htext.symm, fun s' r' h' => ?_⟩
    obtain ⟨hr', htext'⟩ := wellFormed_of_parse h'
    rw [htext, htext']
    exact ⟨congrArg text, text_injective hr hr'⟩

/-- A reference with all its parts. -/
def complete : Reference := ⟨"zlib", "1.3", some ⟨"team", "stable"⟩, some "a1"⟩

theorem parse_complete_between_blanks :
    complete.Conforms ∧ parse (" \t" ++ complete.text ++ "\n") = .ok complete :=
  have h : complete.Conforms := conforms_iff_wellFormed.2 (by decide)
  ⟨h, (parse_characterized "" complete).2.1 h " \t" "\n" (by decide) (by decide)⟩

end PackageTrial.Reference
