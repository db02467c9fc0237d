import PackageTrial.Proofs.Outcome
import PackageTrial.Proofs.Text.Cut
import PackageTrial.Reference

/-!
# References and their texts

A reference is well formed (`Reference.WellFormed`) when its parts keep their rules. The parts then
hold no separators and no blanks, so a text between blanks is read as the one well-formed reference
that is written so (`wellFormed_of_parse`, `parse_of_text`), and the texts tell well-formed
references apart (`text_injective`). `joinOptional` is what `splitOptional` undoes.
-/

namespace PackageTrial

/-- How the namespace is written behind its separator. -/
def Scope.written (s : Scope) : String := s.user ++ "/" ++ s.channel

namespace Reference

/-! ## The characters of the parts -/

theorem toNat_of_isAlphanumeric {c : Char} (h : isAlphanumeric c = true) :
    0x30 ≤ c.toNat ∧ c.toNat ≤ 0x39 ∨ 0x41 ≤ c.toNat ∧ c.toNat ≤ 0x5A ∨
      0x61 ≤ c.toNat ∧ c.toNat ≤ 0x7A := by
  simp only [isAlphanumeric, Bool.or_eq_true, Bool.and_eq_true, decide_eq_true_eq, Char.le_def,
    UInt32.le_iff_toNat_le] at h
  change (97 ≤ c.toNat ∧ c.toNat ≤ 122 ∨ 65 ≤ c.toNat ∧ c.toNat ≤ 90) ∨
    48 ≤ c.toNat ∧ c.toNat ≤ 57 at h
  omega

theorem not_isDelimiter_of_isAlphanumeric {c : Char} (h : isAlphanumeric c = true) :
    isDelimiter c = false := by
  have hc := toNat_of_isAlphanumeric h
  by_contra hd
  simp only [isDelimiter, Text.isBlank, Bool.not_eq_false, Bool.or_eq_true, Bool.and_eq_true,
    decide_eq_true_eq, beq_iff_eq] at hd
  rcases hd with (((hd | rfl) | rfl) | rfl) | rfl
  · omega
  all_goals revert hc; decide

theorem not_isDelimiter_of_isNameChar {c : Char} (h : isNameChar c = true) :
    isDelimiter c = false := by
  simp only [isNameChar, isLowerAlphanumeric, Bool.or_eq_true, beq_iff_eq] at h
  rcases h with (((h | rfl) | rfl) | rfl) | rfl
  · refine not_isDelimiter_of_isAlphanumeric ?_
    simp only [isAlphanumeric, Bool.or_eq_true]
    exact h.imp_left .inl
  all_goals decide

/-! ## Well-formed references -/

/-- The parts of a reference keep their rules. The references that are read from texts are the
well-formed ones (`wellFormed_of_parse`, `parse_of_text`). -/
structure WellFormed (r : Reference) : Prop where
  name : isName r.name = true
  version : isSegment r.version = true
  scope : ∀ s, r.scope = some s → isSegment s.user = true ∧ isSegment s.channel = true
  revision : ∀ v, r.revision = some v → isRevision v = true

instance (r : Reference) : Decidable r.WellFormed :=
  decidable_of_iff (isName r.name = true ∧ isSegment r.version = true ∧
      (∀ s ∈ r.scope, isSegment s.user = true ∧ isSegment s.channel = true) ∧
      ∀ v ∈ r.revision, isRevision v = true)
    ⟨fun h => ⟨h.1, h.2.1, h.2.2.1, h.2.2.2⟩, fun h => ⟨h.name, h.version, h.scope, h.revision⟩⟩

/-- A text without delimiters. -/
def Plain (s : String) : Prop := ∀ c ∈ s.toList, isDelimiter c = false

theorem plain_of_isName {s : String} (h : isName s = true) : Plain s := by
  intro c hc
  simp only [isName, Bool.and_eq_true, List.all_eq_true] at h
  exact not_isDelimiter_of_isNameChar (h.2 c hc)

theorem plain_of_isSegment {s : String} (h : isSegment s = true) : Plain s := by
  intro c hc
  simp only [isSegment, Bool.and_eq_true, Bool.not_eq_true', List.any_eq_false] at h
  simpa using h.2 c hc

theorem plain_of_isRevision {s : String} (h : isRevision s = true) : Plain s := by
  intro c hc
  simp only [isRevision, Bool.and_eq_true, List.all_eq_true] at h
  exact not_isDelimiter_of_isAlphanumeric (h.2 c hc)

theorem Plain.not_mem {s : String} (h : Plain s) {c : Char} (hc : isDelimiter c = true) :
    c ∉ s.toList := by
  intro hmem
  simp [h c hmem] at hc

theorem not_isBlank_of_not_isDelimiter {c : Char} (h : isDelimiter c = false) :
    Text.isBlank c = false := by
  simp only [isDelimiter, Bool.or_eq_false_iff] at h
  exact h.1.1.1.1

theorem trimEnd_of_isRevision {s : String} (h : isRevision s = true) : Text.trimEnd s = s :=
  Text.trimEnd_eq_self fun c hc => not_isBlank_of_not_isDelimiter (plain_of_isRevision h c hc)

/-! ## Reading and writing -/

/-- A text, and another behind a separator when there is one. -/
def joinOptional (sep : Char) (s : String) : Option String → String
  | some t => s ++ String.singleton sep ++ t
  | none => s

theorem toList_joinOptional_some (sep : Char) (s t : String) :
    (joinOptional sep s (some t)).toList = s.toList ++ sep :: t.toList := by
  simp [joinOptional]

theorem splitOptional_eq_iff {sep : Char} {s before : String} {after : Option String} :
    splitOptional sep s = (before, after) ↔
      s = joinOptional sep before after ∧ sep ∉ before.toList := by
  cases after with
  | some t =>
    rw [← String.toList_inj, toList_joinOptional_some, ← Text.cut_eq_some_iff]
    unfold splitOptional
    cases Text.cut sep s <;> simp [Prod.ext_iff]
  | none =>
    have hplain : s = before ∧ sep ∉ before.toList ↔ Text.cut sep s = none ∧ s = before := by
      rw [Text.cut_eq_none_iff, and_comm]
      exact and_congr_left fun e => by rw [e]
    rw [joinOptional, hplain]
    unfold splitOptional
    cases Text.cut sep s <;> simp

theorem text_withoutRevision (r : Reference) : r.withoutRevision.text =
    joinOptional '@' (r.name ++ "/" ++ r.version) (r.scope.map Scope.written) := by
  obtain ⟨name, version, scope, revision⟩ := r
  cases scope <;> simp [withoutRevision, text, joinOptional, Scope.written, ← String.toList_inj]

theorem text_eq (r : Reference) : r.text = joinOptional '#' r.withoutRevision.text r.revision := by
  obtain ⟨name, version, scope, revision⟩ := r
  cases revision <;> simp [withoutRevision, text, joinOptional, ← String.toList_inj]

/-! ## Reading -/

theorem checkName_eq_ok_iff {s : String} {u : Unit} : checkName s = .ok u ↔ isName s = true := by
  unfold checkName
  split <;> simp_all

theorem checkSegment_eq_ok_iff {segment : Segment} {s : String} {u : Unit} :
    checkSegment segment s = .ok u ↔ isSegment s = true := by
  unfold checkSegment
  split <;> simp_all

theorem checkRevision_eq_ok_iff {s : String} {u : Unit} :
    checkRevision s = .ok u ↔ isRevision s = true := by
  unfold checkRevision
  split <;> simp_all

theorem cut_slash_eq_iff {s a b : String} (ha : isSegment a = true ∨ isName a = true) :
    Text.cut '/' s = some (a, b) ↔ s = a ++ "/" ++ b := by
  have hplain : Plain a := ha.elim plain_of_isSegment plain_of_isName
  rw [Text.cut_eq_some_iff, and_iff_left (hplain.not_mem (by decide)), ← String.toList_inj]
  simp

theorem parseScope_eq_ok_iff {whole : String} {written : Option String} {scope : Option Scope} :
    parseScope whole written = .ok scope ↔ written = scope.map Scope.written ∧
      ∀ s, scope = some s → isSegment s.user = true ∧ isSegment s.channel = true := by
  cases written with
  | none => cases scope <;> simp [parseScope]
  | some w =>
    constructor
    · intro h
      rw [parseScope] at h
      split at h
      · cases h
      rename_i user channel hcut
      simp only [Outcome.bind_eq_ok_iff, checkSegment_eq_ok_iff] at h
      obtain ⟨-, huser, -, hchannel, h⟩ := h
      cases h
      rw [cut_slash_eq_iff (.inl huser)] at hcut
      refine ⟨congrArg some hcut, ?_⟩
      rintro s ⟨⟩
      exact ⟨huser, hchannel⟩
    · rintro ⟨hw, hscope⟩
      obtain ⟨s, rfl, rfl⟩ := Option.map_eq_some_iff.1 hw.symm
      obtain ⟨huser, hchannel⟩ := hscope s rfl
      have hcut : Text.cut '/' s.written = some (s.user, s.channel) :=
        (cut_slash_eq_iff (.inl huser)).2 rfl
      simp only [parseScope, hcut, Outcome.bind_eq_ok_iff, checkSegment_eq_ok_iff]
      exact ⟨(), huser, (), hchannel, rfl⟩

/-- A text that is read as a reference is that reference, written between blanks. -/
theorem wellFormed_of_parse {raw : String} {r : Reference} (h : parse raw = .ok r) :
    r.WellFormed ∧ Text.trim raw = r.text := by
  unfold parse at h
  dsimp only at h
  split at h
  · cases h
  rcases hsharp : splitOptional '#' (Text.trim raw) with ⟨body, revision⟩
  rcases hat : splitOptional '@' body with ⟨pair, written⟩
  simp only [hsharp, hat] at h
  split at h
  · cases h
  rename_i name version hcut
  simp only [Outcome.bind_eq_ok_iff, checkName_eq_ok_iff, checkSegment_eq_ok_iff,
    parseScope_eq_ok_iff] at h
  obtain ⟨-, hname, -, hversion, scope, ⟨rfl, hscope⟩, h⟩ := h
  have hr : r = ⟨name, version, scope, revision⟩ ∧
      ∀ v, revision = some v → isRevision v = true := by
    split at h
    · rename_i v
      simp only [Outcome.bind_eq_ok_iff, checkRevision_eq_ok_iff] at h
      obtain ⟨-, hv, h⟩ := h
      cases h
      exact ⟨rfl, by rintro _ ⟨⟩; exact hv⟩
    · cases h
      exact ⟨rfl, by simp_all⟩
  obtain ⟨rfl, hrevision⟩ := hr
  rw [cut_slash_eq_iff (.inr hname)] at hcut
  rw [splitOptional_eq_iff] at hsharp hat
  refine ⟨⟨hname, hversion, hscope, hrevision⟩, ?_⟩
  rw [text_eq, text_withoutRevision, hsharp.1, hat.1, hcut]

namespace WellFormed

variable {r : Reference}

theorem withoutRevision (h : r.WellFormed) : r.withoutRevision.WellFormed :=
  ⟨h.name, h.version, h.scope, by simp [Reference.withoutRevision]⟩

theorem at_not_mem (h : r.WellFormed) : '@' ∉ (r.name ++ "/" ++ r.version).toList := by
  have hname := (plain_of_isName h.name).not_mem (c := '@') (by decide)
  have hversion := (plain_of_isSegment h.version).not_mem (c := '@') (by decide)
  simp [hname, hversion]

/-- What is written before the revision are the parts and their separators. -/
theorem of_mem_text_withoutRevision (h : r.WellFormed) {c : Char}
    (hc : c ∈ r.withoutRevision.text.toList) : isDelimiter c = false ∨ c = '/' ∨ c = '@' := by
  rw [text_withoutRevision] at hc
  cases hs : r.scope with
  | none =>
    simp only [hs, Option.map_none, joinOptional, String.toList_append, List.mem_append] at hc
    rcases hc with (hc | hc) | hc
    · exact .inl (plain_of_isName h.name c hc)
    · exact .inr (.inl (by simpa using hc))
    · exact .inl (plain_of_isSegment h.version c hc)
  | some s =>
    obtain ⟨huser, hchannel⟩ := h.scope s hs
    simp only [hs, Option.map_some, joinOptional, Scope.written, String.toList_append,
      List.mem_append] at hc
    rcases hc with (((hc | hc) | hc) | hc) | ((hc | hc) | hc)
    · exact .inl (plain_of_isName h.name c hc)
    · exact .inr (.inl (by simpa using hc))
    · exact .inl (plain_of_isSegment h.version c hc)
    · exact .inr (.inr (by simpa using hc))
    · exact .inl (plain_of_isSegment huser c hc)
    · exact .inr (.inl (by simpa using hc))
    · exact .inl (plain_of_isSegment hchannel c hc)

theorem sharp_not_mem (h : r.WellFormed) : '#' ∉ r.withoutRevision.text.toList := by
  intro hmem
  rcases h.of_mem_text_withoutRevision hmem with hc | hc | hc <;> revert hc <;> decide

theorem not_blank_withoutRevision (h : r.WellFormed) :
    ∀ c ∈ r.withoutRevision.text.toList, Text.isBlank c = false := by
  intro c hc
  rcases h.of_mem_text_withoutRevision hc with hc | rfl | rfl
  · exact not_isBlank_of_not_isDelimiter hc
  · decide
  · decide

theorem not_blank (h : r.WellFormed) : ∀ c ∈ r.text.toList, Text.isBlank c = false := by
  intro c hc
  rw [text_eq] at hc
  cases hv : r.revision with
  | none =>
    rw [hv] at hc
    exact h.not_blank_withoutRevision c hc
  | some v =>
    rw [hv, toList_joinOptional_some, List.mem_append, List.mem_cons] at hc
    rcases hc with hc | rfl | hc
    · exact h.not_blank_withoutRevision c hc
    · decide
    · exact not_isBlank_of_not_isDelimiter (plain_of_isRevision (h.revision v hv) c hc)

theorem trim_text (h : r.WellFormed) : Text.trim r.text = r.text := by
  rw [Text.trim, Text.trimBlanks_eq_self h.not_blank, String.ofList_toList]

end WellFormed

/-- A well-formed reference is read from its text. -/
theorem parse_of_text {raw : String} {r : Reference} (h : r.WellFormed)
    (htext : Text.trim raw = r.text) : parse raw = .ok r := by
  have hne : Text.trim raw ≠ "" := by
    intro e
    have := congrArg String.toList (htext.symm.trans e)
    simp [text] at this
  have hsharp : splitOptional '#' (Text.trim raw) = (r.withoutRevision.text, r.revision) :=
    splitOptional_eq_iff.2 ⟨htext.trans r.text_eq, h.sharp_not_mem⟩
  have hat : splitOptional '@' r.withoutRevision.text =
      (r.name ++ "/" ++ r.version, r.scope.map Scope.written) :=
    splitOptional_eq_iff.2 ⟨r.text_withoutRevision, h.at_not_mem⟩
  have hcut := (cut_slash_eq_iff (b := r.version) (.inr h.name)).2 rfl
  have hscope : parseScope (Text.trim raw) (r.scope.map Scope.written) = .ok r.scope :=
    parseScope_eq_ok_iff.2 ⟨rfl, h.scope⟩
  obtain ⟨name, version, scope, revision⟩ := r
  unfold parse
  simp only [if_neg hne, hsharp, hat, hcut, hscope, Outcome.bind_eq_ok_iff, checkName_eq_ok_iff,
    checkSegment_eq_ok_iff]
  refine ⟨(), h.name, (), h.version, scope, rfl, ?_⟩
  cases revision with
  | none => rfl
  | some v =>
    simp only [Outcome.bind_eq_ok_iff, checkRevision_eq_ok_iff]
    exact ⟨(), h.revision v rfl, rfl⟩

theorem text_injective {r q : Reference} (hr : r.WellFormed) (hq : q.WellFormed)
    (h : r.text = q.text) : r = q := by
  have hread := parse_of_text hr (hq.trim_text.trans h.symm)
  rw [parse_of_text hq hq.trim_text] at hread
  exact (Except.ok.inj hread).symm

/-- Of a reference and a revision behind it, only blanks after the revision are trimmed. -/
theorem trim_append_revision {r : Reference} (hr : r.WellFormed) (revision : String) :
    Text.trim (r.withoutRevision.text ++ "#" ++ revision) =
      joinOptional '#' r.withoutRevision.text (some (Text.trimEnd revision)) := by
  have hfront : ∀ c ∈ r.withoutRevision.text.toList ++ ['#'], Text.isBlank c = false := by
    intro c hc
    rcases List.mem_append.1 hc with hc | hc
    · exact hr.not_blank_withoutRevision c hc
    · rw [List.mem_singleton.1 hc]
      decide
  have hblanks := Text.trimBlanks_append (by simp) hfront revision.toList
  rw [← String.toList_inj, toList_joinOptional_some]
  simpa [Text.trim, Text.trimEnd] using hblanks

/-- A text that begins with a reference and goes on with a revision is read as the reference with
that revision. -/
theorem eq_of_parse_append {r q : Reference} (hr : r.WellFormed) {revision : String}
    (h : parse (r.withoutRevision.text ++ "#" ++ revision) = .ok q) :
    q = { r with revision := some (Text.trimEnd revision) } := by
  obtain ⟨hq, htext⟩ := wellFormed_of_parse h
  have hsplit : splitOptional '#' q.text = (q.withoutRevision.text, q.revision) :=
    splitOptional_eq_iff.2 ⟨q.text_eq, hq.sharp_not_mem⟩
  rw [← htext, trim_append_revision hr, splitOptional_eq_iff.2 ⟨rfl, hr.sharp_not_mem⟩,
    Prod.mk.injEq] at hsplit
  have hbody := text_injective hr.withoutRevision hq.withoutRevision hsplit.1
  obtain ⟨name, version, scope, revision'⟩ := q
  simp only [withoutRevision, Reference.mk.injEq] at hbody hsplit ⊢
  exact ⟨hbody.1.symm, hbody.2.1.symm, hbody.2.2.1.symm, hsplit.2.symm⟩

/-- The revision behind a reference is all that can keep the two from being read. -/
theorem isRevision_of_parse_append_eq_error {r : Reference} (hr : r.WellFormed) {revision : String}
    {e : ReferenceError} (h : parse (r.withoutRevision.text ++ "#" ++ revision) = .error e) :
    isRevision (Text.trimEnd revision) = false := by
  by_contra hvalid
  rw [Bool.not_eq_false] at hvalid
  let q : Reference := { r with revision := some (Text.trimEnd revision) }
  have hq : q.WellFormed := ⟨hr.name, hr.version, hr.scope, by rintro v ⟨⟩; exact hvalid⟩
  have htext : Text.trim (r.withoutRevision.text ++ "#" ++ revision) = q.text :=
    (trim_append_revision hr revision).trans q.text_eq.symm
  rw [parse_of_text hq htext] at h
  cases h

end Reference

end PackageTrial
