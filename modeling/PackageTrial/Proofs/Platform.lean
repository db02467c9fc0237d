import PackageTrial.Platform
import PackageTrial.Proofs.Text.Case
import PackageTrial.Proofs.Text.Cut

/-!
# Spellings of platforms

Systems and architectures are read from texts in the same way (`Spells`): what a text is read as
depends on its lower case without blanks around it alone, and the canonical spelling of what was
read is that very text, unless the platform has a spelling of its own. In both cases the spelling is
read as the same again (`Spells.parse_name_parse`). So of all that can be read, what has one
spelling is equal (`Spells.injOn_name`).
-/

namespace PackageTrial

theorem Text.lower_trim_lower_trim (s : String) :
    lower (trim (lower (trim s))) = lower (trim s) := by
  rw [trim_lower, trim_trim, lower_lower]

/-! ## Reading and spelling -/

/-- A text that can be given as a value: trimming takes nothing from it, and it is not empty. -/
@[mk_iff]
structure IsValue (text : String) : Prop where
  trim_eq : Text.trim text = text
  ne_empty : text ≠ ""

instance (text : String) : Decidable (IsValue text) :=
  decidable_of_iff' _ (isValue_iff text)

theorem IsValue.isBlankText_eq_false {text : String} (h : IsValue text) :
    Text.isBlankText text = false := by
  by_contra hblank
  simp only [Text.isBlankText, Bool.not_eq_false, List.all_eq_true] at hblank
  refine h.ne_empty ?_
  rw [← h.trim_eq, Text.trim, Text.trimBlanks, List.dropWhile_eq_nil_iff.2 hblank]
  rfl

section

variable {α : Type} (parse : String → α) (name : α → String)

/-- Something whose spelling is read as itself. -/
@[mk_iff]
structure HasOwnSpelling (a : α) : Prop where
  parse_name : parse (name a) = a
  isValue_name : IsValue (name a)

instance [DecidableEq α] (a : α) : Decidable (HasOwnSpelling parse name a) :=
  decidable_of_iff' _ (hasOwnSpelling_iff parse name a)

/-- Something that is read from a value. -/
def IsRead (a : α) : Prop := ∃ value, IsValue value ∧ parse value = a

theorem IsValue.isRead {value : String} (h : IsValue value) : IsRead parse (parse value) :=
  ⟨value, h, rfl⟩

/-- Texts are read in any case and between blanks, and are kept as they are read unless what they
name has a spelling of its own. -/
structure Spells : Prop where
  congr {v w : String} : Text.lower (Text.trim v) = Text.lower (Text.trim w) → parse v = parse w
  text_or_own (value : String) : name (parse value) = Text.lower (Text.trim value) ∨
    HasOwnSpelling parse name (parse value)

end

namespace Spells

variable {α : Type} {parse : String → α} {name : α → String} (h : Spells parse name)
include h

/-- **The canonical spelling is read as what it spells**, whatever text that was read from. -/
theorem parse_name_parse (value : String) : parse (name (parse value)) = parse value := by
  rcases h.text_or_own value with htext | hown
  · exact h.congr (by rw [htext, Text.lower_trim_lower_trim])
  · exact hown.parse_name

theorem injOn_name : Set.InjOn name (Set.range parse) := by
  have hinv : Set.LeftInvOn parse name (Set.range parse) := by
    rintro _ ⟨value, rfl⟩
    exact h.parse_name_parse value
  exact hinv.injOn

theorem parse_name {a : α} (ha : IsRead parse a) : parse (name a) = a := by
  obtain ⟨value, -, rfl⟩ := ha
  exact h.parse_name_parse value

theorem isValue_name {a : α} (ha : IsRead parse a) : IsValue (name a) := by
  obtain ⟨value, hvalue, rfl⟩ := ha
  rcases h.text_or_own value with htext | hown
  · rw [htext]
    refine ⟨by rw [Text.trim_lower, Text.trim_trim], fun hempty => hvalue.ne_empty ?_⟩
    rw [← hvalue.trim_eq, Text.lower_eq_empty_iff.1 hempty]
  · exact hown.isValue_name

end Spells

/-! ## Operating systems -/

namespace Os

/-- The systems that have a spelling of their own. -/
def known : List Os := [linux, macos, windows, freeBsd, android, baremetal]

theorem hasOwnSpelling_of_known : ∀ os ∈ known, HasOwnSpelling parse name os := by
  decide +kernel

theorem name_parse_or_mem (value : String) :
    (parse value).name = Text.lower (Text.trim value) ∨ parse value ∈ known := by
  unfold parse
  generalize Text.lower (Text.trim value) = text
  simp only
  split_ifs <;> simp [name, known]

theorem spells : Spells parse name where
  congr h := by simp only [parse, h]
  text_or_own value := (name_parse_or_mem value).imp_right (hasOwnSpelling_of_known _)

end Os

/-! ## Architectures -/

namespace Arch

/-- The architectures that have a spelling of their own; cores of microcontrollers are spelled as
they are read. -/
def known : List Arch := [x86, x86x64, armv6, armv7, armv7hf, armv8, riscv32, riscv64, wasm]

theorem hasOwnSpelling_of_known : ∀ arch ∈ known, HasOwnSpelling parse name arch := by
  decide +kernel

theorem name_of_microcontrollerCore? {text core : String}
    (h : microcontrollerCore? text = some core) : (cortexM core).name = text := by
  unfold microcontrollerCore? at h
  split at h
  · rename_i htext
    cases h
    rw [← String.toList_inj, htext]
    simp [name]
  · cases h

theorem name_parse_or_mem (value : String) :
    (parse value).name = Text.lower (Text.trim value) ∨ parse value ∈ known := by
  unfold parse
  generalize Text.lower (Text.trim value) = text
  simp only
  split
  · rename_i core hcore
    exact .inl (name_of_microcontrollerCore? hcore)
  · split_ifs <;> simp [name, known]

theorem spells : Spells parse name where
  congr h := by simp only [parse, h]
  text_or_own value := (name_parse_or_mem value).imp_right (hasOwnSpelling_of_known _)

end Arch

end PackageTrial
