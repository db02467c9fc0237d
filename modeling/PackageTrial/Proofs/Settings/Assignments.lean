import PackageTrial.Proofs.Outcome
import PackageTrial.Settings

/-!
# Assignments

What an assignment does to settings is listed once (`Puts`, `assign_eq_ok_iff`). Whether it is
accepted is a matter of the assignment alone: of its form, its key and, for the build type, its
value (`exists_assign_iff`). So a list of assignments is accepted by all settings or by none
(`exists_assignAll_iff`), and it is refused for what is wrong with the first that is no assignment
(`assignAll_eq_error_iff`).
-/

namespace PackageTrial.Settings

/-- What becomes of settings when a key is given a value. -/
inductive Puts (s : Settings) (value : String) : String → Settings → Prop
  | os : Puts s value "os" { s with os := Os.parse value }
  | arch : Puts s value "arch" { s with arch := Arch.parse value }
  | compiler : Puts s value "compiler" { s with compiler := Compiler.named value }
  | version : Puts s value "compiler.version"
      { s with compiler := { s.compiler with version := some value } }
  | libcxx : Puts s value "compiler.libcxx"
      { s with compiler := { s.compiler with libcxx := some value } }
  | buildType {buildType : BuildType} (h : BuildType.parse? value = some buildType) :
      Puts s value "build_type" { s with buildType }

theorem assign_eq_ok_iff {s s' : Settings} {assignment : String} :
    s.assign assignment = .ok s' ↔
      ∃ key value, splitAssignment assignment = .ok (key, value) ∧ Puts s value key s' := by
  unfold assign
  rw [Outcome.bind_eq_ok_iff]
  constructor
  · rintro ⟨⟨key, value⟩, hsplit, h⟩
    refine ⟨key, value, hsplit, ?_⟩
    simp only [ite_eq_iff, pure, Except.pure, Except.ok.injEq] at h
    rcases h with ⟨rfl, rfl⟩ | ⟨-, h⟩
    · exact .os
    rcases h with ⟨rfl, rfl⟩ | ⟨-, h⟩
    · exact .arch
    rcases h with ⟨rfl, rfl⟩ | ⟨-, h⟩
    · exact .compiler
    rcases h with ⟨rfl, rfl⟩ | ⟨-, h⟩
    · exact .version
    rcases h with ⟨rfl, rfl⟩ | ⟨-, h⟩
    · exact .libcxx
    rcases h with ⟨rfl, h⟩ | ⟨-, h⟩
    · split at h
      · rename_i hvalue
        cases h
        exact .buildType hvalue
      · exact absurd h Outcome.throw_ne_ok
    · exact absurd h Outcome.throw_ne_ok
  · rintro ⟨key, value, hsplit, h⟩
    refine ⟨(key, value), hsplit, ?_⟩
    cases h with
    | buildType h => simp [h, pure, Except.pure]
    | _ => simp [pure, Except.pure]

/-- The keys that take any value. -/
def freeKeys : List String := ["os", "arch", "compiler", "compiler.version", "compiler.libcxx"]

/-- The keys of settings. -/
def keys : List String := "build_type" :: freeKeys

/-- An assignment that means something: it has a key that takes any value, or gives a build type. -/
def IsAssignment (assignment : String) : Prop :=
  ∃ key value, splitAssignment assignment = .ok (key, value) ∧
    (key ∈ freeKeys ∨ key = "build_type" ∧ BuildType.parse? value ≠ none)

theorem exists_puts_iff {s : Settings} {key value : String} :
    (∃ s', Puts s value key s') ↔
      key ∈ freeKeys ∨ key = "build_type" ∧ BuildType.parse? value ≠ none := by
  constructor
  · rintro ⟨s', h⟩
    cases h with
    | buildType h => exact .inr ⟨rfl, by simp [h]⟩
    | _ => exact .inl (by decide)
  · rintro (h | ⟨rfl, h⟩)
    · simp only [freeKeys, List.mem_cons, List.not_mem_nil, or_false] at h
      rcases h with rfl | rfl | rfl | rfl | rfl
      · exact ⟨_, .os⟩
      · exact ⟨_, .arch⟩
      · exact ⟨_, .compiler⟩
      · exact ⟨_, .version⟩
      · exact ⟨_, .libcxx⟩
    · obtain ⟨buildType, h⟩ := Option.ne_none_iff_exists'.1 h
      exact ⟨_, .buildType h⟩

/-- The settings have no say in whether an assignment is accepted. -/
theorem exists_assign_iff (s : Settings) {assignment : String} :
    (∃ s', s.assign assignment = .ok s') ↔ IsAssignment assignment := by
  simp only [assign_eq_ok_iff, IsAssignment, ← exists_puts_iff (s := s)]
  constructor
  · rintro ⟨s', key, value, hsplit, h⟩
    exact ⟨key, value, hsplit, s', h⟩
  · rintro ⟨key, value, hsplit, s', h⟩
    exact ⟨s', key, value, hsplit, h⟩

/-- What is wrong with an assignment, whatever the settings. -/
inductive Refuses (assignment : String) : SettingsError → Prop
  /-- Its form, or a key or a value that is blank. -/
  | unsplit {e : SettingsError} (h : splitAssignment assignment = .error e) : Refuses assignment e
  | unknownKey {key value : String} (h : splitAssignment assignment = .ok (key, value))
      (hkey : key ∉ keys) : Refuses assignment (.unknownKey key)
  | unknownBuildType {value : String}
      (h : splitAssignment assignment = .ok ("build_type", value))
      (hvalue : BuildType.parse? value = none) :
      Refuses assignment (.invalidValue "build_type" value)

theorem assign_eq_error_iff {s : Settings} {assignment : String} {e : SettingsError} :
    s.assign assignment = .error e ↔ Refuses assignment e := by
  unfold assign
  rw [Outcome.bind_eq_error_iff]
  constructor
  · rintro (h | ⟨⟨key, value⟩, hsplit, h⟩)
    · exact .unsplit h
    · simp only [ite_eq_iff, pure, Except.pure, reduceCtorEq, and_false, false_or] at h
      obtain ⟨hos, harch, hcompiler, hversion, hlibcxx, ⟨rfl, h⟩ | ⟨hbuildType, h⟩⟩ := h
      · split at h
        · cases h
        · rename_i hvalue
          cases h
          exact .unknownBuildType hsplit hvalue
      · cases h
        exact .unknownKey hsplit (by simp [keys, freeKeys, *])
  · intro h
    cases h with
    | unsplit h => exact .inl h
    | unknownKey h hkey =>
      simp only [keys, freeKeys, List.mem_cons, List.not_mem_nil, or_false, not_or] at hkey
      exact .inr ⟨_, h, by simp [hkey, throw, throwThe, MonadExceptOf.throw]⟩
    | unknownBuildType h hvalue =>
      exact .inr ⟨_, h, by simp [hvalue, throw, throwThe, MonadExceptOf.throw]⟩

theorem assignAll_nil (s : Settings) : s.assignAll [] = .ok s := rfl

theorem assignAll_cons_eq_ok_iff {s s' : Settings} {assignment : String} {rest : List String} :
    s.assignAll (assignment :: rest) = .ok s' ↔
      ∃ t, s.assign assignment = .ok t ∧ t.assignAll rest = .ok s' := by
  simp only [assignAll, assignUpTo]
  cases s.assign assignment <;> simp

/-- **A list of assignments is accepted exactly when each of them is one**, whatever the settings
from which it starts. -/
theorem exists_assignAll_iff (s : Settings) {assignments : List String} :
    (∃ s', s.assignAll assignments = .ok s') ↔ ∀ a ∈ assignments, IsAssignment a := by
  induction assignments generalizing s with
  | nil => simp [assignAll_nil]
  | cons a rest ih =>
    simp only [assignAll_cons_eq_ok_iff, List.forall_mem_cons]
    constructor
    · rintro ⟨s', t, ha, hrest⟩
      exact ⟨(exists_assign_iff s).1 ⟨t, ha⟩, (ih t).1 ⟨s', hrest⟩⟩
    · rintro ⟨ha, hrest⟩
      obtain ⟨t, ha⟩ := (exists_assign_iff s).2 ha
      obtain ⟨s', hrest⟩ := (ih t).2 hrest
      exact ⟨s', t, ha, hrest⟩

/-! ## The first refusal -/

/-- The first text of a list that is no assignment is refused with an error. -/
def FirstRefused (assignments : List String) (e : SettingsError) : Prop :=
  ∃ before a after, assignments = before ++ a :: after ∧ (∀ b ∈ before, IsAssignment b) ∧
    Refuses a e

/-- **What is refused changes nothing**, and nothing that comes after it is tried. -/
theorem assignUpTo_of_refuses {s t : Settings} {before : List String} {a : String}
    {e : SettingsError} (hbefore : s.assignAll before = .ok t) (ha : Refuses a e)
    (after : List String) : s.assignUpTo (before ++ a :: after) = (t, some e) := by
  induction before generalizing s with
  | nil =>
    cases hbefore
    simp [assignUpTo, assign_eq_error_iff.2 ha]
  | cons b before ih =>
    obtain ⟨u, hb, hrest⟩ := assignAll_cons_eq_ok_iff.1 hbefore
    simp [assignUpTo, hb, ih hrest]

theorem assignAll_eq_error_iff {s : Settings} {assignments : List String} {e : SettingsError} :
    s.assignAll assignments = .error e ↔ FirstRefused assignments e := by
  constructor
  · intro h
    induction assignments generalizing s with
    | nil => cases h
    | cons a rest ih =>
      cases ha : s.assign a with
      | error e' =>
        have he : e' = e := by simpa [assignAll, assignUpTo, ha] using h
        exact ⟨[], a, rest, rfl, by simp, assign_eq_error_iff.1 (he ▸ ha)⟩
      | ok t =>
        have hrest : t.assignAll rest = .error e := by simpa [assignAll, assignUpTo, ha] using h
        obtain ⟨before, b, after, rfl, hbefore, hb⟩ := ih hrest
        have hassignment := (exists_assign_iff s).1 ⟨t, ha⟩
        exact ⟨a :: before, b, after, rfl, List.forall_mem_cons.2 ⟨hassignment, hbefore⟩, hb⟩
  · rintro ⟨before, a, after, rfl, hbefore, ha⟩
    obtain ⟨t, ht⟩ := (exists_assignAll_iff s).2 hbefore
    simp [assignAll, assignUpTo_of_refuses ht ha]

end PackageTrial.Settings
