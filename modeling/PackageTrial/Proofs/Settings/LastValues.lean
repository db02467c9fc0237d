import Mathlib.Data.List.DropRight
import PackageTrial.Proofs.Settings.Assignments

/-!
# The last assignment of a key counts

What the settings of a host become by a list of assignments is told from the list without applying
it (`Layered`): every key has the value that it is given last, but of what belongs to a compiler
only the assignments after the last choice of a compiler count (`afterCompiler`). One assignment
keeps this (`Layered.assign`), so every list does (`layered_of_assignAll`).
-/

namespace PackageTrial.Settings

/-! ## Last values -/

/-- The value that an assignment gives to a key. -/
def valueFor? (key assignment : String) : Option String :=
  match splitAssignment assignment with
  | .ok (k, value) => if k = key then some value else none
  | .error _ => none

/-- The value that a key is given last. -/
def lastValue? (key : String) (assignments : List String) : Option String :=
  assignments.reverse.findSome? (valueFor? key)

/-- The assignments that come after the last choice of a compiler. -/
def afterCompiler (assignments : List String) : List String :=
  assignments.rtakeWhile fun a => (valueFor? "compiler" a).isNone

/-- The settings of a host after a list of assignments. -/
structure Layered (host : Host) (assignments : List String) (s : Settings) : Prop where
  os : s.os = ((lastValue? "os" assignments).map Os.parse).getD host.os
  arch : s.arch = ((lastValue? "arch" assignments).map Arch.parse).getD host.arch
  buildType : some s.buildType =
    (lastValue? "build_type" assignments).elim (some .release) BuildType.parse?
  compiler : s.compiler.name =
    (lastValue? "compiler" assignments).getD (native host).compiler.name
  version : s.compiler.version = lastValue? "compiler.version" (afterCompiler assignments)
  libcxx : s.compiler.libcxx = lastValue? "compiler.libcxx" (afterCompiler assignments)

theorem lastValue?_nil (key : String) : lastValue? key [] = none := rfl

section

variable {assignment key value : String} (h : splitAssignment assignment = .ok (key, value))
include h

theorem valueFor?_of_split (k : String) :
    valueFor? k assignment = if key = k then some value else none := by
  rw [valueFor?, h]

theorem lastValue?_concat (k : String) (assignments : List String) :
    lastValue? k (assignments ++ [assignment]) =
      if key = k then some value else lastValue? k assignments := by
  rw [lastValue?, List.reverse_concat, List.findSome?_cons, valueFor?_of_split h]
  by_cases hkey : key = k <;> simp [hkey, lastValue?]

theorem afterCompiler_concat (assignments : List String) :
    afterCompiler (assignments ++ [assignment]) =
      if key = "compiler" then [] else afterCompiler assignments ++ [assignment] := by
  rw [afterCompiler, List.rtakeWhile_concat, valueFor?_of_split h]
  split <;> simp [afterCompiler]

end

/-! ## Layers -/

theorem native_layered (host : Host) : Layered host [] (native host) :=
  ⟨rfl, rfl, rfl, rfl, rfl, rfl⟩

/-- One more assignment gives its own key a value. Of the other keys only a choice of a compiler
touches any, which leaves nothing to count for what belongs to the compiler. -/
theorem Layered.assign {host : Host} {assignments : List String} {s t : Settings}
    {assignment : String} (hs : Layered host assignments s) (h : s.assign assignment = .ok t) :
    Layered host (assignments ++ [assignment]) t := by
  obtain ⟨key, value, hsplit, hputs⟩ := assign_eq_ok_iff.1 h
  have hlast := lastValue?_concat hsplit
  have hafter := afterCompiler_concat hsplit assignments
  obtain ⟨hos, harch, hbuildType, hcompiler, hversion, hlibcxx⟩ := hs
  cases hputs with
  | os => constructor <;> simp [hlast, hafter, harch, hbuildType, hcompiler, hversion, hlibcxx]
  | arch => constructor <;> simp [hlast, hafter, hos, hbuildType, hcompiler, hversion, hlibcxx]
  | compiler =>
    constructor <;> simp [hlast, hafter, hos, harch, hbuildType, Compiler.named, lastValue?_nil]
  | version => constructor <;> simp [hlast, hafter, hos, harch, hbuildType, hcompiler, hlibcxx]
  | libcxx => constructor <;> simp [hlast, hafter, hos, harch, hbuildType, hcompiler, hversion]
  | buildType hvalue =>
    constructor <;> simp [hlast, hafter, hos, harch, hvalue, hcompiler, hversion, hlibcxx]

theorem assignAll_append_eq_ok_iff {s t : Settings} {before after : List String} :
    s.assignAll (before ++ after) = .ok t ↔
      ∃ u, s.assignAll before = .ok u ∧ u.assignAll after = .ok t := by
  induction before generalizing s with
  | nil => simp [assignAll_nil]
  | cons a before ih =>
    simp only [List.cons_append, assignAll_cons_eq_ok_iff, ih]
    constructor
    · rintro ⟨v, ha, u, hbefore, hafter⟩
      exact ⟨u, ⟨v, ha, hbefore⟩, hafter⟩
    · rintro ⟨u, ⟨v, ha, hbefore⟩, hafter⟩
      exact ⟨v, ha, u, hbefore, hafter⟩

theorem layered_of_assignAll {host : Host} {assignments : List String} {s : Settings}
    (h : (native host).assignAll assignments = .ok s) : Layered host assignments s := by
  -- From the end, so that the settings before an assignment are those of a shorter list.
  induction assignments using List.reverseRecOn generalizing s with
  | nil =>
    cases h
    exact native_layered host
  | append_singleton assignments a ih =>
    obtain ⟨t, ht, ha⟩ := assignAll_append_eq_ok_iff.1 h
    obtain ⟨u, ha, hu⟩ := assignAll_cons_eq_ok_iff.1 ha
    cases hu
    exact (ih ht).assign ha

end PackageTrial.Settings
