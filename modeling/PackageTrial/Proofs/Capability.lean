import PackageTrial.Context
import PackageTrial.Proofs.Dictionary
import PackageTrial.Proofs.Platform

/-!
# When a binary runs on the host

The verdict tries its rules in order, and the first that says anything decides. What it comes to is
told without an order (`Verdict.canExecute_decide_iff`). The rules on compatible architectures
compare spellings, which for platforms that can be read is comparing the platforms
(`CompatibilityRule.applies_iff`). Of the emulators only that of the target's architecture counts
(`Verdict.decide_congr`), so further ones take nothing away (`Context.judged`).
-/

namespace PackageTrial

/-! ## Compatible architectures -/

namespace CompatibilityRule

/-- The rule names the host's system, its architecture and the target's. -/
structure Lists (rule : CompatibilityRule) (host : Host) (target : Arch) : Prop where
  os : host.os ∈ rule.hostSystems
  hostArch : rule.hostArch = host.arch
  targetArch : rule.targetArch = target

theorem known_of_mem_all : ∀ rule ∈ all,
    (∀ os ∈ rule.hostSystems, os ∈ Os.known) ∧ rule.hostArch ∈ Arch.known ∧
      rule.targetArch ∈ Arch.known := by
  decide

theorem applies_iff {rule : CompatibilityRule} (hrule : rule ∈ all) {host : Host} {target : Arch}
    (hos : host.os ∈ Set.range Os.parse) (harch : host.arch ∈ Set.range Arch.parse)
    (htarget : target ∈ Set.range Arch.parse) :
    rule.applies host target ↔ rule.Lists host target := by
  obtain ⟨hsystems, hhostArch, htargetArch⟩ := known_of_mem_all rule hrule
  have hread {arch : Arch} (h : arch ∈ Arch.known) : arch ∈ Set.range Arch.parse :=
    ⟨arch.name, (Arch.hasOwnSpelling_of_known _ h).parse_name⟩
  have hsystem : host.os.name ∈ rule.hostSystems.map Os.name ↔ host.os ∈ rule.hostSystems := by
    refine ⟨fun h => ?_, List.mem_map_of_mem⟩
    obtain ⟨os, hmem, hname⟩ := List.mem_map.1 h
    have hosRead : os ∈ Set.range Os.parse :=
      ⟨os.name, (Os.hasOwnSpelling_of_known os (hsystems os hmem)).parse_name⟩
    exact Os.spells.injOn_name hosRead hos hname ▸ hmem
  simp only [applies, Bool.and_eq_true, decide_eq_true_eq, hsystem,
    Arch.spells.injOn_name.eq_iff (hread hhostArch) harch,
    Arch.spells.injOn_name.eq_iff (hread htargetArch) htarget]
  exact ⟨fun ⟨⟨hhost, htarget⟩, hos⟩ => ⟨hos, hhost, htarget⟩,
    fun ⟨hos, hhost, htarget⟩ => ⟨⟨hhost, htarget⟩, hos⟩⟩

end CompatibilityRule

/-! ## Emulators -/

namespace Overrides

/-- The overrides with further emulators. -/
def withEmulators (o : Overrides) (added : List (String × List String)) : Overrides :=
  { o with emulators := added.foldl (fun d e => d.insert e.1 e.2) o.emulators }

theorem emulatorFor_eq_some_iff {o : Overrides} {arch : String} {command : List String} :
    o.emulatorFor arch = some command ↔ o.emulators.get? arch = some command ∧ command ≠ [] := by
  simp [emulatorFor, Option.filter_eq_some_iff]

theorem emulatorFor_withEmulators {o : Overrides} {added : List (String × List String)}
    {arch : String} (h : arch ∉ added.map (·.1)) :
    (o.withEmulators added).emulatorFor arch = o.emulatorFor arch := by
  have hnone : added.reverse.find? (·.1 = arch) = Option.none := by
    rw [List.find?_eq_none]
    intro e he hkey
    exact h (List.mem_map.2 ⟨e, List.mem_reverse.1 he, by simpa using hkey⟩)
  rw [emulatorFor, withEmulators, Dictionary.get?_foldl_insert, hnone]
  rfl

end Overrides

/-! ## The verdict -/

namespace Verdict

variable {target : Settings} {host : Host} {o : Overrides}

theorem decide_congr {o' : Overrides} (hcan : o'.canRun = o.canRun)
    (hemulator : o'.emulatorFor target.arch.name = o.emulatorFor target.arch.name) :
    decide target host o' = decide target host o := by
  simp only [decide, hcan, hemulator]

theorem decide_eq_native_iff :
    decide target host o = .native ↔ target.os = host.os ∧ target.arch = host.arch := by
  constructor
  · intro h
    by_contra hsame
    unfold decide at h
    rw [if_neg hsame] at h
    split at h
    · cases h
    · cases h
    · split at h
      · cases h
      · split_ifs at h
        split at h <;> cases h
  · intro h
    rw [decide, if_pos h]

/-- What is left to the rules: neither firmware nor another system, and an architecture that one
of them lets run. -/
theorem canExecute_decide_of_no_override
    (hsame : ¬ (target.os = host.os ∧ target.arch = host.arch)) (hcan : o.canRun = none)
    (hemulator : o.emulatorFor target.arch.name = none) :
    (decide target host o).canExecute ↔
      target.os = host.os ∧ target.os ≠ .baremetal ∧ ¬ target.arch.isMicrocontroller ∧
        ∃ rule ∈ CompatibilityRule.all, rule.applies host target.arch := by
  simp only [decide, if_neg hsame, hcan, hemulator]
  by_cases hfirmware : target.os = .baremetal ∨ target.arch.isMicrocontroller
  · rw [if_pos hfirmware]
    refine iff_of_false (by simp [canExecute]) fun ⟨_, hbare, hmicro, _⟩ => ?_
    exact hfirmware.elim hbare hmicro
  obtain ⟨hbare, hmicro⟩ := not_or.1 hfirmware
  rw [if_neg hfirmware]
  by_cases hos : target.os = host.os
  · rw [if_neg (not_not.2 hos)]
    cases hrule : CompatibilityRule.all.find? (·.applies host target.arch) with
    | some rule =>
      have happlies := List.find?_some hrule
      exact iff_of_true rfl
        ⟨hos, hbare, hmicro, rule, List.mem_of_find?_eq_some hrule, happlies⟩
    | none =>
      refine iff_of_false (by simp [canExecute]) fun ⟨_, _, _, rule, hmem, happlies⟩ => ?_
      exact List.find?_eq_none.1 hrule rule hmem happlies
  · rw [if_pos hos]
    exact iff_of_false (by simp [canExecute]) fun h => hos h.1

theorem canExecute_decide_iff : (decide target host o).canExecute ↔
    target.os = host.os ∧ target.arch = host.arch ∨
      o.canRun = some true ∨
        o.canRun = none ∧ ((∃ command, o.emulatorFor target.arch.name = some command) ∨
          target.os = host.os ∧ target.os ≠ .baremetal ∧ ¬ target.arch.isMicrocontroller ∧
            ∃ rule ∈ CompatibilityRule.all, rule.applies host target.arch) := by
  by_cases hsame : target.os = host.os ∧ target.arch = host.arch
  · simp [decide_eq_native_iff.2 hsame, hsame, canExecute]
  cases hcan : o.canRun with
  | some canRun => cases canRun <;> simp [decide, hsame, hcan, canExecute]
  | none =>
    cases hemulator : o.emulatorFor target.arch.name with
    | some command => simp [decide, hsame, hcan, hemulator, canExecute]
    | none =>
      simp only [canExecute_decide_of_no_override hsame hcan hemulator, hsame]
      simp

end Verdict

/-! ## The context of a trial -/

namespace Context

/-- The context with further emulators. -/
def withEmulators (c : Context) (added : List (String × List String)) : Context :=
  { c with overrides := c.overrides.withEmulators added }

theorem canExecute_withEmulators {c : Context} {added : List (String × List String)}
    (hadded : ∀ e ∈ added, c.overrides.emulators.get? e.1 = none) (h : c.canExecute) :
    (c.withEmulators added).canExecute := by
  unfold canExecute verdict at h ⊢
  rw [Verdict.canExecute_decide_iff] at h ⊢
  refine h.imp_right (Or.imp_right (And.imp_right (Or.imp_left ?_)))
  rintro ⟨command, hcommand⟩
  -- An architecture that has an emulator is none of those for which one is added.
  have hfree : c.target.arch.name ∉ added.map (·.1) := by
    intro hmem
    obtain ⟨e, he, hname⟩ := List.mem_map.1 hmem
    have hnone := hadded e he
    rw [hname, (Overrides.emulatorFor_eq_some_iff.1 hcommand).1] at hnone
    cases hnone
  exact ⟨command, (Overrides.emulatorFor_withEmulators hfree).trans hcommand⟩

/-- What the verdict of a context says. -/
structure Judged (c : Context) : Prop where
  /-- A run is native exactly when the trial does not build for another platform. -/
  native : c.verdict = .native ↔ c.isCrossBuilding = false
  /-- The binary may be run on its own platform, when an override says so, or, where none says
  anything, through an emulator or by a rule for the host's own system. -/
  executable : c.canExecute ↔ c.target.os = c.host.os ∧ c.target.arch = c.host.arch ∨
    c.overrides.canRun = some true ∨
      c.overrides.canRun = none ∧
        ((∃ command, c.overrides.emulators.get? c.target.arch.name = some command ∧
            command ≠ []) ∨
          c.target.os = c.host.os ∧ c.target.os ≠ .baremetal ∧
            ¬ c.target.arch.isMicrocontroller ∧
            ∃ rule ∈ CompatibilityRule.all, rule.Lists c.host c.target.arch)
  /-- Emulators for architectures that had none take no run away. -/
  further (added : List (String × List String)) :
    (∀ e ∈ added, c.overrides.emulators.get? e.1 = none) → c.canExecute →
      (c.withEmulators added).canExecute
  /-- Emulators for other architectures change nothing. -/
  others (added : List (String × List String)) : c.target.arch.name ∉ added.map (·.1) →
    (c.withEmulators added).verdict = c.verdict

/-- **The verdict in full**, for platforms that can be read. -/
theorem judged {c : Context} (htarget : c.target.arch ∈ Set.range Arch.parse)
    (hos : c.host.os ∈ Set.range Os.parse) (harch : c.host.arch ∈ Set.range Arch.parse) :
    c.Judged := by
  refine ⟨?native, ?executable, fun added => canExecute_withEmulators, fun added hadded => ?others⟩
  case native =>
    rw [verdict, Verdict.decide_eq_native_iff, isCrossBuilding, decide_eq_false_iff_not, not_or,
      not_not, not_not]
  case executable =>
    have hrules : (∃ rule ∈ CompatibilityRule.all, rule.applies c.host c.target.arch) ↔
        ∃ rule ∈ CompatibilityRule.all, rule.Lists c.host c.target.arch :=
      exists_congr fun rule => and_congr_right fun hrule =>
        CompatibilityRule.applies_iff hrule hos harch htarget
    simp only [canExecute, verdict, Verdict.canExecute_decide_iff, hrules,
      Overrides.emulatorFor_eq_some_iff]
  case others =>
    exact Verdict.decide_congr rfl (Overrides.emulatorFor_withEmulators hadded)

/-- A board whose processor also runs the binaries of its predecessor. -/
def board : Context :=
  ⟨⟨Os.parse " LINUX ", Arch.parse "arm", Compiler.named "gcc", .release⟩,
    ⟨Os.parse "linux", Arch.parse "aarch64"⟩, Overrides.none, Snapshot.empty⟩

theorem board_judged : board.Judged ∧ board.verdict = .compatible "armv8-runs-armv7" ∧
    (board.withEmulators [("armv7", ["qemu-arm"])]).verdict = .emulated ["qemu-arm"] :=
  ⟨judged ⟨"arm", rfl⟩ ⟨"linux", rfl⟩ ⟨"aarch64", rfl⟩, by decide +kernel, by decide +kernel⟩

end Context

end PackageTrial
