import PackageTrial.Command
import PackageTrial.Proofs.Capability
import PackageTrial.Proofs.Layout.Containment
import PackageTrial.Proofs.Trial.Course
import PackageTrial.Rehearsal

/-!
# How a trial runs its binary

An invocation has a command unless it asks for an emulator and names none
(`Invocation.exists_command_iff`). No verdict names an empty emulator, since overrides look past
empty command lines (`Verdict.emulator?_decide`). So whatever the overrides hold, each binary that
a trial runs has a command: the binary alone or after the emulator for the target's architecture, in
the directory that holds the binary, with the run environment of the packages (`Trial.run_starts`).
-/

namespace PackageTrial

/-! ## Commands of invocations -/

/-- The command line: the program and its arguments. -/
def Command.line (c : Command) : List RawText := c.program :: c.args

namespace Invocation

/-- The command runs the binary of the invocation as the invocation says. -/
structure RunsAs (i : Invocation) (command : Command) : Prop where
  line : command.line = (i.emulator.getD []).map RawText.ofString ++ [i.program.raw]
  workingDir : command.workingDir = some i.workingDir
  changes : command.changes = i.environment.resolve i.base

theorem runsAs_of_command {i : Invocation} {command : Command} (h : i.command = .ok command) :
    i.RunsAs command := by
  unfold Invocation.command at h
  split at h
  · rename_i hemulator
    cases h
    exact ⟨by rw [hemulator]; rfl, rfl, rfl⟩
  · cases h
  · rename_i program args hemulator
    cases h
    exact ⟨by rw [hemulator]; rfl, rfl, rfl⟩

/-- Only an emulator without a program keeps an invocation from having a command. -/
theorem exists_command_iff {i : Invocation} :
    (∃ command, i.command = .ok command) ↔ i.emulator ≠ some [] := by
  unfold Invocation.command
  split <;> simp_all

end Invocation

/-! ## Emulators of verdicts -/

namespace Verdict

variable {target : Settings} {host : Host} {o : Overrides}

theorem emulatorFor_of_decide_eq_emulated {emulator : List String}
    (h : decide target host o = .emulated emulator) :
    o.emulatorFor target.arch.name = some emulator := by
  have hsame : ¬ (target.os = host.os ∧ target.arch = host.arch) := by
    intro hsame
    rw [decide_eq_native_iff.2 hsame] at h
    cases h
  unfold decide at h
  rw [if_neg hsame] at h
  split at h
  · cases h
  · cases h
  · split at h
    · rename_i hfound
      cases h
      exact hfound
    · split_ifs at h
      split at h <;> cases h

theorem emulator?_eq_some_iff {v : Verdict} {emulator : List String} :
    v.emulator? = some emulator ↔ v = .emulated emulator := by
  cases v <;> simp [emulator?]

/-- The emulator of a verdict is the one that is listed for the target's architecture. -/
theorem emulator?_decide {emulator : List String}
    (h : (decide target host o).emulator? = some emulator) :
    o.emulators.get? target.arch.name = some emulator ∧ emulator ≠ [] :=
  Overrides.emulatorFor_eq_some_iff.1
    (emulatorFor_of_decide_eq_emulated (emulator?_eq_some_iff.1 h))

end Verdict

/-! ## Invocations of a trial -/

/-- The invocation that is asked for. -/
def Exchange.invocation? : Exchange → Option Invocation
  | .execute invocation _ => some invocation
  | .resolve _ _ _ | .configure _ _ | .build _ _ | .isFile _ _ | .notice _ => none

namespace Trial

/-- The invocations that a trial asks for, in order. -/
def invocations (l : List Exchange) : List Invocation := l.filterMap Exchange.invocation?

/-- The command by which a trial runs its binary, with the packages that it has resolved. -/
structure Starts (plan : Plan) (context : Context) (graph : Graph) (i : Invocation)
    (command : Command) : Prop where
  /-- The program is the test binary of the plan. -/
  binary : ∃ layout, plan.place context.target = .ok (layout, i.program)
  /-- An emulated run has the command line that is listed for the target's architecture, and the
  binary after it. -/
  emulated : ∀ emulator, context.verdict = .emulated emulator →
    context.overrides.emulators.get? context.target.arch.name = some emulator ∧
      command.line = emulator.map RawText.ofString ++ [i.program.raw]
  /-- Any other run has the binary alone. -/
  direct : (∀ emulator, context.verdict ≠ .emulated emulator) → command.line = [i.program.raw]
  /-- The directory is the one that holds the binary. -/
  directory : ∃ dir, command.workingDir = some dir ∧ i.program.parent = some dir
  /-- The environment is edited as the packages want it, from where the context starts. -/
  changes : command.changes = (graph.runEnvironment context.target.os).resolve context.base

section Invocation

variable {plan : Plan} {context : Context}

theorem Course.invocation_of_mem {result : Except TrialError Report} {l : List Exchange}
    (h : Course plan context result l) {i : Invocation} (hi : i ∈ invocations l) :
    ∃ graph layout binary, plan.place context.target = .ok (layout, binary) ∧
      .resolve plan.declarations context.target (.ok graph) ∈ l ∧
      i = (jobOf plan context graph layout).invocation binary := by
  cases h <;>
    simp_all [invocations, Exchange.invocation?, resolvedLedger, configuredLedger, builtLedger,
      startedLedger, jobOf]

theorem parent_of_place {layout : Layout} {binary : Path}
    (h : plan.place context.target = .ok (layout, binary)) :
    binary.parent = some layout.primaryBinDir := by
  simp only [Plan.place, Outcome.bind_eq_ok_iff] at h
  obtain ⟨l, hlayout, path, hbinary, h⟩ := h
  cases h
  exact (Layout.contained_of_compute hlayout).binary plan.binary context.target _ hbinary

/-- Whatever command the invocation of a job has, it is the one that the trial means. -/
theorem starts_of_command {graph : Graph} {layout : Layout} {binary : Path}
    (hplace : plan.place context.target = .ok (layout, binary)) {command : Command}
    (h : ((jobOf plan context graph layout).invocation binary).command = .ok command) :
    Starts plan context graph ((jobOf plan context graph layout).invocation binary) command := by
  obtain ⟨hline, hdir, hchanges⟩ := Invocation.runsAs_of_command h
  refine ⟨⟨layout, hplace⟩, fun emulator hverdict => ?_, fun hverdict => ?_,
    ⟨_, hdir, parent_of_place hplace⟩, hchanges⟩
  · have hemulator := Verdict.emulator?_eq_some_iff.2 hverdict
    have hinvoked :
        ((jobOf plan context graph layout).invocation binary).emulator = some emulator := hemulator
    rw [hinvoked] at hline
    exact ⟨(Verdict.emulator?_decide hemulator).1, hline⟩
  · have hinvoked : ((jobOf plan context graph layout).invocation binary).emulator = none := by
      refine Option.eq_none_iff_forall_ne_some.2 fun emulator hemulator => ?_
      exact hverdict emulator (Verdict.emulator?_eq_some_iff.1 hemulator)
    rw [hinvoked] at hline
    exact hline

end Invocation

/-- **Every run that a trial asks for starts.** The invocation has a command, which runs the binary
in its own directory, after the emulator that is configured for the target or alone. -/
theorem run_starts {σ : Type} (c : Collaborators (StateM σ)) (plan : Plan) (context : Context)
    (s : σ) {i : Invocation} (h : i ∈ invocations (ledger c plan context s)) :
    ∃ graph command, .resolve plan.declarations context.target (.ok graph) ∈
        ledger c plan context s ∧
      i.command = .ok command ∧ Starts plan context graph i command := by
  obtain ⟨graph, layout, binary, hplace, hresolved, rfl⟩ :=
    (course_run c plan context s).invocation_of_mem h
  have hprogram : ((jobOf plan context graph layout).invocation binary).emulator ≠ some [] :=
    fun hempty => (Verdict.emulator?_decide hempty).2 rfl
  obtain ⟨command, hcommand⟩ := Invocation.exists_command_iff.2 hprogram
  exact ⟨graph, command, hresolved, hcommand, starts_of_command hplace hcommand⟩

/-! ### A run on an emulator -/

namespace Sample

/-- A plan whose build tree serves every build type. -/
def plan : Plan :=
  ⟨⟨"libhal", "4.1.0", none, none⟩, [],
    ⟨.ofString "/work", .ofString "/work/out", true, ["settings.arch"]⟩, "unit_test"⟩

/-- A board that the host only emulates. Another architecture has an entry without a program. -/
def context : Context :=
  ⟨⟨.linux, .armv7hf, .named "gcc", .debug⟩, ⟨.linux, .x86x64⟩,
    ⟨none, .ofList [("armv6", []), ("armv7hf", ["qemu-arm", "-L", "/usr/arm"])]⟩,
    .ofPairs [(RawText.ofString "PATH", RawText.ofString "/bin")]⟩

/-- One package with a directory of libraries. -/
def graph : Graph :=
  ⟨[⟨⟨"libhal", "4.1.0", none, none⟩, .requires, .ofString "/p", [], [.ofString "/p/lib"], [], []⟩]⟩

/-- Everything goes well. -/
def script : Script where
  resolve _ _ := .ok graph
  configure _ := .ok ()
  build _ := .ok ()
  isFile _ := true
  execute _ := .ok (.exited 0)

/-- The run that the trial asks for. -/
def invocation : Invocation :=
  ⟨.ofString "/work/out/build/armv7hf/Debug/unit_test", .ofString "/work/out/build/armv7hf/Debug",
    graph.runEnvironment .linux, context.base, some ["qemu-arm", "-L", "/usr/arm"]⟩

theorem invocation_starts :
    invocation ∈ invocations (ledger script.collaborators plan context []) ∧
    (∃ graph command, .resolve plan.declarations context.target (.ok graph) ∈
        ledger script.collaborators plan context [] ∧
      invocation.command = .ok command ∧ Starts plan context graph invocation command) ∧
    invocation.command.toOption.map Command.line = some
      (["qemu-arm", "-L", "/usr/arm", "/work/out/build/armv7hf/Debug/unit_test"].map
        RawText.ofString) := by
  have hasked : invocation ∈ invocations (ledger script.collaborators plan context []) := by
    decide +kernel
  exact ⟨hasked, run_starts _ _ _ _ hasked, by decide +kernel⟩

end Sample

end Trial

end PackageTrial
