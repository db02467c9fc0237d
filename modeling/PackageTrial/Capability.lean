import PackageTrial.Dictionary
import PackageTrial.Settings

/-!
# Whether the host can run the binary

`Verdict.decide` compares the target with the host. In order: the host's own platform always runs;
an override forbids or forces; a configured emulator runs the target's architecture; firmware and
other systems do not run; a few pairs of architectures run by a rule; nothing else does. So no
override forbids a native run.
-/

namespace PackageTrial

/-- What the operator says about runs of foreign binaries. -/
structure Overrides where
  /-- Forbids or forces them. -/
  canRun : Option Bool
  /-- Emulator command lines by canonical architecture. -/
  emulators : Dictionary (List String)
  deriving Inhabited

namespace Overrides

/-- Nothing is overridden. -/
def none : Overrides := ⟨Option.none, Dictionary.empty⟩

/-- The emulator command line for an architecture; an empty one counts as absent. -/
def emulatorFor (o : Overrides) (arch : String) : Option (List String) :=
  (o.emulators.get? arch).filter (· ≠ [])

end Overrides

/-! ## Compatible architectures -/

/-- Hosts of one architecture that also run another. -/
structure CompatibilityRule where
  name : String
  hostSystems : List Os
  hostArch : Arch
  targetArch : Arch

namespace CompatibilityRule

/-- The rules, in the order in which they are tried. -/
def all : List CompatibilityRule :=
  [⟨"x86_64-runs-x86", [.linux, .windows, .freeBsd], .x86x64, .x86⟩,
   ⟨"armv8-runs-armv7hf", [.linux, .android], .armv8, .armv7hf⟩,
   ⟨"armv8-runs-armv7", [.linux, .android], .armv8, .armv7⟩,
   ⟨"armv7hf-runs-armv7", [.linux], .armv7hf, .armv7⟩,
   ⟨"armv7-runs-armv6", [.linux], .armv7, .armv6⟩,
   ⟨"rosetta-x86_64", [.macos], .armv8, .x86x64⟩]

/-- The rule lets the host run the architecture. Platforms are told apart by their spellings. -/
def applies (rule : CompatibilityRule) (host : Host) (target : Arch) : Bool :=
  decide (rule.hostArch.name = host.arch.name) && decide (rule.targetArch.name = target.name) &&
    decide (host.os.name ∈ rule.hostSystems.map Os.name)

end CompatibilityRule

/-! ## The verdict -/

/-- Why a binary is not run. -/
inductive SkipReason
  /-- An override forbids it. -/
  | disabled
  /-- The target has no operating system. -/
  | baremetal
  /-- The target's system is not the host's. -/
  | osMismatch
  /-- The host does not run the target's architecture. -/
  | archMismatch
  deriving DecidableEq, Inhabited

namespace SkipReason

/-- The reason's name. -/
def label : SkipReason → String
  | .disabled => "disabled"
  | .baremetal => "baremetal"
  | .osMismatch => "os_mismatch"
  | .archMismatch => "arch_mismatch"

/-- Every reason. -/
def all : List SkipReason := [.disabled, .baremetal, .osMismatch, .archMismatch]

end SkipReason

/-- Whether and how a binary runs on the host. -/
inductive Verdict
  /-- The target is the host. -/
  | native
  /-- By the rule of that name. -/
  | compatible (rule : String)
  /-- Through an emulator command line. -/
  | emulated (command : List String)
  /-- An override says so. -/
  | forced
  | unavailable (reason : SkipReason)
  deriving DecidableEq, Inhabited

namespace Verdict

/-- The binary may be run. -/
def canExecute : Verdict → Bool
  | .unavailable _ => false
  | _ => true

/-- The emulator command line, when there is one. -/
def emulator? : Verdict → Option (List String)
  | .emulated command => some command
  | _ => none

/-- The verdict's name. -/
def label : Verdict → String
  | .native => "native"
  | .compatible _ => "compatible"
  | .emulated _ => "emulated"
  | .forced => "forced"
  | .unavailable _ => "unavailable"

/-- The reason against a run, when there is one. -/
def reason? : Verdict → Option SkipReason
  | .unavailable reason => some reason
  | _ => none

/-- Whether a binary built for the target runs on the host. -/
def decide (target : Settings) (host : Host) (overrides : Overrides) : Verdict :=
  if target.os = host.os ∧ target.arch = host.arch then .native
  else match overrides.canRun with
    | some false => .unavailable .disabled
    | some true => .forced
    | none =>
      match overrides.emulatorFor target.arch.name with
      | some command => .emulated command
      | none =>
        if target.os = .baremetal ∨ target.arch.isMicrocontroller then .unavailable .baremetal
        else if target.os ≠ host.os then .unavailable .osMismatch
        else match CompatibilityRule.all.find? (·.applies host target.arch) with
          | some rule => .compatible rule.name
          | none => .unavailable .archMismatch

end Verdict

end PackageTrial
