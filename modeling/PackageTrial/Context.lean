import PackageTrial.Capability
import PackageTrial.Environment

/-!
# The context of a trial

What a trial knows of its surroundings: the target, the host, what the operator overrides and the
environment. It is fixed before the trial starts, so every step sees the same.
-/

namespace PackageTrial

/-- The surroundings of a trial. -/
structure Context where
  /-- What the trial builds for. -/
  target : Settings
  host : Host
  overrides : Overrides
  /-- The environment that child processes inherit. -/
  base : Snapshot
  deriving Inhabited

namespace Context

/-- Whether and how the host runs binaries of the target. -/
def verdict (c : Context) : Verdict :=
  Verdict.decide c.target c.host c.overrides

/-- The test binary may be run. -/
def canExecute (c : Context) : Bool :=
  c.verdict.canExecute

/-- The target is not the host. -/
def isCrossBuilding (c : Context) : Bool :=
  decide (c.target.os ≠ c.host.os ∨ c.target.arch ≠ c.host.arch)

end Context

end PackageTrial
