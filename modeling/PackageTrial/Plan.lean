import PackageTrial.Capability
import PackageTrial.Declaration
import PackageTrial.Layout
import PackageTrial.Stage

/-!
# Plans and reports

A plan says what a trial tests, a report what it found. A trial that could not run its binary is
no failure: its report says why the run was skipped.
-/

namespace PackageTrial

/-! ## Plans -/

/-- What a trial tests and how. -/
structure Plan where
  /-- The package under test. -/
  tested : Reference
  /-- What the test needs besides. -/
  testRequires : List Reference
  layout : LayoutOptions
  /-- The test binary's name, without the suffix of executables. -/
  binary : String
  deriving DecidableEq, Inhabited

namespace Plan

/-- The name of the test binary where none is given. -/
def defaultBinary : String := "unit_test"

/-- The test framework where none is given. -/
def defaultFramework : String := "boost-ext-ut/1.1.9"

/-- A plan that needs nothing besides and uses the default name. -/
def basic (tested : Reference) (layout : LayoutOptions) : Plan :=
  ⟨tested, [], layout, defaultBinary⟩

/-- The declared dependencies: the package under test, then what the test needs. -/
def declarations (p : Plan) : List Declaration :=
  .requires p.tested :: p.testRequires.map .testRequires

end Plan

/-! ## Reports -/

/-- How the last step of a trial went. -/
inductive Outcome
  /-- The binary ran and was content. -/
  | executed (exitCode : Int32)
  /-- The host cannot run the binary. -/
  | skipped (reason : SkipReason)
  deriving DecidableEq, Inhabited

/-- What a trial found. -/
structure Report where
  tested : Reference
  verdict : Verdict
  layout : Layout
  /-- Where the test binary is. -/
  binary : Path
  /-- The stages of the trial, from the first. -/
  stages : List Stage
  outcome : Outcome
  deriving DecidableEq, Inhabited

/-- The exit code that tells of the report. -/
def Report.exitCode (r : Report) : Int32 :=
  match r.outcome with
  | .executed code => code
  | .skipped _ => 0

end PackageTrial
