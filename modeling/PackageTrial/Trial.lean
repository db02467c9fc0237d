import PackageTrial.Context
import PackageTrial.Failure
import PackageTrial.Graph
import PackageTrial.Plan

/-!
# The trial

`Trial.run` resolves the declared packages, lays out the build, configures it, builds it, and runs
the test binary when the host can. The steps follow one another strictly and the first failure ends
the trial. What the steps do to the world is left to collaborators, who work in any monad; the
trial itself decides only the order, the arguments and what becomes of the answers.
-/

namespace PackageTrial

/-- What the build steps are about. -/
structure Job where
  tested : Reference
  layout : Layout
  graph : Graph
  context : Context

namespace Job

/-- The environment of build tools. -/
def buildEnvironment (j : Job) : Overlay :=
  j.graph.buildEnvironment

/-- The environment of the test binary. -/
def runEnvironment (j : Job) : Overlay :=
  j.graph.runEnvironment j.context.target.os

end Job

/-- A run of the test binary. -/
structure Invocation where
  program : Path
  workingDir : Path
  environment : Overlay
  /-- The environment that the overlay edits. -/
  base : Snapshot
  /-- The command line that runs foreign binaries, when one is needed. -/
  emulator : Option (List String)
  deriving DecidableEq

/-- The run of the binary that a job has built. -/
def Job.invocation (j : Job) (binary : Path) : Invocation :=
  ⟨binary, j.layout.primaryBinDir, j.runEnvironment, j.context.base, j.context.verdict.emulator?⟩

/-- What a trial tells while it goes on. -/
inductive Notice
  /-- A stage was entered. -/
  | stage (stage : Stage)
  /-- The binary is not going to be run. -/
  | skip (verdict : Verdict)
  /-- The binary is about to be run. -/
  | execute (program : Path)
  deriving DecidableEq

/-- Those who act for a trial. -/
structure Collaborators (m : Type → Type) where
  /-- Finds the declared packages and all that they require. -/
  resolve : List Declaration → Settings → m (Except ResolveError Graph)
  configure : Job → m (Except ToolError Unit)
  build : Job → m (Except ToolError Unit)
  /-- There is a regular file at the path. -/
  isFile : Path → m Bool
  execute : Invocation → m (Except ToolError Status)
  notify : Notice → m Unit

namespace Trial

variable {m : Type → Type} [Monad m]

/-- Fails as the trial does when a step has failed. -/
def require {ε α : Type} (cause : ε → TrialError) : Except ε α → ExceptT TrialError m α
  | .ok a => pure a
  | .error e => throw (cause e)

/-- Enters a stage and tells of it. -/
def enter (c : Collaborators m) (progress : Progress) (next : Stage) :
    ExceptT TrialError m Progress := do
  let reached ← require .outOfOrder (progress.advance next)
  c.notify (.stage next)
  return reached

/-- Runs the binary of a job, which has to be there and has to be content. -/
def execute (c : Collaborators m) (job : Job) (binary : Path) : ExceptT TrialError m Status := do
  unless ← c.isFile binary do throw (.missingArtifact binary)
  c.notify (.execute binary)
  let status ← require .run (← c.execute (job.invocation binary))
  unless status.success do throw (.binaryFailed binary status)
  return status

/-- The last step of a job: runs the binary, or tells why it is not run. -/
def conclude (c : Collaborators m) (job : Job) (binary : Path) (progress : Progress) :
    ExceptT TrialError m (Outcome × Progress) := do
  match job.context.verdict.reason? with
  | none =>
    let status ← execute c job binary
    return (.executed status.exitCode, ← enter c progress .executed)
  | some reason =>
    c.notify (.skip job.context.verdict)
    return (.skipped reason, ← enter c progress .skippedExecution)

/-- Runs a trial. -/
def run (c : Collaborators m) (plan : Plan) (context : Context) : ExceptT TrialError m Report := do
  let target := context.target
  let graph ← require .resolution (← c.resolve plan.declarations target)
  let progress ← enter c .initial .dependenciesDeclared
  let layout ← require .layout (Layout.compute plan.layout target)
  let binary ← require .layout (layout.binaryPath plan.binary target)
  let progress ← enter c progress .layoutComputed
  let job : Job := ⟨plan.tested, layout, graph, context⟩
  require .configure (← c.configure job)
  let progress ← enter c progress .configured
  require .build (← c.build job)
  let progress ← enter c progress .built
  let (outcome, progress) ← conclude c job binary progress
  let progress ← enter c progress .done
  return ⟨plan.tested, context.verdict, layout, binary, progress.visited, outcome⟩

end Trial

end PackageTrial
