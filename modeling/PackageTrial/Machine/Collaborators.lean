import PackageTrial.CMake.Tool
import PackageTrial.Machine
import PackageTrial.Repository

/-!
# Collaborators on a machine

The ones who act for a trial on a machine: packages come from a repository in its workspace, CMake
configures and builds, and the test binary runs as a child process.
-/

namespace PackageTrial.Machine

/-- Runs the build tool with arguments. -/
def runTool (t : CMake.Tool) (job : Job) (args : List RawText) :
    StateM Machine (Except ToolError Unit) := do
  let command :=
    Command.tool (RawText.ofString t.command) args none job.buildEnvironment job.context.base
  return ToolError.ofTool t.command (← start command)

/-- Configures a job: writes its files, then runs the build tool. -/
def configure (t : CMake.Tool) (job : Job) : StateM Machine (Except ToolError Unit) := do
  match ← onWorkspace (CMake.write job t.multiConfig).run with
  | .error e => return .error e
  | .ok () => runTool t job (t.configureArgs job)

/-- Runs the test binary. -/
def execute (i : Invocation) : StateM Machine (Except ToolError Status) := do
  match i.command with
  | .error e => return .error e
  | .ok command => return ToolError.ofStart i.program.display (← start command)

/-- Those who act for a trial whose packages are below a root. -/
def collaborators (root : Path) (t : CMake.Tool) : Collaborators (StateM Machine) where
  resolve declarations target := do
    return Repository.resolve ⟨(← get).workspace, root⟩ declarations target
  configure := configure t
  build job := runTool t job (t.buildArgs job)
  isFile path := return (← get).workspace.isFile path
  execute := execute
  notify _ := return

end PackageTrial.Machine
