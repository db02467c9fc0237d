import PackageTrial.CMake.Files

/-!
# The build tool

The two command lines with which CMake configures and builds a consumer project. A tree for several
build types learns the build type when it is built, any other when it is configured.
-/

namespace PackageTrial.CMake

/-- How CMake is to be used. -/
structure Tool where
  /-- The command. -/
  command : String
  generator : Option String
  /-- How many jobs may run at a time. -/
  jobs : Option Nat
  multiConfig : Bool
  deriving DecidableEq, Inhabited

namespace Tool

/-- The arguments that configure a job. -/
def configureArgs (t : Tool) (job : Job) : List RawText :=
  let text := RawText.ofString
  let generator := match t.generator with
    | some g => [text "-G", text g]
    | none => []
  let toolchain := text "-DCMAKE_TOOLCHAIN_FILE=" ++
    (job.layout.generatorsDir.child toolchainFile).raw
  let buildType :=
    if t.multiConfig then []
    else [text ("-DCMAKE_BUILD_TYPE=" ++ job.context.target.buildType.name)]
  [text "-S", job.layout.sourceDir.raw, text "-B", job.layout.buildDir.raw] ++ generator ++
    [toolchain] ++ buildType

/-- The arguments that build a job. -/
def buildArgs (t : Tool) (job : Job) : List RawText :=
  let text := RawText.ofString
  let buildType :=
    if t.multiConfig then [text "--config", text job.context.target.buildType.name] else []
  let jobs := match t.jobs with
    | some n => [text "--parallel", text (toString n)]
    | none => []
  [text "--build", job.layout.buildDir.raw] ++ buildType ++ jobs

end Tool

end PackageTrial.CMake
