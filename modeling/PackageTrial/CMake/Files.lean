import PackageTrial.CMake.Quoted
import PackageTrial.Trial
import PackageTrial.Workspace

/-!
# Generated files

The files through which a consumer project finds the resolved packages: a toolchain, one file for
each package, and the two environments for inspection. `writeShowing` puts
them where the layout says; the environments that `write` shows follow from the job.
-/

namespace PackageTrial.CMake

/-- The name of the toolchain file. -/
def toolchainFile : String := "pkgcheck_toolchain.cmake"

/-- The name of the file that shows the build environment. -/
def buildEnvironmentFile : String := "pkgcheck-build.env"

/-- The name of the file that shows the run environment. -/
def runEnvironmentFile : String := "pkgcheck-run.env"

/-- The name of the file in which a package is looked up. -/
def packageFile (p : Package) : String := p.reference.name ++ "-config.cmake"

/-- The first line of every file for CMake. -/
def header : String := "# Generated by pkgcheck. Do not edit."

/-- The lines, each with its end. -/
def lines (ls : List String) : String :=
  String.join (ls.map (· ++ "\n"))

/-- The command that sets a variable to a text. -/
def setText (name value : String) : String :=
  s!"set({name} " ++ inQuotes (quoted value) ++ ")"

/-! ## The toolchain -/

/-- The build type, which a multi-configuration tree learns later. -/
def buildTypeLines (target : Settings) (multiConfig : Bool) : List String :=
  if multiConfig then []
  else
    ["set(CMAKE_BUILD_TYPE " ++ inQuotes target.buildType.name ++ " CACHE STRING " ++
      inQuotes "pkgcheck build type" ++ " FORCE)"]

/-- The compiler. -/
def compilerLines (c : Compiler) : List String :=
  [setText "PKGCHECK_COMPILER" c.name] ++
    (c.version.map (setText "PKGCHECK_COMPILER_VERSION")).toList ++
    (c.libcxx.map (setText "PKGCHECK_COMPILER_LIBCXX")).toList

/-- The target system, where it is not the host's. -/
def crossLines (context : Context) : List String :=
  if context.isCrossBuilding then
    [setText "CMAKE_SYSTEM_NAME" context.target.os.systemName,
      setText "CMAKE_SYSTEM_PROCESSOR" context.target.arch.processor] ++
      if context.target.arch.isMicrocontroller then
        ["set(CMAKE_TRY_COMPILE_TARGET_TYPE STATIC_LIBRARY)"]
      else []
  else []

/-- Where packages are looked for. -/
def searchLines (job : Job) : List String :=
  ("list(PREPEND CMAKE_PREFIX_PATH " ++ inQuotes (quotedPath job.layout.generatorsDir) ++ ")") ::
    job.graph.packages.map fun p =>
      "list(APPEND CMAKE_FIND_ROOT_PATH " ++ inQuotes (quotedPath p.root) ++ ")"

/-- The toolchain file. -/
def toolchain (job : Job) (multiConfig : Bool) : String :=
  let target := job.context.target
  lines <|
    [header] ++ buildTypeLines target multiConfig ++
      [setText "PKGCHECK_TESTED_REFERENCE" job.tested.text] ++ compilerLines target.compiler ++
      crossLines job.context ++ searchLines job ++ ["set(CMAKE_FIND_PACKAGE_PREFER_CONFIG ON)"]

/-! ## Packages -/

/-- The file of a package. -/
def packageConfig (p : Package) : String :=
  let name := p.reference.name
  let target := name ++ "::" ++ name
  let libs := ";".intercalate (p.libs.map quoted)
  lines
    [header,
     s!"if(NOT TARGET {target})",
     s!"  add_library({target} INTERFACE IMPORTED)",
     s!"  set_target_properties({target} PROPERTIES",
     "    INTERFACE_INCLUDE_DIRECTORIES " ++ inQuotes (quotedPaths p.includeDirs),
     "    INTERFACE_LINK_DIRECTORIES " ++ inQuotes (quotedPaths p.libDirs),
     "    INTERFACE_LINK_LIBRARIES " ++ inQuotes libs ++ ")",
     "endif()",
     s!"set({name}_FOUND TRUE)",
     setText (name ++ "_VERSION") p.reference.version]

/-! ## Writing -/

/-- The names and contents of the files of a job, which show the environments of the build tools and
of the test binary. -/
def files (job : Job) (build run : Overlay) (multiConfig : Bool) : List (String × String) :=
  (toolchainFile, toolchain job multiConfig) ::
    job.graph.packages.map (fun p => (packageFile p, packageConfig p)) ++
    [(buildEnvironmentFile, build.render job.context.base),
     (runEnvironmentFile, run.render job.context.base)]

/-- Names the path that could not be written. -/
def preparing {α : Type} (path : Path) (action : ExceptT Fault (StateM Workspace) α) :
    ExceptT ToolError (StateM Workspace) α :=
  action.adapt fun fault =>
    .prepare ("failed to write " ++ path.display ++ ": " ++ fault.message)

/-- Writes files into a directory, in order. -/
def writeInto (dir : Path) : List (String × String) → ExceptT ToolError (StateM Workspace) Unit
  | [] => return
  | (name, text) :: rest => do
    preparing (dir.child name) (Workspace.writeText (dir.child name) text)
    writeInto dir rest

/-- Writes the files of a job, with the environments to show. -/
def writeShowing (job : Job) (build run : Overlay) (multiConfig : Bool) :
    ExceptT ToolError (StateM Workspace) Unit := do
  let dir := job.layout.generatorsDir
  preparing dir (Workspace.makeDirs dir)
  writeInto dir (files job build run multiConfig)

/-- Writes the files of a job. -/
def write (job : Job) (multiConfig : Bool) : ExceptT ToolError (StateM Workspace) Unit :=
  writeShowing job job.buildEnvironment job.runEnvironment multiConfig

end PackageTrial.CMake
