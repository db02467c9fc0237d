import PackageTrial.Declaration
import PackageTrial.Environment
import PackageTrial.Platform

/-!
# Resolved packages

A graph lists the packages that declarations led to, each after everything it requires. The
environments for building and for running follow from it alone.
-/

namespace PackageTrial

/-- A package that was selected. -/
structure Package where
  reference : Reference
  role : Role
  /-- Its directory. -/
  root : Path
  includeDirs : List Path
  libDirs : List Path
  binDirs : List Path
  /-- The libraries to link. -/
  libs : List String
  deriving DecidableEq, Inhabited

/-- The selected packages, dependencies first. -/
structure Graph where
  packages : List Package
  deriving DecidableEq, Inhabited

namespace Graph

/-- The package of a name. -/
def get? (g : Graph) (name : String) : Option Package :=
  g.packages.find? (·.reference.name = name)

/-- The packages that consumers of the tested package see. -/
def propagated (g : Graph) : List Package :=
  g.packages.filter (·.role.propagates)

/-- The edits that expose a package's executables. -/
def toolEdits (p : Package) : List Edit :=
  p.binDirs.map (.prepend "PATH")

/-- The edits that let the loader find a package's libraries. -/
def libraryEdits (os : Os) (p : Package) : List Edit :=
  p.libDirs.map (.prepend os.libraryVariable)

/-- The environment of build tools: the executables of every package. -/
def buildEnvironment (g : Graph) : Overlay :=
  ⟨g.packages.flatMap toolEdits⟩

/-- The environment of the test binary: the executables and libraries of every package. -/
def runEnvironment (g : Graph) (os : Os) : Overlay :=
  ⟨g.packages.flatMap fun p => toolEdits p ++ libraryEdits os p⟩

end Graph

end PackageTrial
