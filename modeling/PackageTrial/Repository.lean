import PackageTrial.Manifest
import PackageTrial.Resolution
import PackageTrial.Workspace

/-!
# Package repositories

A repository is a directory with a directory for every package, named for the parts of its
reference. What it offers for a reference is told by the manifest there.
-/

namespace PackageTrial

/-- A directory of packages in a workspace. -/
structure Repository where
  workspace : Workspace
  root : Path

namespace Repository

/-- The directory of a package in the repository at a root. -/
def packageDir (root : Path) (reference : Reference) : Path :=
  let dir := (root.child reference.name).child reference.version
  match reference.scope with
  | some scope => (dir.child scope.user).child scope.channel
  | none => dir

/-- The file of a package's manifest. -/
def manifestPath (root : Path) (reference : Reference) : Path :=
  (packageDir root reference).child Manifest.fileName

/-- The manifest of a package. -/
def manifestOf (repository : Repository) (reference : Reference) :
    Except ResolveError Manifest := do
  let path := manifestPath repository.root reference
  if ¬ repository.workspace.isFile path then throw (.notFound reference)
  let bytes ← (repository.workspace.read path).mapError fun fault => .io fault.message
  (Manifest.read bytes reference.name reference.version).mapError (.manifest reference)

/-- What a manifest says that the package of a reference contains. -/
def contentsOf (repository : Repository) (reference : Reference) (m : Manifest) :
    Except ManifestFault Contents := do
  let root := packageDir repository.root reference
  let canonical ← m.canonical reference
  return ⟨canonical, root, ← Manifest.placedDirs root m.usage.includeDirs,
    ← Manifest.placedDirs root m.usage.libDirs, ← Manifest.placedDirs root m.usage.binDirs,
    m.usage.libs⟩

/-- Accepts a manifest whose revision is the one that the reference pins, if it pins one. -/
def checkPin (reference : Reference) (m : Manifest) : Except ResolveError Unit :=
  match reference.revision with
  | none => .ok ()
  | some _ =>
    if m.revision = reference.revision then .ok ()
    else .error (.revisionMismatch reference (m.revision.getD "none"))

/-- What the repository offers for a reference to builds for the target. -/
def offer (repository : Repository) (target : Settings) (reference : Reference) :
    Except ResolveError Offer := do
  let m ← repository.manifestOf reference
  checkPin reference m
  if let some (setting, value) := m.unsupported? target then
    throw (.incompatible reference setting value)
  let requires ← m.requirements.mapError (.manifest reference)
  return ⟨requires, repository.contentsOf reference m⟩

/-- Selects the packages for declarations and all that they require. -/
def resolve (repository : Repository) (declarations : List Declaration) (target : Settings) :
    Except ResolveError Graph :=
  Resolution.resolve (repository.offer target) declarations

end Repository

end PackageTrial
