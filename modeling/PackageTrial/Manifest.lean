import PackageTrial.Failure
import PackageTrial.Toml.Decode

/-!
# Package manifests

The file in which a package says what it is, what it requires, what its consumers need of it and
on which platforms it works.
-/

namespace PackageTrial

/-- What consumers of a package need; directories are seen from the package. -/
structure Usage where
  includeDirs : List Path
  libDirs : List Path
  binDirs : List Path
  libs : List String
  deriving DecidableEq, Inhabited

/-- The platforms on which a package works; an empty list stands for all. -/
structure Compatibility where
  os : List String
  arch : List String
  deriving DecidableEq, Inhabited

/-- A manifest. -/
structure Manifest where
  name : String
  version : String
  revision : Option String
  requires : List String
  usage : Usage
  compatibility : Compatibility
  deriving DecidableEq, Inhabited

open Toml Toml.Decoder

/-- The shape of what consumers need. -/
def Usage.decode : Decoder Usage := fun v => do
  let fields ← record ["include_dirs", "lib_dirs", "bin_dirs", "libs"] v
  return ⟨← fields.get "include_dirs" (list path) [], ← fields.get "lib_dirs" (list path) [],
    ← fields.get "bin_dirs" (list path) [], ← fields.get "libs" (list string) []⟩

/-- The shape of the supported platforms. -/
def Compatibility.decode : Decoder Compatibility := fun v => do
  let fields ← record ["os", "arch"] v
  return ⟨← fields.get "os" (list string) [], ← fields.get "arch" (list string) []⟩

namespace Manifest

/-- The name of the file. -/
def fileName : String := "pkgcheck-package.toml"

/-- The most bytes of the file. -/
def maxFileSize : Nat := 256 * 1024

/-- The shape of a manifest. -/
def decode : Decoder Manifest := fun v => do
  let fields ← record ["name", "version", "revision", "requires", "cpp", "compatibility"] v
  return ⟨← fields.require "name" string, ← fields.require "version" string,
    ← fields.get "revision" (present string) none, ← fields.get "requires" (list string) [],
    ← fields.get "cpp" Usage.decode ⟨[], [], [], []⟩,
    ← fields.get "compatibility" Compatibility.decode ⟨[], []⟩⟩

/-- Reads the manifest of a file for the package of a name and version. -/
def read (bytes : ByteArray) (name version : String) : Except ManifestFault Manifest :=
  if maxFileSize < bytes.size then .error .tooLarge
  else match String.fromUTF8? bytes with
    | none => .error .notUtf8
    | some content =>
      match Toml.readAs decode content with
      | .error fault => .error (.document fault)
      | .ok m =>
        if m.name = name ∧ m.version = version then .ok m else .error (.declares m.name m.version)

/-! ## What a manifest says -/

/-- The references to the required packages. -/
def requirements (m : Manifest) : Except ManifestFault (List Reference) :=
  m.requires.mapM fun written => (Reference.parse written).mapError .badReference

/-- The reference to the package of a manifest: the requested one, with the manifest's revision
where the manifest has one. The reference is written and read again, which checks the revision. -/
def canonical (m : Manifest) (requested : Reference) : Except ManifestFault Reference :=
  match m.revision with
  | none => .ok requested
  | some revision =>
    (Reference.parse (requested.withoutRevision.text ++ "#" ++ revision)).mapError .badReference

/-- The first setting of the target that the package does not support, and its value. -/
def unsupported? (m : Manifest) (target : Settings) : Option (Restriction × String) :=
  let c := m.compatibility
  if c.os ≠ [] ∧ ¬ c.os.any (Os.parse · = target.os) then some (.os, target.os.name)
  else if c.arch ≠ [] ∧ ¬ c.arch.any (Arch.parse · = target.arch) then
    some (.arch, target.arch.name)
  else none

/-- A component that stays inside the directory. -/
def staysInside : Path.Component → Bool
  | .name _ | .here => true
  | .root | .up => false

/-- The directories of a package, each of which has to stay inside of it. -/
def placedDirs (root : Path) (dirs : List Path) : Except ManifestFault (List Path) :=
  dirs.mapM fun dir =>
    if dir.components.all staysInside then .ok (root.join dir) else .error (.escapingDirectory dir)

end Manifest

end PackageTrial
