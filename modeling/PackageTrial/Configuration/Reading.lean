import PackageTrial.Configuration.Basic
import PackageTrial.Toml.Decode

/-!
# Reading configurations

The shape of a configuration file: a record of sections, each a record of its fields, in which
everything may be left out and nothing else may stand.
-/

namespace PackageTrial

open Toml Toml.Decoder

/-- The shape of the test section. -/
def TestSection.decode : Decoder TestSection := fun v => do
  let fields ← record ["binary", "source_dir", "requires"] v
  let absent := TestSection.default
  return ⟨← fields.get "binary" string absent.binary,
    ← fields.get "source_dir" path absent.sourceDir,
    ← fields.get "requires" (list string) absent.requires⟩

/-- The shape of the layout section. -/
def LayoutSection.decode : Decoder LayoutSection := fun v => do
  let fields ← record ["output_dir", "multi_config", "build_folder_vars"] v
  return ⟨← fields.get "output_dir" (present path) none,
    ← fields.get "multi_config" boolean false,
    ← fields.get "build_folder_vars" (list string) []⟩

/-- The shape of the build section. -/
def BuildSection.decode : Decoder BuildSection := fun v => do
  let fields ← record ["cmake", "generator", "jobs"] v
  return ⟨← fields.get "cmake" string BuildSection.default.cmake,
    ← fields.get "generator" (present string) none,
    ← fields.get "jobs" (present (natural UInt32.size)) none⟩

/-- The shape of the repository section. -/
def RepositorySection.decode : Decoder RepositorySection := fun v => do
  let fields ← record ["root"] v
  return ⟨← fields.get "root" (present path) none⟩

/-- The shape of the settings section. -/
def SettingsSection.decode : Decoder SettingsSection := fun v => do
  let fields ←
    record ["os", "arch", "compiler", "compiler_version", "compiler_libcxx", "build_type"] v
  let text (name : String) := fields.get name (present string) none
  return ⟨← text "os", ← text "arch", ← text "compiler", ← text "compiler_version",
    ← text "compiler_libcxx", ← text "build_type"⟩

/-- The shape of the execution section. -/
def ExecutionSection.decode : Decoder ExecutionSection := fun v => do
  let fields ← record ["can_run", "emulators"] v
  return ⟨← fields.get "can_run" (present boolean) none,
    ← fields.get "emulators" (dictionary (list string)) Dictionary.empty⟩

namespace Configuration

/-- The shape of a configuration, whose paths are seen from the given directory. -/
def decode (baseDir : Path) : Decoder Configuration := fun v => do
  let fields ←
    record ["test", "layout", "build", "repository", "settings", "execution"] v
  return ⟨← fields.get "test" TestSection.decode .default,
    ← fields.get "layout" LayoutSection.decode .default,
    ← fields.get "build" BuildSection.decode .default,
    ← fields.get "repository" RepositorySection.decode .default,
    ← fields.get "settings" SettingsSection.decode .default,
    ← fields.get "execution" ExecutionSection.decode .default,
    baseDir⟩

/-- Reads a configuration, valid or not. -/
def parse (document : String) (baseDir : Path) : Except ConfigurationError Configuration :=
  (Toml.readAs (decode baseDir) document).mapError .document

end Configuration

end PackageTrial
