import PackageTrial.Configuration.Basic
import PackageTrial.Graph
import PackageTrial.Json
import PackageTrial.Plan
import PackageTrial.Failure

/-!
# Written forms

The JSON forms of the data, with the members of each object in their fixed order. A path need not be
a text, so whoever writes one says what becomes of it.
-/

namespace PackageTrial

/-- A list of values. -/
def Json.list {α : Type} (encode : α → Json) (values : List α) : Json :=
  .array (values.map encode)

/-- A value or nothing. -/
def Json.optional {α : Type} (encode : α → Json) (value : Option α) : Json :=
  (value.map encode).getD .null

/-- A dictionary. -/
def Json.dictionary {α : Type} (encode : α → Json) (d : Dictionary α) : Json :=
  .object (d.entries.map fun e => (e.1, encode e.2))

/-! ## Platforms and settings -/

/-- The written form. -/
def Host.toJson (h : Host) : Json :=
  .object [("os", .string h.os.name), ("arch", .string h.arch.name)]

/-- The written form. -/
def Compiler.toJson (c : Compiler) : Json :=
  .object [("name", .string c.name), ("version", .option c.version), ("libcxx", .option c.libcxx)]

/-- The written form. -/
def Settings.toJson (s : Settings) : Json :=
  .object [("os", .string s.os.name), ("arch", .string s.arch.name),
    ("compiler", s.compiler.toJson), ("build_type", .string s.buildType.name)]

/-! ## Verdicts -/

/-- The written form. -/
def Verdict.toJson : Verdict → Json
  | .native => .object [("kind", .string "native")]
  | .compatible rule => .object [("kind", .string "compatible"), ("rule", .string rule)]
  | .emulated command => .object [("kind", .string "emulated"), ("emulator", .strings command)]
  | .forced => .object [("kind", .string "forced")]
  | .unavailable reason =>
    .object [("kind", .string "unavailable"), ("reason", .string reason.label)]

/-- The written form. -/
def Overrides.toJson (o : Overrides) : Json :=
  .object [("can_run", .optional .bool o.canRun), ("emulators", .dictionary .strings o.emulators)]

/-! ## Declarations and processes -/

/-- The written form. -/
def Declaration.toJson (d : Declaration) : Json :=
  .object [("reference", .string d.reference.text), ("role", .string d.role.label)]

/-- The written form. -/
def Status.toJson (s : Status) : Json :=
  let number (n : Int32) := Json.int n.toInt
  .object [("code", .optional number s.code), ("signal", .optional number s.signal)]

/-- The written form. -/
def Outcome.toJson : Outcome → Json
  | .executed code => .object [("status", .string "executed"), ("exit_code", .int code.toInt)]
  | .skipped reason => .object [("status", .string "skipped"), ("reason", .string reason.label)]

/-! ## Data with paths -/

section Paths

variable (path : Path → Json)

/-- The written form. -/
def Layout.toJson (l : Layout) : Json :=
  .object [("source_dir", path l.sourceDir), ("build_dir", path l.buildDir),
    ("generators_dir", path l.generatorsDir), ("bindirs", .list path l.binDirs)]

/-- The written form. -/
def LayoutOptions.toJson (o : LayoutOptions) : Json :=
  .object [("source_dir", path o.sourceDir), ("output_root", path o.outputRoot),
    ("multi_config", .bool o.multiConfig), ("build_folder_vars", .strings o.buildFolderVars)]

/-- The written form. -/
def Edit.toJson : Edit → Json
  | .set key value =>
    .object [("op", .string "set"), ("key", .string key), ("value", .string value)]
  | .unset key => .object [("op", .string "unset"), ("key", .string key)]
  | .prepend key dir =>
    .object [("op", .string "prepend"), ("key", .string key), ("path", path dir)]
  | .append key dir => .object [("op", .string "append"), ("key", .string key), ("path", path dir)]

/-- The written form. -/
def Overlay.toJson (o : Overlay) : Json :=
  .list (Edit.toJson path) o.edits

/-- The written form. -/
def Package.toJson (p : Package) : Json :=
  .object [("reference", .string p.reference.text), ("role", .string p.role.label),
    ("root", path p.root), ("include_dirs", .list path p.includeDirs),
    ("lib_dirs", .list path p.libDirs), ("bin_dirs", .list path p.binDirs),
    ("libs", .strings p.libs)]

/-- The written form. -/
def Graph.toJson (g : Graph) : Json :=
  .object [("packages", .list (Package.toJson path) g.packages)]

/-- The written form. -/
def Plan.toJson (p : Plan) : Json :=
  .object [("tested", .string p.tested.text),
    ("test_requires", .list (fun r => .string r.text) p.testRequires),
    ("layout", p.layout.toJson path), ("binary", .string p.binary)]

/-- The written form. -/
def Report.toJson (r : Report) : Json :=
  .object [("tested", .string r.tested.text), ("capability", r.verdict.toJson),
    ("layout", r.layout.toJson path), ("binary", path r.binary),
    ("stages", .list (fun s => .string s.label) r.stages), ("outcome", r.outcome.toJson)]

/-- The written form. -/
def TestSection.toJson (s : TestSection) : Json :=
  .object [("binary", .string s.binary), ("source_dir", path s.sourceDir),
    ("requires", .strings s.requires)]

/-- The written form. -/
def LayoutSection.toJson (s : LayoutSection) : Json :=
  .object [("output_dir", .optional path s.outputDir), ("multi_config", .bool s.multiConfig),
    ("build_folder_vars", .strings s.buildFolderVars)]

/-- The written form. -/
def BuildSection.toJson (s : BuildSection) : Json :=
  .object [("cmake", .string s.cmake), ("generator", .option s.generator),
    ("jobs", .optional (fun n : Nat => .int n) s.jobs)]

/-- The written form. -/
def RepositorySection.toJson (s : RepositorySection) : Json :=
  .object [("root", .optional path s.root)]

/-- The written form. -/
def SettingsSection.toJson (s : SettingsSection) : Json :=
  .object [("os", .option s.os), ("arch", .option s.arch), ("compiler", .option s.compiler),
    ("compiler_version", .option s.compilerVersion),
    ("compiler_libcxx", .option s.compilerLibcxx), ("build_type", .option s.buildType)]

/-- The written form. -/
def ExecutionSection.toJson (s : ExecutionSection) : Json :=
  .object [("can_run", .optional .bool s.canRun), ("emulators", .dictionary .strings s.emulators)]

/-- The written form, without the directory from which paths are seen. -/
def Configuration.toJson (c : Configuration) : Json :=
  .object [("test", c.test.toJson path), ("layout", c.layout.toJson path),
    ("build", c.build.toJson), ("repository", c.repository.toJson path),
    ("settings", c.settings.toJson), ("execution", c.execution.toJson)]

end Paths

end PackageTrial
