import PackageTrial.Configuration.Derived
import PackageTrial.Proofs.Dictionary
import PackageTrial.Proofs.Layout.Folders
import PackageTrial.Proofs.Settings.Assignments

/-!
# Valid configurations suffice

A configuration is validated once and used later, by other functions and on another host. What each
section's validation finds out is what the later functions need: the names of a test section
(`TestSection.validate_sound`), the variables of a layout (`LayoutSection.validate_sound`), the
assignments of the settings (`SettingsSection.validate_eq_ok_iff`), the commands of the emulators
(`ExecutionSection.validate_sound`). So of all ways in which they fail only two are left: a test
that requires the package under test, and a setting that is no plain name of a folder
(`Configuration.suffices_of_validate`).
-/

namespace PackageTrial

/-! ## The test -/

namespace TestSection

theorem repeated?_eq_none_iff {seen names : List String} :
    repeated? seen names = none ↔ names.Nodup ∧ ∀ name ∈ names, name ∉ seen := by
  induction names generalizing seen with
  | nil => simp [repeated?]
  | cons name rest ih =>
    by_cases h : name ∈ seen
    · simp [repeated?, h]
    · simp only [repeated?, if_neg h, ih, List.nodup_cons, List.mem_cons, not_or]
      grind

theorem validate_sound {s : TestSection} (h : s.validate = .ok ()) :
    Layout.checkBinaryName s.binary = .ok () ∧
      ∃ references, s.references = .ok references ∧ (references.map (·.name)).Nodup := by
  simp only [validate, Outcome.bind_eq_ok_iff] at h
  obtain ⟨⟨⟩, hbinary, -, -, -, -, references, hreferences, h⟩ := h
  refine ⟨Outcome.mapError_eq_ok_iff.1 hbinary, references, hreferences, ?_⟩
  split at h
  · exact absurd h Outcome.throw_ne_ok
  · rename_i hnone
    exact (repeated?_eq_none_iff.1 hnone).1

/-- The references are what the written requirements read as. -/
theorem exists_mem_references_iff {s : TestSection} {references : List Reference}
    (h : s.references = .ok references) (p : Reference → Prop) :
    (∃ r ∈ references, p r) ↔
      ∃ written ∈ s.requires, ∃ r, Reference.parse written = .ok r ∧ p r := by
  rw [TestSection.references, Outcome.mapM_eq_ok_iff] at h
  simp only [Outcome.mapError_eq_ok_iff] at h
  generalize s.requires = requires at h ⊢
  induction h with
  | nil => simp
  | cons hr _ ih => simp [hr, ih]

end TestSection

/-! ## The layout -/

theorem LayoutSection.validate_sound {s : LayoutSection} (h : s.validate = .ok ()) :
    ∀ name ∈ s.buildFolderVars, Settings.Variable.ofName? name ≠ none := by
  unfold validate at h
  split at h
  · cases hdir : s.outputDir <;>
      simp [hdir, Outcome.bind_eq_ok_iff, Outcome.throw_ne_ok] at h
  · rename_i hnone
    simpa using List.find?_eq_none.1 hnone

namespace Layout

/-- Of known variables only a value can be at fault. -/
theorem unfit_of_compute_eq_error {o : LayoutOptions} {s : Settings} {e : LayoutError}
    (known : ∀ name ∈ o.buildFolderVars, Settings.Variable.ofName? name ≠ none)
    (h : compute o s = .error e) : ∃ name ∈ o.buildFolderVars, ∃ value,
      s.lookup? name = some value ∧ e = .unsafeFolderValue name value := by
  obtain ⟨before, name, after, hnames, -, hrefused⟩ := compute_eq_error_iff.1 h
  have hmem : name ∈ o.buildFolderVars := by simp [hnames]
  cases hrefused with
  | unknown hunknown =>
    obtain ⟨v, hv⟩ := Option.ne_none_iff_exists'.1 (known name hmem)
    exact absurd (Settings.Variable.ofName?_eq_some_iff.1 hv) (hunknown v)
  | unfit v hname =>
    refine ⟨name, hmem, s.value v, ?_, rfl⟩
    rw [Settings.lookup?, Settings.Variable.ofName?_eq_some_iff.2 hname, Option.map_some]

theorem binaryPath_eq_ok {name : String} (h : checkBinaryName name = .ok ()) (l : Layout)
    (s : Settings) :
    l.binaryPath name s = .ok (l.primaryBinDir.child (name ++ s.os.executableSuffix)) :=
  binaryPath_eq_ok_iff.2 ⟨h, rfl⟩

end Layout

/-! ## Settings and emulators -/

theorem SettingsSection.validate_eq_ok_iff {s : SettingsSection} :
    s.validate = .ok () ↔ ∀ a ∈ s.assignments, Settings.IsAssignment a := by
  rw [← Settings.exists_assignAll_iff (Settings.native Host.detected)]
  simp only [validate, Outcome.bind_eq_ok_iff, Outcome.mapError_eq_ok_iff]
  simp [pure, Except.pure]

theorem ExecutionSection.validate_sound {s : ExecutionSection} (h : s.validate = .ok ()) :
    ∀ e ∈ s.emulators.entries, e.2 ≠ [] := by
  simp only [validate, Outcome.bind_eq_ok_iff, Outcome.forM_eq_ok_iff] at h
  obtain ⟨-, -, h⟩ := h
  rintro ⟨arch, command⟩ he rfl
  simpa [checkEmulator, Outcome.bind_eq_ok_iff, Outcome.throw_ne_ok] using h _ he

/-! ## The configuration -/

theorem Plan.declarations_names (p : Plan) :
    p.declarations.map (·.reference.name) = p.tested.name :: p.testRequires.map (·.name) := by
  simp [declarations, Declaration.requires, Declaration.testRequires]

namespace Configuration

theorem validate_eq_ok_iff {c : Configuration} : c.validate = .ok () ↔
    c.test.validate = .ok () ∧ c.layout.validate = .ok () ∧ c.build.validate = .ok () ∧
      c.repository.validate = .ok () ∧ c.settings.validate = .ok () ∧
      c.execution.validate = .ok () := by
  simp only [validate, Outcome.bind_eq_ok_iff, Unique.exists_iff]

/-- On every host a valid section of settings gives settings, from which the caller's start. -/
theorem exists_base {c : Configuration} (h : c.settings.validate = .ok ()) (host : Host) :
    ∃ base, (Settings.native host).assignAll c.settings.assignments = .ok base ∧
      ∀ assignments, c.buildSettings host assignments = base.assignAll assignments := by
  obtain ⟨base, hbase⟩ := (Settings.exists_assignAll_iff (Settings.native host)).2
    (SettingsSection.validate_eq_ok_iff.1 h)
  exact ⟨base, hbase, fun assignments => by simp [buildSettings, hbase, bind, Except.bind]⟩

/-- What a configuration has to offer for a host, assignments of the caller and a package under
test, so that a trial can be prepared. -/
structure Suffices (c : Configuration) (host : Host) (assignments : List String)
    (tested : Reference) : Prop where
  /-- There are settings unless the caller's assignments are none. -/
  settings : (∃ target, c.buildSettings host assignments = .ok target) ↔
    ∀ a ∈ assignments, Settings.IsAssignment a
  /-- There is no plan exactly when the test requires the package under test. -/
  clash : (∃ fault, c.plan tested = .error fault) ↔
    ∃ written ∈ c.test.requires, ∃ r, Reference.parse written = .ok r ∧ r.name = tested.name
  /-- A plan declares every name once. -/
  names : ∀ plan, c.plan tested = .ok plan →
    (plan.declarations.map (·.reference.name)).Nodup
  /-- A plan declares the package under test, and everything else for the test alone. -/
  roles : ∀ plan, c.plan tested = .ok plan →
    ∃ rest, plan.declarations = .requires tested :: rest ∧ ∀ d ∈ rest, d.role = .testRequires
  /-- There is a layout unless the value of a listed setting is no plain name. -/
  layout : ∀ target e, Layout.compute c.layoutOptions target = .error e →
    ∃ name ∈ c.layout.buildFolderVars, ∃ value,
      target.lookup? name = some value ∧ e = .unsafeFolderValue name value
  /-- Every layout has a place for the binary of a plan. -/
  binary : ∀ plan, c.plan tested = .ok plan → ∀ (layout : Layout) (target : Settings),
    ∃ path, layout.binaryPath plan.binary target = .ok path
  /-- Every emulator has a program. -/
  emulators : ∀ e ∈ c.overrides.emulators.entries, e.2 ≠ []

section Plan

variable {c : Configuration} {references : List Reference} (h : c.test.references = .ok references)
include h

theorem plan_eq_ok_iff {tested : Reference} {p : Plan} :
    c.plan tested = .ok p ↔ (∀ r ∈ references, r.name ≠ tested.name) ∧
      p = ⟨tested, references, c.layoutOptions, c.test.binary⟩ := by
  simp only [plan, Outcome.bind_eq_ok_iff, h, Except.ok.injEq, exists_eq_left']
  split
  · rename_i clash hclash
    have hname := List.find?_some hclash
    refine iff_of_false Outcome.throw_ne_ok fun hfree => ?_
    exact hfree.1 clash (List.mem_of_find?_eq_some hclash) (by simpa using hname)
  · rename_i hnone
    have hfree : ∀ r ∈ references, r.name ≠ tested.name := by
      simpa using List.find?_eq_none.1 hnone
    simp only [pure, Except.pure, Except.ok.injEq, eq_comm (b := p)]
    exact (and_iff_right hfree).symm

theorem exists_plan_eq_error_iff {tested : Reference} :
    (∃ fault, c.plan tested = .error fault) ↔ ∃ r ∈ references, r.name = tested.name := by
  cases hplan : c.plan tested with
  | error fault =>
    refine iff_of_true ⟨fault, rfl⟩ ?_
    by_contra! hfree
    cases hplan.symm.trans ((plan_eq_ok_iff h).2 ⟨hfree, rfl⟩)
  | ok p =>
    have hfree := ((plan_eq_ok_iff h).1 hplan).1
    exact iff_of_false (by simp) fun ⟨r, hr, hname⟩ => hfree r hr hname

end Plan

theorem emulators_ne_nil {c : Configuration} (h : ∀ e ∈ c.execution.emulators.entries, e.2 ≠ []) :
    ∀ e ∈ c.overrides.emulators.entries, e.2 ≠ [] := by
  intro e he
  obtain ⟨e', he', rfl⟩ := List.mem_map.1 (Dictionary.mem_of_mem_ofList he)
  exact h e' he'

/-- **A valid configuration suffices**, on every host and for every package under test. -/
theorem suffices_of_validate {c : Configuration} (h : c.validate = .ok ()) (host : Host)
    (assignments : List String) (tested : Reference) :
    c.Suffices host assignments tested := by
  obtain ⟨htest, hlayout, -, -, hsettings, hexecution⟩ := validate_eq_ok_iff.1 h
  obtain ⟨hbinary, references, hreferences, hnames⟩ := TestSection.validate_sound htest
  have hvars := LayoutSection.validate_sound hlayout
  refine ⟨?settings, ?clash, ?names, ?roles, ?layout, ?binary, ?emulators⟩
  case settings =>
    obtain ⟨base, -, hbase⟩ := exists_base hsettings host
    rw [hbase, Settings.exists_assignAll_iff]
  case clash =>
    rw [exists_plan_eq_error_iff hreferences, TestSection.exists_mem_references_iff hreferences]
  case names =>
    intro p hp
    obtain ⟨hfree, rfl⟩ := (plan_eq_ok_iff hreferences).1 hp
    rw [Plan.declarations_names, List.nodup_cons]
    exact ⟨by simpa using hfree, hnames⟩
  case roles =>
    intro p hp
    obtain ⟨-, rfl⟩ := (plan_eq_ok_iff hreferences).1 hp
    exact ⟨_, rfl, by simp [Declaration.testRequires]⟩
  case layout =>
    intro target e he
    exact Layout.unfit_of_compute_eq_error hvars he
  case binary =>
    intro p hp layout target
    obtain ⟨-, rfl⟩ := (plan_eq_ok_iff hreferences).1 hp
    exact ⟨_, Layout.binaryPath_eq_ok hbinary layout target⟩
  case emulators => exact emulators_ne_nil (ExecutionSection.validate_sound hexecution)

/-- A project for a microcontroller, whose programs are emulated. -/
def firmware : Configuration :=
  { Configuration.default (.ofString "/work/firmware") with
    layout := ⟨none, false, ["settings.os", "settings.compiler.version"]⟩
    settings := ⟨some "baremetal", some "cortex-m4f", some "gcc", some "13.2", none, some "Debug"⟩
    execution := ⟨none, .ofList [("cortex-m4f", ["qemu-arm", "-cpu", "cortex-m4"])]⟩ }

/-- The firmware's configuration is valid, and suffices on another host than it was validated on. -/
theorem firmware_suffices : firmware.validate = .ok () ∧
    firmware.Suffices ⟨.windows, .armv8⟩ ["build_type=MinSizeRel"]
      ⟨"libhal", "4.1.0", none, none⟩ :=
  have hvalid : firmware.validate = .ok () := by decide +kernel
  ⟨hvalid, suffices_of_validate hvalid _ _ _⟩

end Configuration

end PackageTrial
