import PackageTrial.Proofs.Layout.Folders

/-!
# Layouts stay below the output root

No value of a setting leads a layout out of its output root: the build directory lies below `build`,
in at most one folder whose name is an ordinary component, and everything else of the layout lies
below the build directory (`Layout.Contained`). A value that would lead out is refused instead, and
so is a variable that is unknown; the first of them in the list decides the error
(`compute_contained`).
-/

namespace PackageTrial.Layout

open Settings
open PackageTrial.Path (IsEntryName)

/-- A layout of options and settings lies where it has to. -/
structure Contained (o : LayoutOptions) (s : Settings) (l : Layout) : Prop where
  /-- The build directory: below `build`, in at most one folder, for one build type or for all. -/
  build_dir : ∃ folder : List Path.Component, folder.length ≤ 1 ∧ (∀ c ∈ folder, c.IsOrdinary) ∧
    l.buildDir.components = o.outputRoot.components ++ [.name (RawText.ofString "build")] ++
      folder ++ if o.multiConfig then [] else [.name (RawText.ofString s.buildType.name)]
  /-- The only directory of binaries. -/
  bin_dirs : l.binDirs =
    [if o.multiConfig then l.buildDir.child s.buildType.name else l.buildDir]
  generators_dir : l.generatorsDir = l.buildDir.child "generators"
  /-- A binary lies in the directory of binaries itself, for whatever system it is named. -/
  binary : ∀ name (target : Settings) path, l.binaryPath name target = .ok path →
    path.parent = some l.primaryBinDir

theorem folderStep_length_le (folder : String) : (folderStep folder).length ≤ 1 := by
  unfold folderStep
  split <;> simp

theorem isOrdinary_of_mem_folderStep {s : Settings} {names : List String}
    (h : ∀ name ∈ names, ∀ e, ¬ Refuses s name e) :
    ∀ c ∈ folderStep (folderText s names), c.IsOrdinary := by
  intro c hc
  unfold folderStep at hc
  split at hc
  · cases hc
  · rename_i hne
    rw [List.mem_singleton.1 hc]
    exact (isEntryName_folderText h hne).isOrdinary

/-! ## Binaries -/

theorem isEntryName_of_checkBinaryName {name : String} (h : checkBinaryName name = .ok ()) :
    IsEntryName name := by
  unfold checkBinaryName at h
  split at h
  · cases h
  · rename_i hvalid
    rw [Bool.or_eq_true, not_or, Bool.not_eq_true', Bool.not_eq_false] at hvalid
    obtain ⟨hblank, hplain⟩ := hvalid
    exact isEntryName_of_isPlain (fun e => hblank (by rw [e]; rfl)) hplain

/-- What is appended to the name of an executable leaves it a name. -/
theorem isEntryName_executable {name : String} (h : IsEntryName name) (os : Os) :
    IsEntryName (name ++ os.executableSuffix) := by
  have hsuffix : os.executableSuffix = "" ∨ os.executableSuffix = ".exe" := by
    cases os <;> simp [Os.executableSuffix]
  rcases hsuffix with hsuffix | hsuffix
  · rw [hsuffix, String.append_empty]
    exact h
  · rw [hsuffix]
    exact h.append (by decide) (show 'x' ∈ ".exe".toList by decide) (by decide)

theorem parent_of_binaryPath {l : Layout} {above : Path} {last : String}
    (hl : l.primaryBinDir = above.child last) (hlast : IsEntryName last) {name : String}
    {target : Settings} {path : Path} (h : l.binaryPath name target = .ok path) :
    path.parent = some l.primaryBinDir := by
  obtain ⟨hname, rfl⟩ := binaryPath_eq_ok_iff.1 h
  rw [hl]
  have hentry := isEntryName_executable (isEntryName_of_checkBinaryName hname) target.os
  exact Path.parent_child_child hlast hentry above

/-! ## Layouts -/

theorem contained_of_compute {o : LayoutOptions} {s : Settings} {l : Layout}
    (h : compute o s = .ok l) : Contained o s l := by
  obtain ⟨hfit, rfl⟩ := compute_eq_ok_iff.1 h
  have htype := isEntryName_buildType s.buildType
  refine ⟨?build_dir, ?bin_dirs, rfl, ?binary⟩
  case build_dir =>
    refine ⟨folderStep (folderText s o.buildFolderVars), folderStep_length_le _,
      isOrdinary_of_mem_folderStep hfit, ?_⟩
    unfold dirOf
    split
    · rw [components_folderDir hfit, List.append_nil]
      rfl
    · rw [Path.components_child htype, components_folderDir hfit]
      rfl
  case bin_dirs =>
    unfold dirOf
    split <;> rfl
  case binary => exact fun name target path hpath => parent_of_binaryPath rfl htype hpath

/-- **Layouts never leave the output root**, and there is none exactly when a listed variable is
unknown or its value would lead out; the first such variable decides the error. -/
theorem compute_contained (o : LayoutOptions) (s : Settings) :
    (∀ l, compute o s = .ok l → Contained o s l) ∧
    ((∃ e, compute o s = .error e) ↔ ∃ name ∈ o.buildFolderVars, ∃ e, Refuses s name e) ∧
    ∀ e, compute o s = .error e ↔
      ∃ before name after, o.buildFolderVars = before ++ name :: after ∧
        (∀ n ∈ before, ∀ e', ¬ Refuses s n e') ∧ Refuses s name e := by
  refine ⟨fun l => contained_of_compute, ?_, fun e => compute_eq_error_iff⟩
  constructor
  · rintro ⟨e, he⟩
    obtain ⟨before, name, after, hnames, -, hrefused⟩ := compute_eq_error_iff.1 he
    exact ⟨name, by simp [hnames], e, hrefused⟩
  · rintro ⟨name, hname, e, hrefused⟩
    cases hcompute : compute o s with
    | error e' => exact ⟨e', rfl⟩
    | ok l => exact absurd hrefused ((compute_eq_ok_iff.1 hcompute).1 name hname e)

/-- A project whose folders are named for the compiler and its version, in one build tree. -/
def dotted : LayoutOptions :=
  ⟨.ofString "/work", .ofString "/work/.", true, ["settings.compiler", "settings.compiler.version"]⟩

/-- A build with a compiler whose name and version are dots. -/
def dots (version : String) : Settings :=
  ⟨.linux, .x86x64, ⟨"...", some version, none⟩, .release⟩

/-- Three dots are a name, two are not. -/
theorem dots_contained :
    (∃ l, compute dotted (dots "...") = .ok l ∧ Contained dotted (dots "...") l) ∧
      compute dotted (dots "..") =
        .error (.unsafeFolderValue "settings.compiler.version" "..") := by
  constructor
  · have hfit : ∀ name ∈ dotted.buildFolderVars, ∀ e, ¬ Refuses (dots "...") name e := by
      rw [dotted, List.forall_mem_cons, List.forall_mem_singleton]
      exact ⟨not_refuses_of_fit (v := .compiler) rfl (by decide +kernel),
        not_refuses_of_fit (v := .compilerVersion) rfl (by decide +kernel)⟩
    exact ⟨_, compute_of_fit hfit, (compute_contained dotted _).1 _ (compute_of_fit hfit)⟩
  · have hfirst : ∀ n ∈ ["settings.compiler"], ∀ e, ¬ Refuses (dots "..") n e :=
      List.forall_mem_singleton.2 (not_refuses_of_fit (v := .compiler) rfl (by decide +kernel))
    have hrefused : Refuses (dots "..") "settings.compiler.version"
        (.unsafeFolderValue "settings.compiler.version" "..") :=
      .unfit .compilerVersion rfl (by decide +kernel)
    exact ((compute_contained dotted _).2.2 _).2 ⟨_, _, [], rfl, hfirst, hrefused⟩

end PackageTrial.Layout
