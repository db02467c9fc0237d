import PackageTrial.Configuration.Derived
import PackageTrial.Proofs.Configuration.Loading
import PackageTrial.Proofs.Layout.Folders
import PackageTrial.Proofs.Path.Absolute
import PackageTrial.Proofs.Repository.Reached
import PackageTrial.Proofs.Resolution.Selection

/-!
# Anchored configurations

The directory of a loaded configuration is absolute and is that of its file
(`Configuration.directory_of_origin`). Every path of the configuration is seen from there
(`Path.SeenFrom`), and what extends an absolute path is absolute itself, through all of a layout
(`Layout.isFixed_of_compute`) and all of a graph (`Repository.isFixed_of_resolve`). So nothing that
is derived from a loaded configuration depends on the working directory
(`Configuration.load_anchors`).
-/

namespace PackageTrial

/-- A path as it is seen from a directory: an absolute one stays, and any other extends the
directory. -/
structure Path.SeenFrom (dir given seen : Path) : Prop where
  fixed : seen.IsFixed
  stays : given.isAbsolute = true → seen = given
  below : given.isAbsolute = false → seen.components = dir.components ++ Path.steps given.raw

/-! ## Layouts -/

/-- Every path of the layout is fixed. -/
structure Layout.IsFixed (l : Layout) : Prop where
  dirs : ∀ dir ∈ l.sourceDir :: l.buildDir :: l.generatorsDir :: l.binDirs, dir.IsFixed
  binary : ∀ name target path, l.binaryPath name target = .ok path → path.IsFixed

namespace Layout

theorem isFixed_of_compute {o : LayoutOptions} {s : Settings} {l : Layout}
    (hsource : o.sourceDir.IsFixed) (houtput : o.outputRoot.IsFixed) (h : compute o s = .ok l) :
    l.IsFixed := by
  obtain ⟨-, rfl⟩ := compute_eq_ok_iff.1 h
  have hfolder : (folderDir o s).IsFixed := by
    unfold folderDir
    dsimp only
    split_ifs
    · exact houtput.child _
    · exact (houtput.child _).child _
  have hdir : (dirOf o s).IsFixed := by
    unfold dirOf
    split_ifs
    · exact hfolder
    · exact hfolder.child _
  have htyped := hfolder.child s.buildType.name
  refine ⟨?_, fun name target path hpath => ?_⟩
  · simp only [List.forall_mem_cons]
    exact ⟨hsource, hdir, hdir.child _, htyped, List.forall_mem_nil _⟩
  · obtain ⟨-, rfl⟩ := binaryPath_eq_ok_iff.1 hpath
    exact htyped.child _

end Layout

/-! ## Packages -/

/-- Every directory of the package is fixed. -/
structure Package.IsFixed (p : Package) : Prop where
  root : p.root.IsFixed
  dirs : ∀ dir ∈ p.includeDirs ++ p.libDirs ++ p.binDirs, dir.IsFixed

namespace Repository

theorem isFixed_packageDir {root : Path} (h : root.IsFixed) (r : Reference) :
    (packageDir root r).IsFixed := by
  unfold packageDir
  dsimp only
  split
  · exact (((h.child _).child _).child _).child _
  · exact (h.child _).child _

theorem isFixed_of_placedDirs {root : Path} (h : root.IsFixed) {dirs placed : List Path}
    (hplaced : Manifest.placedDirs root dirs = .ok placed) : ∀ dir ∈ placed, dir.IsFixed := by
  intro dir hdir
  obtain ⟨written, -, hwritten⟩ := Outcome.exists_of_mem_mapM hplaced hdir
  split at hwritten
  · cases hwritten
    exact h.join _
  · cases hwritten

theorem isFixed_of_contentsOf {repository : Repository} (hroot : repository.root.IsFixed)
    {r : Reference} {m : Manifest} {contents : Contents}
    (h : repository.contentsOf r m = .ok contents) (role : Role) :
    (Resolution.packageOf role contents).IsFixed := by
  have hdir := isFixed_packageDir hroot r
  simp only [contentsOf, Outcome.bind_eq_ok_iff] at h
  obtain ⟨canonical, -, includeDirs, hinclude, libDirs, hlib, binDirs, hbin, h⟩ := h
  cases h
  refine ⟨hdir, ?_⟩
  simp only [Resolution.packageOf, List.forall_mem_append]
  exact ⟨⟨isFixed_of_placedDirs hdir hinclude, isFixed_of_placedDirs hdir hlib⟩,
    isFixed_of_placedDirs hdir hbin⟩

theorem isFixed_of_resolve {repository : Repository} (hroot : repository.root.IsFixed)
    {declarations : List Declaration} {target : Settings} {graph : Graph}
    (h : repository.resolve declarations target = .ok graph) :
    ∀ p ∈ graph.packages, p.IsFixed := by
  obtain ⟨t, hdeclares, rfl⟩ := Resolution.resolve_eq_ok_iff.1 h
  have hoffered : ∀ r found contents, repository.offer target r = .ok found →
      found.contents = .ok contents → (Selection.recipe r found contents).package.IsFixed := by
    intro r found contents hoffer hcontents
    obtain ⟨m, -, -, -, -, hfound⟩ := offer_eq_ok_iff.1 hoffer
    exact isFixed_of_contentsOf hroot (hfound ▸ hcontents) .requires
  have hrecipes := hdeclares.forall_recipe (Q := fun x => x.package.IsFixed) hoffered
    (List.forall_mem_nil _)
  intro p hp
  obtain ⟨x, hx, rfl⟩ := List.mem_map.1 hp
  obtain ⟨hfixed, hdirs⟩ := hrecipes _ (List.mem_map_of_mem hx)
  exact ⟨hfixed, hdirs⟩

end Repository

/-! ## Configurations -/

namespace Configuration

/-! ### The directory of the file -/

theorem isFixed_directoryOf (w : Workspace) (file : Path) : (directoryOf w file).IsFixed :=
  Path.isFixed_iff.2 (Path.isAbsolute_absoluteFrom (Workspace.isAbsolute_pathOf _) _)

/-- A file that is named by a step at the end is an entry of its directory. -/
theorem exists_components_directoryOf (w : Workspace) {file : Path} {front : List RawText}
    {last : RawText} (hfile : Text.pieces Path.separator file.raw = front ++ [last])
    (hlast : (Path.step? last).isSome) : ∃ c,
      (Path.absoluteFrom w.workingPath file).components =
        (directoryOf w file).components ++ [c] := by
  have hworking := Workspace.isAbsolute_pathOf w.workingDir
  cases front with
  | nil =>
    obtain ⟨c, hc⟩ := Option.isSome_iff_exists.1 hlast
    have hne : last ≠ [] := fun e => by subst e; cases hc
    have hparent : file.parent = some Path.blank := by
      rw [Path.parent, hfile]
      exact (if_pos rfl).trans (if_neg hne)
    have hrelative := Path.isAbsolute_of_pieces_singleton hfile
    have hsteps : Path.steps file.raw = [c] := by
      rw [Path.steps, hfile, List.nil_append, List.filterMap_cons_some hc, List.filterMap_nil]
    have hhere : (Path.ofString ".").isAbsolute = false := by decide
    have hnone : Path.steps (Path.ofString ".").raw = [] := by decide
    refine ⟨c, ?_⟩
    simp only [directoryOf, hparent, if_true, Workspace.workingPath,
      Path.components_absoluteFrom hworking, hrelative, hhere, hsteps, hnone, List.append_nil]
  | cons first rest =>
    obtain ⟨above, hparent, hne, habsolute, c, hsteps⟩ := Path.exists_parent hfile hlast
    refine ⟨c, ?_⟩
    simp only [directoryOf, hparent, if_neg hne, Workspace.workingPath,
      Path.components_absoluteFrom hworking, habsolute, hsteps, List.append_assoc]

theorem orMalformed_eq_ok_iff {α : Type} {x : Option α} {a : α} :
    Toml.orMalformed x = .ok a ↔ x = some a := by
  cases x <;> simp [Toml.orMalformed]

theorem baseDir_of_parse {content : String} {dir : Path} {c : Configuration}
    (h : parse content dir = .ok c) : c.baseDir = dir := by
  simp only [parse, Outcome.mapError_eq_ok_iff, Toml.readAs, Outcome.bind_eq_ok_iff] at h
  obtain ⟨v, -, h⟩ := h
  simp only [orMalformed_eq_ok_iff, decode, bind, Option.bind_eq_some_iff] at h
  obtain ⟨_, _, _, _, _, _, _, _, _, _, _, _, _, _, h⟩ := h
  cases h
  rfl

theorem directory_of_origin {named : Option Path} {w : Workspace} {c : Configuration}
    (h : Origin named w c) : c.baseDir.IsFixed ∧ ∃ last,
      (Path.absoluteFrom w.workingPath (fileOf named)).components =
        c.baseDir.components ++ [last] := by
  cases h with
  | defaults hunnamed hmissing =>
    subst hunnamed
    have hfile : Text.pieces Path.separator (fileOf none).raw =
        [] ++ [RawText.ofString defaultFile] := by decide +kernel
    change (directoryOf w (fileOf none)).IsFixed ∧ _
    exact ⟨isFixed_directoryOf w _, exists_components_directoryOf w hfile (by decide +kernel)⟩
  | file hheld hsmall htext hparsed =>
    rw [baseDir_of_parse hparsed]
    obtain ⟨front, last, hfile, hlast⟩ := Workspace.exists_last_of_read hheld
    exact ⟨isFixed_directoryOf w _, exists_components_directoryOf w hfile hlast⟩

/-! ### What is seen from there -/

theorem seenFrom_resolve {c : Configuration} (h : c.baseDir.IsFixed) (given : Path) :
    Path.SeenFrom c.baseDir given (c.resolve given) := by
  unfold resolve
  split_ifs with habsolute
  · exact ⟨Path.isFixed_iff.2 habsolute, fun _ => rfl,
      fun hrelative => absurd (habsolute.symm.trans hrelative) (by decide)⟩
  · have hrelative := Bool.eq_false_of_not_eq_true habsolute
    exact ⟨h.join given, fun hgiven => absurd hgiven habsolute,
      fun _ => Path.components_join (Path.raw_ne_nil_of_isAbsolute h.absolute) hrelative⟩

theorem outputRoot_eq (c : Configuration) :
    c.layoutOptions.outputRoot = c.resolve (c.layout.outputDir.getD c.test.sourceDir) := by
  unfold layoutOptions
  cases c.layout.outputDir <;> rfl

theorem repositoryRoot_eq (c : Configuration) :
    c.repositoryRoot = c.resolve (c.repository.root.getD (.ofString defaultRepository)) := by
  have hrelative : (Path.ofString defaultRepository).isAbsolute ≠ true := by decide
  unfold repositoryRoot
  cases c.repository.root with
  | none => exact (if_neg hrelative).symm
  | some root => rfl

/-- What a configuration that is loaded from a file derives, wherever one works later. -/
structure Anchored (c : Configuration) (w : Workspace) (file : Path) : Prop where
  base : c.baseDir.IsFixed
  /-- The directory of the configuration is the one of which the file is an entry. -/
  directory : ∃ entry, (Path.absoluteFrom w.workingPath file).components =
    c.baseDir.components ++ [entry]
  source : Path.SeenFrom c.baseDir c.test.sourceDir c.layoutOptions.sourceDir
  output : Path.SeenFrom c.baseDir (c.layout.outputDir.getD c.test.sourceDir)
    c.layoutOptions.outputRoot
  /-- Where no output directory is given, it is the project's. -/
  no_output : c.layout.outputDir = none → c.layoutOptions.outputRoot = c.layoutOptions.sourceDir
  repository : Path.SeenFrom c.baseDir (c.repository.root.getD (.ofString "packages"))
    c.repositoryRoot
  layout : ∀ target l, Layout.compute c.layoutOptions target = .ok l → l.IsFixed
  /-- Whatever there is in the directory of packages by then. -/
  graph : ∀ w' declarations target graph,
    Repository.resolve ⟨w', c.repositoryRoot⟩ declarations target = .ok graph →
      ∀ p ∈ graph.packages, p.IsFixed

theorem anchored_of_origin {named : Option Path} {w : Workspace} {c : Configuration}
    (h : Origin named w c) : c.Anchored w (fileOf named) := by
  obtain ⟨hbase, hdirectory⟩ := directory_of_origin h
  have hsource := seenFrom_resolve hbase c.test.sourceDir
  have houtput := seenFrom_resolve hbase (c.layout.outputDir.getD c.test.sourceDir)
  have hrepository := seenFrom_resolve hbase (c.repository.root.getD (.ofString defaultRepository))
  rw [← outputRoot_eq] at houtput
  rw [← repositoryRoot_eq] at hrepository
  refine ⟨hbase, hdirectory, hsource, houtput, fun hnone => ?_, hrepository,
    fun target l => Layout.isFixed_of_compute hsource.fixed houtput.fixed,
    fun w' declarations target graph => Repository.isFixed_of_resolve hrepository.fixed⟩
  rw [outputRoot_eq, hnone]
  rfl

/-- **What is derived from a loaded configuration does not depend on the working directory.** -/
theorem load_anchors {argument : Option Path} {variableValue : Option RawText} {w : Workspace}
    {c : Configuration} (h : load argument variableValue w = .ok c) :
    c.Anchored w (fileOf (named? argument variableValue)) :=
  anchored_of_origin (load_eq_ok_iff.1 h).1

/-- The file of a configuration that gives its paths in several ways, from next to its directory. -/
def mixed : Workspace :=
  let content := "[test]\nsource_dir = \"./app\"\n[layout]\noutput_dir = \"/var//out\"\n"
  ⟨[([.ofString "pkgcheck.toml", .ofString "conf", .ofString "work"],
      .file content.toUTF8 false),
    ([.ofString "conf", .ofString "work"], .directory), ([.ofString "work"], .directory)],
    [.ofString "work"]⟩

/-- What is loaded from there. -/
def mixedLoaded : Configuration :=
  { Configuration.default (.ofString "/work/conf") with
    test := { TestSection.default with sourceDir := .ofString "./app" }
    layout := ⟨some (.ofString "/var//out"), false, []⟩ }

theorem mixed_anchors :
    load (some (.ofString "conf/pkgcheck.toml")) none mixed = .ok mixedLoaded ∧
      mixedLoaded.Anchored mixed (.ofString "conf/pkgcheck.toml") ∧
      mixedLoaded.layoutOptions.sourceDir = .ofString "/work/conf/./app" ∧
      mixedLoaded.layoutOptions.outputRoot = .ofString "/var//out" ∧
      mixedLoaded.repositoryRoot = .ofString "/work/conf/packages" := by
  have hload : load (some (.ofString "conf/pkgcheck.toml")) none mixed = .ok mixedLoaded := by
    decide +kernel
  exact ⟨hload, load_anchors hload, by decide +kernel, by decide +kernel, by decide +kernel⟩

end Configuration

end PackageTrial
