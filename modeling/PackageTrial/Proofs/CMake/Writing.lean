import PackageTrial.CMake.Files
import PackageTrial.Proofs.Repository.Directories
import PackageTrial.Proofs.Workspace

/-!
# Where generated files stand

The files of a job have names of their own: those of packages end alike and differ as the packages'
names do, and the three others end otherwise (`nodup_fileNames`). A name of a well-formed package
names an entry of a directory, so every file is put directly into the directory for generated files,
none of them on top of another (`puts_of_writeInto`). What was written is there at the end, and
every other file of the workspace is as it was (`write_keeps_apart`).

All this is about workspaces, where different names of a directory stand for different files. Had
one of the names been a link to another, the file written through it would have replaced that one.
-/

namespace PackageTrial.CMake

open PackageTrial.Path (IsEntryName)

/-! ## Names -/

/-- The names of the files of a job: the toolchain's, one for each package, and those of the two
environments. -/
def fileNames (job : Job) : List String :=
  toolchainFile :: job.graph.packages.map packageFile ++ [buildEnvironmentFile, runEnvironmentFile]

theorem map_fst_files (job : Job) (build run : Overlay) (multiConfig : Bool) :
    (files job build run multiConfig).map Prod.fst = fileNames job := by
  simp [files, fileNames, Function.comp_def]

theorem mem_files_iff {job : Job} {build run : Overlay} {multiConfig : Bool}
    {f : String × String} : f ∈ files job build run multiConfig ↔
      f = (toolchainFile, toolchain job multiConfig) ∨
      (∃ p ∈ job.graph.packages, (packageFile p, packageConfig p) = f) ∨
      f = (buildEnvironmentFile, build.render job.context.base) ∨
      f = (runEnvironmentFile, run.render job.context.base) := by
  simp only [files, List.cons_append, List.mem_cons, List.mem_append, List.mem_map,
    List.not_mem_nil, or_false]

theorem packageFile_eq_iff {p q : Package} :
    packageFile p = packageFile q ↔ p.reference.name = q.reference.name := by
  simp [packageFile, ← String.toList_inj]

/-- A file that ends otherwise belongs to no package. -/
theorem packageFile_ne (p : Package) {name : String}
    (h : ¬ "-config.cmake".toList <:+ name.toList) : packageFile p ≠ name := by
  rintro rfl
  exact h (by simp [packageFile])

theorem nodup_fileNames {job : Job} (h : (job.graph.packages.map (·.reference.name)).Nodup) :
    (fileNames job).Nodup := by
  have hpackages : (job.graph.packages.map packageFile).Nodup := by
    rw [List.Nodup, List.pairwise_map] at h ⊢
    exact h.imp fun hne => packageFile_eq_iff.not.2 hne
  have hfixed : [toolchainFile, buildEnvironmentFile, runEnvironmentFile].Nodup := by decide
  have hends : ∀ name ∈ [toolchainFile, buildEnvironmentFile, runEnvironmentFile],
      ¬ "-config.cmake".toList <:+ name.toList := by decide
  have hapart : (job.graph.packages.map packageFile).Disjoint
      [toolchainFile, buildEnvironmentFile, runEnvironmentFile] := by
    intro name hname hfixed
    obtain ⟨p, -, rfl⟩ := List.mem_map.1 hname
    exact packageFile_ne p (hends _ hfixed) rfl
  -- The name in front is moved behind those of packages.
  have hperm : (fileNames job).Perm (job.graph.packages.map packageFile ++
      [toolchainFile, buildEnvironmentFile, runEnvironmentFile]) := List.perm_middle.symm
  exact hperm.nodup_iff.2 (List.nodup_append'.2 ⟨hpackages, hfixed, hapart⟩)

theorem isEntryName_of_mem_fileNames {job : Job}
    (h : ∀ p ∈ job.graph.packages, p.reference.WellFormed) :
    ∀ name ∈ fileNames job, IsEntryName name := by
  intro name hname
  simp only [fileNames, List.cons_append, List.mem_cons, List.mem_append, List.mem_map,
    List.not_mem_nil, or_false] at hname
  rcases hname with rfl | ⟨p, hp, rfl⟩ | rfl | rfl
  · exact ⟨by decide, by decide, by decide, by decide⟩
  · exact (Reference.isEntryName_of_isName (h p hp).name).append (by decide)
      (show 'c' ∈ "-config.cmake".toList by decide) (by decide)
  · exact ⟨by decide, by decide, by decide, by decide⟩
  · exact ⟨by decide, by decide, by decide, by decide⟩

/-! ## Writing -/

theorem of_run_preparing {α : Type} {path : Path} {action : ExceptT Fault (StateM Workspace) α}
    {w w' : Workspace} {a : α} (h : (preparing path action).run.run w = (.ok a, w')) :
    action.run.run w = (.ok a, w') := by
  have hunfolded : (preparing path action).run.run w =
      ((action.run.run w).1.mapError fun fault =>
        .prepare ("failed to write " ++ path.display ++ ": " ++ fault.message),
        (action.run.run w).2) := rfl
  rw [hunfolded, Prod.mk.injEq, Outcome.mapError_eq_ok_iff] at h
  exact Prod.ext h.1 h.2

/-- What it makes of a workspace to put files into the directory at a place. -/
structure Puts (dir : Path) (place : Location) (files : List (String × String))
    (w w' : Workspace) : Prop where
  directories : w.KeepsDirectories w'
  located : ∀ f ∈ files, w'.locate (dir.child f.1) = .ok (RawText.ofString f.1 :: place)
  held : ∀ f ∈ files, ∃ executable,
    w'.at? (RawText.ofString f.1 :: place) = some (.file f.2.toUTF8 executable)
  others : ∀ q, (∀ f ∈ files, q ≠ RawText.ofString f.1 :: place) → w'.at? q = w.at? q

section

variable {dir : Path} {place : Location} {w w' : Workspace}

theorem puts_of_writeText {name text : String} (hname : IsEntryName name)
    (hdir : w.LeadsTo dir place)
    (h : (Workspace.writeText (dir.child name) text).run.run w = (.ok (), w')) :
    Puts dir place [(name, text)] w w' := by
  obtain ⟨q, executable, hq, hfree, rfl⟩ := Workspace.exists_put_of_writeText h
  obtain ⟨-, -, place', hdir', rfl⟩ := (Workspace.locate_child_eq_ok_iff hname).1 hq
  obtain rfl := hdir.unique hdir'
  have hkeeps := Workspace.keepsDirectories_put hfree (.file text.toUTF8 executable)
  refine ⟨hkeeps, ?_, ?_, fun q hothers => ?_⟩
  · exact List.forall_mem_singleton.2 (hkeeps.locate_child hname hq)
  · exact List.forall_mem_singleton.2 ⟨executable, by simp [Workspace.at?_put]⟩
  · rw [Workspace.at?_put w (List.cons_ne_nil _ _), if_neg (hothers _ List.mem_cons_self)]

/-- The files that are written one after the other are all there at the end: none of them has the
name of an earlier one. -/
theorem puts_of_writeInto {files : List (String × String)}
    (hnames : ∀ f ∈ files, IsEntryName f.1) (hdistinct : (files.map Prod.fst).Nodup)
    (hdir : w.LeadsTo dir place) (h : (writeInto dir files).run.run w = (.ok (), w')) :
    Puts dir place files w w' := by
  induction files generalizing w with
  | nil =>
    cases h
    exact ⟨.refl _, by simp, by simp, fun _ _ => rfl⟩
  | cons f rest ih =>
    obtain ⟨hname, hnames⟩ := List.forall_mem_cons.1 hnames
    obtain ⟨hnew, hdistinct⟩ := List.nodup_cons.1 hdistinct
    obtain ⟨_, mid, hfirst, hrest⟩ := Outcome.exists_of_run_bind h
    have hput := puts_of_writeText hname hdir (of_run_preparing hfirst)
    have hputs := ih hnames hdistinct (hdir.keep hput.directories) hrest
    refine ⟨hput.directories.trans hputs.directories, ?_, ?_, fun q hothers => ?_⟩
    · refine List.forall_mem_cons.2 ⟨?_, hputs.located⟩
      exact hputs.directories.locate_child hname (hput.located _ List.mem_cons_self)
    · refine List.forall_mem_cons.2 ⟨?_, hputs.held⟩
      -- The files that follow have other names and leave the first one alone.
      rw [hputs.others _ fun g hg e => ?_]
      · exact hput.held _ List.mem_cons_self
      · exact hnew (List.mem_map.2 ⟨g, hg, (RawText.ofString_injective (List.cons.inj e).1).symm⟩)
    · obtain ⟨hfirst, hothers⟩ := List.forall_mem_cons.1 hothers
      rw [hputs.others q hothers, hput.others q (List.forall_mem_singleton.2 hfirst)]

theorem Puts.read {files : List (String × String)} (h : Puts dir place files w w')
    {name text : String} (hf : (name, text) ∈ files) :
    w'.read (dir.child name) = .ok text.toUTF8 := by
  obtain ⟨executable, hheld⟩ := h.held _ hf
  rw [Workspace.read, Workspace.find, h.located _ hf]
  simp only [bind, Except.bind, hheld]
  rfl

/-- The directory into which files were written is there. -/
theorem exists_leadsTo_of_writeInto {f : String × String} {rest : List (String × String)}
    (hname : IsEntryName f.1) (h : (writeInto dir (f :: rest)).run.run w = (.ok (), w')) :
    ∃ place, w.LeadsTo dir place := by
  obtain ⟨_, mid, hfirst, -⟩ := Outcome.exists_of_run_bind h
  obtain ⟨q, _, hq, -⟩ := Workspace.exists_put_of_writeText (of_run_preparing hfirst)
  obtain ⟨-, -, place, hdir, -⟩ := (Workspace.locate_child_eq_ok_iff hname).1 hq
  exact ⟨place, hdir⟩

end

/-! ## The files of a job -/

/-- The files of a job stand side by side in the directory for generated files, which is at the
place. Each holds what was rendered for it, and the other files are as before. -/
structure StandApart (job : Job) (build run : Overlay) (multiConfig : Bool)
    (before after : Workspace) (place : Location) : Prop where
  directory : after.LeadsTo job.layout.generatorsDir place
  distinct : (fileNames job).Nodup
  entries : ∀ name ∈ fileNames job,
    after.locate (job.layout.generatorsDir.child name) = .ok (RawText.ofString name :: place)
  toolchain : after.read (job.layout.generatorsDir.child "pkgcheck_toolchain.cmake") =
    .ok (toolchain job multiConfig).toUTF8
  packages : ∀ p ∈ job.graph.packages,
    after.read (job.layout.generatorsDir.child (p.reference.name ++ "-config.cmake")) =
      .ok (packageConfig p).toUTF8
  buildEnvironment : after.read (job.layout.generatorsDir.child "pkgcheck-build.env") =
    .ok (build.render job.context.base).toUTF8
  runEnvironment : after.read (job.layout.generatorsDir.child "pkgcheck-run.env") =
    .ok (run.render job.context.base).toUTF8
  others : ∀ q, (∀ name ∈ fileNames job, q ≠ RawText.ofString name :: place) →
    ∀ content executable, after.at? q = some (.file content executable) ↔
      before.at? q = some (.file content executable)
  directories : before.KeepsDirectories after

/-- **The files of a job never overwrite one another.** When all are written, whatever directories
and regular files were there before, each holds its own text at a place of its own in the directory
for generated files, and no other file has changed. -/
theorem write_keeps_apart {job : Job} {build run : Overlay} {multiConfig : Bool}
    {w w' : Workspace} (hnames : (job.graph.packages.map (·.reference.name)).Nodup)
    (hreferences : ∀ p ∈ job.graph.packages, p.reference.WellFormed)
    (h : (writeShowing job build run multiConfig).run.run w = (.ok (), w')) :
    ∃ place, StandApart job build run multiConfig w w' place := by
  have hmap := map_fst_files job build run multiConfig
  have hmem : ∀ f ∈ files job build run multiConfig, f.1 ∈ fileNames job := fun f hf =>
    hmap ▸ List.mem_map_of_mem hf
  have hentry := isEntryName_of_mem_fileNames hreferences
  have hdistinct := nodup_fileNames hnames
  obtain ⟨_, mid, hdirs, hfiles⟩ := Outcome.exists_of_run_bind h
  have hadds : w.AddsDirectories mid := by
    have hmade := Workspace.addsDirectories_makeDirs w job.layout.generatorsDir
    rwa [of_run_preparing hdirs] at hmade
  obtain ⟨place, hplace⟩ := exists_leadsTo_of_writeInto (hentry _ List.mem_cons_self) hfiles
  have hputs :=
    puts_of_writeInto (fun f hf => hentry _ (hmem f hf)) (hmap ▸ hdistinct) hplace hfiles
  refine ⟨place, ?_⟩
  constructor
  case directory => exact hplace.keep hputs.directories
  case distinct => exact hdistinct
  case entries =>
    intro name hname
    rw [← hmap] at hname
    obtain ⟨f, hf, rfl⟩ := List.mem_map.1 hname
    exact hputs.located f hf
  case toolchain => exact hputs.read (mem_files_iff.2 (.inl rfl))
  case packages => exact fun p hp => hputs.read (mem_files_iff.2 (.inr (.inl ⟨p, hp, rfl⟩)))
  case buildEnvironment => exact hputs.read (mem_files_iff.2 (.inr (.inr (.inl rfl))))
  case runEnvironment => exact hputs.read (mem_files_iff.2 (.inr (.inr (.inr rfl))))
  case others =>
    intro q hothers content executable
    rw [hputs.others q fun f hf => hothers _ (hmem f hf), hadds.file_iff]
  case directories => exact hadds.keepsDirectories.trans hputs.directories

/-- A job with a package that is named like the toolchain file. -/
def namesakeJob : Job where
  tested := ⟨"app", "1.0.0", none, none⟩
  layout := ⟨.ofString "/app", .ofString "/app/build", .ofString "/app/build/generators", []⟩
  graph := ⟨[
    ⟨⟨"pkgcheck_toolchain", "2.1", none, none⟩, .requires, .ofString "/pkgs/toolchain", [], [], [],
      []⟩,
    ⟨⟨"zlib", "1.3", none, none⟩, .testRequires, .ofString "/pkgs/zlib", [], [], [], ["z"]⟩]⟩
  context := default

/-- A workspace in which files were generated before, and others stand next to them. -/
def usedWorkspace : Workspace where
  entries :=
    let generators := ["generators", "build", "app"].map RawText.ofString
    [(["app"].map RawText.ofString, .directory),
      (["build", "app"].map RawText.ofString, .directory),
      (generators, .directory),
      (RawText.ofString toolchainFile :: generators, .file "outdated".toUTF8 false),
      (RawText.ofString "fmt-config.cmake" :: generators, .file "of another job".toUTF8 false)]
  workingDir := []

theorem namesakes_apart :
    (namesakeJob.graph.packages.map (·.reference.name)).Nodup ∧
      (∀ p ∈ namesakeJob.graph.packages, p.reference.WellFormed) ∧
      ∃ w, (writeShowing namesakeJob .empty .empty false).run.run usedWorkspace = (.ok (), w) ∧
        ∃ place, StandApart namesakeJob .empty .empty false usedWorkspace w place := by
  have hnames : (namesakeJob.graph.packages.map (·.reference.name)).Nodup := by decide
  have hreferences : ∀ p ∈ namesakeJob.graph.packages, p.reference.WellFormed := by decide
  have hwritten : (writeShowing namesakeJob .empty .empty false).run.run usedWorkspace =
      (.ok (), ((writeShowing namesakeJob .empty .empty false).run.run usedWorkspace).2) :=
    Prod.ext (by decide +kernel) rfl
  exact ⟨hnames, hreferences, _, hwritten, write_keeps_apart hnames hreferences hwritten⟩

end PackageTrial.CMake
