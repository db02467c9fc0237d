import PackageTrial.Graph
import PackageTrial.Proofs.Environment.PathLists
import Mathlib.Data.List.Basic

/-!
# The environments of a graph

The environments in which packages are built and run put the directories of the packages in front
of path lists, one after another. The list that comes of it is told at once: the directories that
were added, the last of them first, then the entries that were there (`PathList.listed_prepended`).
So the packages are found before their dependencies, which a graph lists earlier
(`Graph.environments_expose`).
-/

namespace PackageTrial

/-! ## Directories in front of a list -/

namespace PathList

/-- The directories that become entries when they are put in front of a list: each place once, in
its first spelling, without the places that are listed already and the paths that can be no
entries. -/
def additions (list : List RawText) (dirs : List Path) : List Path :=
  (dirs.filter fun dir => Admits list dir).eraseDupsBy Path.samePlace

/-- What becomes of entries when directories are put in front of them one after another. -/
def prepended (list : List RawText) (dirs : List Path) : List RawText :=
  ((additions list dirs).map (·.raw)).reverse ++ list

theorem admits_cons_iff {list : List RawText} {dir path : Path} :
    Admits (dir.raw :: list) path ↔ Admits list path ∧ path.samePlace dir = false := by
  simp only [Admits, List.forall_mem_cons, Path.samePlace, decide_eq_false_iff_not,
    ne_comm (a := path.components)]
  exact ⟨fun h => ⟨⟨h.1, h.2.2⟩, h.2.1⟩, fun h => ⟨h.1.1, h.2, h.1.2⟩⟩

theorem additions_cons (list : List RawText) (dir : Path) (rest : List Path) :
    additions list (dir :: rest) =
      if Admits list dir then dir :: additions (dir.raw :: list) rest else additions list rest := by
  by_cases h : Admits list dir
  · have hrest : (rest.filter fun path => Admits (dir.raw :: list) path) =
        (rest.filter fun path => Admits list path).filter fun path =>
          path.samePlace dir = false := by
      rw [List.filter_filter]
      refine List.filter_congr fun path _ => ?_
      simp [admits_cons_iff, and_comm]
    rw [if_pos h, additions, List.filter_cons_of_pos (by simpa using h), List.eraseDupsBy_cons,
      additions, hrest]
  · rw [if_neg h, additions, List.filter_cons_of_neg (by simpa using h), additions]

/-- **Directories put in front of a path list one after another** end up in front of it in reverse,
as far as they are new. -/
theorem listed_prepended (key : String) (dirs : List Path) (value : Option RawText) :
    listed ((dirs.map (Edit.prepend key)).foldl Edit.renewed value) =
      prepended (listed value) dirs := by
  induction dirs generalizing value with
  | nil => rfl
  | cons dir rest ih =>
    have hfirst : listed ((Edit.prepend key dir).renewed value) =
        if Admits (listed value) dir then dir.raw :: listed value else listed value := by
      rw [listed_renewed, edited]
      exact if_congr (and_iff_right rfl) rfl rfl
    rw [List.map_cons, List.foldl_cons, ih, hfirst, prepended, prepended, additions_cons]
    split <;> simp

/-- Places that are listed, repeated in another spelling, or no entries, are left out. -/
example : prepended (["/usr/bin/"].map RawText.ofString)
    (["/p/bin", "/usr//bin", "/q/bin", "", "/p/bin/", "/r:s"].map Path.ofString) =
      ["/q/bin", "/p/bin", "/usr/bin/"].map RawText.ofString := by
  decide +kernel

end PathList

/-! ## The variables of a graph -/

namespace Overlay

open PathList

/-- The overlay puts directories in front of a path list, and does not tell of the variable when
there are none. -/
structure Exposes (o : Overlay) (base : Snapshot) (key : String) (dirs : List Path) : Prop where
  none : dirs = [] → (o.resolve base).get? key = none
  some : dirs ≠ [] → ∃ value, (o.resolve base).get? key = some (.set value) ∧
    listed (some value) = prepended (listed (base.get? key)) dirs

/-- Directories are exposed by an overlay that edits the variable in no other way. -/
theorem exposes_of_editsOf {o : Overlay} {key : String} {dirs : List Path}
    (h : o.editsOf key = dirs.map (.prepend key)) (base : Snapshot) : o.Exposes base key dirs := by
  have hlisted := listed_prepended key dirs (base.get? key)
  rw [← h, ← valueAt_eq_foldl] at hlisted
  refine ⟨fun hnone => ?_, fun hsome => ?_⟩
  · rw [get?_resolve_eq_none_iff, h, hnone, List.map_nil]
  · obtain ⟨earlier, last, rfl⟩ := dirs.eq_nil_or_concat'.resolve_left hsome
    -- The last edit leaves the variable with a value.
    obtain ⟨value, hvalue⟩ : ∃ value, o.valueAt base key = some value := by
      rw [valueAt_eq_foldl, h, List.map_append, List.foldl_append]
      exact ⟨_, rfl⟩
    refine ⟨value, ?_, by rw [← hvalue, hlisted]⟩
    rw [get?_resolve, if_neg (by simp [h]), hvalue, Binding.ofValue]

end Overlay

namespace Graph

/-- The directories of executables, in the order of the packages. -/
def toolDirs (g : Graph) : List Path := g.packages.flatMap (·.binDirs)

/-- The directories of libraries, in the order of the packages. -/
def libraryDirs (g : Graph) : List Path := g.packages.flatMap (·.libDirs)

/-- The directories of executables and of libraries, package by package. -/
def allDirs (g : Graph) : List Path := g.packages.flatMap fun p => p.binDirs ++ p.libDirs

/-- The variable in which the loader alone looks for directories, on systems that have one. -/
def loaderVariable? : Os → Option String
  | .windows => none
  | .macos => some "DYLD_LIBRARY_PATH"
  | _ => some "LD_LIBRARY_PATH"

/-- What the environments of a graph tell, for a target system and on a snapshot of the
environment. -/
structure ExposesPackages (g : Graph) (os : Os) (base : Snapshot) : Prop where
  /-- Executables are found where the system looks for them, and libraries too if it looks for them
  there. -/
  tools : (g.runEnvironment os).Exposes base "PATH"
    (if os = .windows then g.allDirs else g.toolDirs)
  libraries : ∀ key, loaderVariable? os = some key →
    (g.runEnvironment os).Exposes base key g.libraryDirs
  others : ∀ key, key ≠ "PATH" → loaderVariable? os ≠ some key →
    ((g.runEnvironment os).resolve base).get? key = none
  /-- A build finds the same executables, and no libraries. -/
  build_tools : os ≠ .windows → (g.buildEnvironment.resolve base).get? "PATH" =
    ((g.runEnvironment os).resolve base).get? "PATH"
  build_others : ∀ key, key ≠ "PATH" → (g.buildEnvironment.resolve base).get? key = none

/-! ## The edits of each variable -/

theorem filter_map_prepend (k key : String) (dirs : List Path) :
    (dirs.map (Edit.prepend k)).filter (·.key = key) =
      if key = k then dirs.map (.prepend key) else [] := by
  split
  · rename_i h
    rw [h]
    exact List.filter_eq_self.2 (by simp [Edit.key])
  · rename_i h
    refine List.filter_eq_nil_iff.2 fun edit hedit => ?_
    obtain ⟨dir, -, rfl⟩ := List.mem_map.1 hedit
    simp [Edit.key, Ne.symm h]

theorem editsOf_buildEnvironment (g : Graph) (key : String) : g.buildEnvironment.editsOf key =
    if key = "PATH" then g.toolDirs.map (.prepend key) else [] := by
  simp only [Overlay.editsOf, buildEnvironment, toolEdits, List.filter_flatMap, filter_map_prepend]
  by_cases h : key = "PATH"
  · simp [h, toolDirs, List.map_flatMap]
  · simp [h]

theorem editsOf_runEnvironment (g : Graph) (os : Os) (key : String) :
    (g.runEnvironment os).editsOf key = (g.packages.flatMap fun p =>
      (if key = "PATH" then p.binDirs else []) ++
        if key = os.libraryVariable then p.libDirs else []).map (.prepend key) := by
  simp only [Overlay.editsOf, runEnvironment, toolEdits, libraryEdits, List.filter_flatMap,
    List.filter_append, filter_map_prepend, List.map_flatMap, List.map_append]
  refine List.flatMap_congr fun p _ => congrArg₂ _ ?_ ?_ <;> split <;> rfl

theorem loaderVariable?_eq_some {os : Os} (h : os ≠ .windows) :
    loaderVariable? os = some os.libraryVariable ∧ os.libraryVariable ≠ "PATH" := by
  cases os <;> first | exact absurd rfl h | simp [loaderVariable?, Os.libraryVariable]

/-- **The environments of a graph expose its packages**: the directories of every package stand in
front of what was there, those of later packages first, and nothing else is changed. -/
theorem environments_expose (g : Graph) (os : Os) (base : Snapshot) :
    g.ExposesPackages os base := by
  have hedits := g.editsOf_runEnvironment os
  have hbuild : ∀ key, key ≠ "PATH" → (g.buildEnvironment.resolve base).get? key = none := by
    intro key hkey
    rw [Overlay.get?_resolve_eq_none_iff, editsOf_buildEnvironment, if_neg hkey]
  by_cases hos : os = .windows
  · subst hos
    refine ⟨?tools, ?libraries, ?others, ?build_tools, ?build_others⟩
    case tools =>
      refine Overlay.exposes_of_editsOf ?_ base
      simp [hedits, Os.libraryVariable, allDirs]
    case libraries => exact fun key hkey => nomatch hkey
    case others =>
      intro key hkey _
      simp [Overlay.get?_resolve_eq_none_iff, hedits, Os.libraryVariable, hkey]
    case build_tools => exact fun hno => absurd rfl hno
    case build_others => exact hbuild
  · obtain ⟨hloader, hpath⟩ := loaderVariable?_eq_some hos
    have htools : (g.runEnvironment os).editsOf "PATH" = g.toolDirs.map (.prepend "PATH") := by
      simp [hedits, hpath.symm, toolDirs]
    refine ⟨?tools, ?libraries, ?others, ?build_tools, ?build_others⟩
    case tools =>
      rw [if_neg hos]
      exact Overlay.exposes_of_editsOf htools base
    case libraries =>
      intro key hkey
      obtain rfl := Option.some.inj (hloader.symm.trans hkey)
      refine Overlay.exposes_of_editsOf ?_ base
      simp [hedits, hpath, libraryDirs]
    case others =>
      intro key hkey hno
      have hother : key ≠ os.libraryVariable := fun e => hno (e ▸ hloader)
      simp [Overlay.get?_resolve_eq_none_iff, hedits, hkey, hother]
    case build_tools =>
      intro _
      rw [Overlay.get?_resolve, Overlay.get?_resolve, Overlay.valueAt_eq_foldl,
        Overlay.valueAt_eq_foldl, htools, editsOf_buildEnvironment, if_pos rfl]
    case build_others => exact hbuild

end Graph

end PackageTrial
