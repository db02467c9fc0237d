import PackageTrial.Proofs.Path.Components
import PackageTrial.Proofs.Repository.Graph

/-!
# Directories of packages

Every part of a well-formed reference names an entry of a directory, so a package's directory lies
below its repository's root by one ordinary component for each part (`components_packageDir`), and
two packages have one directory only if they are the same but for the revision
(`samePlace_packageDir_iff`). A directory of a manifest that stays inside its package adds ordinary
components to the package's (`within_of_placedDirs`). So whatever a repository resolves has its
packages apart from each other and their files inside of them (`packages_apart`).
-/

namespace PackageTrial

/-- The path leads into a directory, by ordinary components only. -/
def Path.Within (p dir : Path) : Prop :=
  ∃ rest, p.components = dir.components ++ rest ∧ ∀ c ∈ rest, c.IsOrdinary

/-! ## References -/

namespace Reference

open PackageTrial.Path (IsEntryName)

/-- A check that accepts no delimiters, and no text that is no name, accepts names only. -/
theorem isEntryName_of_check {check : String → Bool} (hplain : ∀ {s}, check s = true → Plain s)
    (hrefused : ∀ t ∈ ["", ".", ".."], check t = false) {s : String} (h : check s = true) :
    IsEntryName s := by
  have hne : ∀ t ∈ ["", ".", ".."], s ≠ t := by
    rintro t ht rfl
    exact absurd h (by simp [hrefused s ht])
  exact ⟨hne _ (by simp), hne _ (by simp), hne _ (by simp), (hplain h).not_mem (by decide)⟩

theorem isEntryName_of_isName {s : String} (h : isName s = true) : IsEntryName s :=
  isEntryName_of_check plain_of_isName (by decide) h

theorem isEntryName_of_isSegment {s : String} (h : isSegment s = true) : IsEntryName s :=
  isEntryName_of_check plain_of_isSegment (by decide) h

/-- The parts of a reference that name directories. -/
def parts (r : Reference) : List String :=
  [r.name, r.version] ++ match r.scope with
    | some scope => [scope.user, scope.channel]
    | none => []

/-- The components of a package below the root of its repository. -/
def place (r : Reference) : List Path.Component :=
  r.parts.map fun part => .name (RawText.ofString part)

theorem parts_eq_iff {r q : Reference} :
    r.parts = q.parts ↔ r.withoutRevision = q.withoutRevision := by
  obtain ⟨name, version, scope, revision⟩ := r
  obtain ⟨name', version', scope', revision'⟩ := q
  rcases scope with _ | ⟨user, channel⟩ <;> rcases scope' with _ | ⟨user', channel'⟩ <;>
    simp [parts, withoutRevision]

theorem place_eq_iff {r q : Reference} :
    r.place = q.place ↔ r.withoutRevision = q.withoutRevision := by
  rw [← parts_eq_iff]
  have hcomponent : Function.Injective fun part => Path.Component.name (RawText.ofString part) :=
    fun a b h => RawText.ofString_injective (Path.Component.name.inj h)
  exact (List.map_injective_iff.2 hcomponent).eq_iff

theorem WellFormed.isEntryName_of_mem_parts {r : Reference} (h : r.WellFormed) :
    ∀ part ∈ r.parts, IsEntryName part := by
  intro part hpart
  simp only [parts, List.mem_append, List.mem_cons, List.not_mem_nil, or_false] at hpart
  rcases hpart with (rfl | rfl) | hpart
  · exact isEntryName_of_isName h.name
  · exact isEntryName_of_isSegment h.version
  · split at hpart
    · rename_i scope hscope
      obtain ⟨huser, hchannel⟩ := h.scope scope hscope
      simp only [List.mem_cons, List.not_mem_nil, or_false] at hpart
      rcases hpart with rfl | rfl
      · exact isEntryName_of_isSegment huser
      · exact isEntryName_of_isSegment hchannel
    · cases hpart

theorem WellFormed.isOrdinary_of_mem_place {r : Reference} (h : r.WellFormed) :
    ∀ c ∈ r.place, c.IsOrdinary := by
  intro c hc
  obtain ⟨part, hpart, rfl⟩ := List.mem_map.1 hc
  exact (h.isEntryName_of_mem_parts part hpart).isOrdinary

end Reference

/-! ## Directories of a manifest -/

namespace Manifest

/-- What stays inside a directory adds ordinary components to it. -/
theorem isOrdinary_of_staysInside {dir : Path} (h : dir.components.all staysInside = true) :
    dir.isAbsolute = false ∧ ∀ c ∈ Path.steps dir.raw, c.IsOrdinary := by
  obtain ⟨first, rest, hpieces⟩ :=
    List.exists_cons_of_ne_nil (Text.pieces_ne_nil Path.separator dir.raw)
  rw [Path.components_of_pieces hpieces, List.all_append, Bool.and_eq_true] at h
  obtain ⟨hlead, hsteps⟩ := h
  constructor
  · rw [← Bool.not_eq_true]
    intro habsolute
    rw [Path.lead, if_pos habsolute] at hlead
    exact absurd hlead (by decide)
  · intro c hc
    rcases Path.eq_up_or_isOrdinary_of_mem_steps hc with rfl | hordinary
    · exact absurd (List.all_eq_true.1 hsteps _ hc) (by decide)
    · exact hordinary

theorem within_of_placedDirs {root : Path} (hroot : root.raw ≠ []) {dirs placed : List Path}
    (h : placedDirs root dirs = .ok placed) : ∀ dir ∈ placed, dir.Within root := by
  intro dir hdir
  obtain ⟨written, -, hwritten⟩ := Outcome.exists_of_mem_mapM h hdir
  split at hwritten
  · rename_i hinside
    cases hwritten
    obtain ⟨hrelative, hordinary⟩ := isOrdinary_of_staysInside hinside
    exact ⟨_, Path.components_join hroot hrelative, hordinary⟩
  · cases hwritten

end Manifest

/-! ## Packages -/

/-- A package is at its place in the repository of a root, and its directories lie inside. -/
structure Package.Placed (root : Path) (p : Package) : Prop where
  root : p.root = Repository.packageDir root p.reference
  dirs : ∀ dir ∈ p.includeDirs ++ p.libDirs ++ p.binDirs, dir.Within p.root

namespace Repository

theorem packageDir_withoutRevision (root : Path) (r : Reference) :
    packageDir root r.withoutRevision = packageDir root r := rfl

theorem packageDir_eq_foldl (root : Path) (r : Reference) :
    packageDir root r = r.parts.foldl Path.child root := by
  obtain ⟨name, version, scope, revision⟩ := r
  cases scope <;> rfl

theorem components_packageDir {r : Reference} (h : r.WellFormed) (root : Path) :
    (packageDir root r).components = root.components ++ r.place := by
  rw [packageDir_eq_foldl, Path.components_foldl_child h.isEntryName_of_mem_parts, Reference.place]

theorem packageDir_ne_blank {r : Reference} (h : r.WellFormed) (root : Path) :
    (packageDir root r).raw ≠ [] := by
  intro hblank
  have hcomponents := components_packageDir h root
  rw [show packageDir root r = .blank from congrArg Path.mk hblank,
    show Path.blank.components = [] from rfl] at hcomponents
  exact absurd (List.append_eq_nil_iff.1 hcomponents.symm).2 (List.cons_ne_nil _ _)

theorem samePlace_packageDir_iff {r q : Reference} (hr : r.WellFormed) (hq : q.WellFormed)
    (root : Path) : (packageDir root r).samePlace (packageDir root q) ↔
      r.withoutRevision = q.withoutRevision := by
  rw [Path.samePlace, decide_eq_true_iff, components_packageDir hr, components_packageDir hq,
    List.append_cancel_left_eq, Reference.place_eq_iff]

theorem packageDir_eq_iff {r q : Reference} (hr : r.WellFormed) (hq : q.WellFormed) (root : Path) :
    packageDir root r = packageDir root q ↔ r.withoutRevision = q.withoutRevision := by
  constructor
  · intro h
    rw [← samePlace_packageDir_iff hr hq root, h, Path.samePlace, decide_eq_true_iff]
  · intro h
    rw [← packageDir_withoutRevision, h, packageDir_withoutRevision]

theorem placed_of_contentsOf {repository : Repository} {r : Reference} (hr : r.WellFormed)
    {m : Manifest} {contents : Contents} (h : repository.contentsOf r m = .ok contents)
    (role : Role) : (Resolution.packageOf role contents).Placed repository.root := by
  have hroot := packageDir_ne_blank hr repository.root
  simp only [contentsOf, Outcome.bind_eq_ok_iff] at h
  obtain ⟨canonical, hcanonical, includeDirs, hinclude, libDirs, hlib, binDirs, hbin, h⟩ := h
  cases h
  have hsame := Manifest.withoutRevision_of_canonical hr hcanonical
  refine ⟨?_, fun dir hdir => ?_⟩
  · change packageDir repository.root r = packageDir repository.root canonical
    rw [← packageDir_withoutRevision, ← hsame, packageDir_withoutRevision]
  · simp only [Resolution.packageOf, List.mem_append] at hdir
    rcases hdir with (hdir | hdir) | hdir
    · exact Manifest.within_of_placedDirs hroot hinclude dir hdir
    · exact Manifest.within_of_placedDirs hroot hlib dir hdir
    · exact Manifest.within_of_placedDirs hroot hbin dir hdir

theorem placed_of_resolve {repository : Repository} {declarations : List Declaration}
    (hdeclared : ∀ d ∈ declarations, d.reference.WellFormed) {target : Settings} {graph : Graph}
    (h : repository.resolve declarations target = .ok graph) :
    ∀ p ∈ graph.packages, p.Placed repository.root := by
  obtain ⟨s, -, rfl, hs, -⟩ := exists_selection hdeclared h
  intro p hp
  obtain ⟨x, hx, rfl⟩ := List.mem_map.1 hp
  obtain ⟨r, found, contents, role, hr, hoffer, hcontents, rfl⟩ :=
    Selection.Founded.offered_of_mem hs hx
  obtain ⟨m, -, -, -, -, hfound⟩ := offer_eq_ok_iff.1 hoffer
  exact placed_of_contentsOf hr.wellFormed (hfound ▸ hcontents) role

/-- **Packages stay apart and their files inside of them.** A package's directory has one ordinary
component below the root for each part of its reference but the revision, so two references share
it exactly when they are equal without their revisions, and in whatever is resolved every package
is in its directory and every directory of a package is inside of it. -/
theorem packages_apart (repository : Repository) :
    (∀ raw r, Reference.parse raw = .ok r →
      (packageDir repository.root r).components = repository.root.components ++ r.place ∧
        ∀ c ∈ r.place, c.IsOrdinary) ∧
    (∀ raw r raw' q, Reference.parse raw = .ok r → Reference.parse raw' = .ok q →
      ((packageDir repository.root r).samePlace (packageDir repository.root q) ↔
        r.withoutRevision = q.withoutRevision) ∧
      (packageDir repository.root r = packageDir repository.root q ↔
        r.withoutRevision = q.withoutRevision)) ∧
    ∀ declarations target graph, (∀ d ∈ declarations, d.reference.WellFormed) →
      repository.resolve declarations target = .ok graph →
        ∀ p ∈ graph.packages, p.Placed repository.root := by
  refine ⟨fun raw r hparse => ?_, fun raw r raw' q hparse hparse' => ?_,
    fun declarations target graph hdeclared h => placed_of_resolve hdeclared h⟩
  · obtain ⟨hr, -⟩ := Reference.wellFormed_of_parse hparse
    exact ⟨components_packageDir hr _, hr.isOrdinary_of_mem_place⟩
  · obtain ⟨hr, -⟩ := Reference.wellFormed_of_parse hparse
    obtain ⟨hq, -⟩ := Reference.wellFormed_of_parse hparse'
    exact ⟨samePlace_packageDir_iff hr hq _, packageDir_eq_iff hr hq _⟩

/-! ### Directories in several spellings -/

namespace Sample

/-- A repository of one package, whose manifest writes its directories in several ways. -/
def spelled : Repository where
  workspace :=
    ⟨placed "zlib" "1.3" ("name = \"zlib\"\nversion = \"1.3\"\nrevision = \"a1\"\n[cpp]\n" ++
      "include_dirs = [\"./include\", \"\"]\nlib_dirs = [\"lib//.\"]\n"), []⟩
  root := .ofString "/"

def zlib : Reference := ⟨"zlib", "1.3", none, none⟩

def zlibContents : Contents where
  reference := ⟨"zlib", "1.3", none, some "a1"⟩
  root := .ofString "/zlib/1.3"
  includeDirs := [.ofString "/zlib/1.3/./include", .ofString "/zlib/1.3/"]
  libDirs := [.ofString "/zlib/1.3/lib//."]
  binDirs := []
  libs := []

theorem offer_zlib : spelled.offer target zlib = .ok ⟨[], .ok zlibContents⟩ := by
  decide +kernel

theorem resolve_zlib : spelled.resolve [.requires zlib] target =
    .ok ⟨[Resolution.packageOf .requires zlibContents]⟩ := by
  refine Resolution.resolve_eq_ok_iff.2
    ⟨[⟨"zlib", Resolution.packageOf .requires zlibContents, []⟩], .cons ?_ (.nil _), rfl⟩
  exact .selected (u := []) rfl (dif_pos (by decide)) offer_zlib (.nil _ _) rfl (.nil _ _)

/-- However they are written, the directories are inside of the package. -/
theorem zlib_placed : (∀ d ∈ [Declaration.requires zlib], d.reference.WellFormed) ∧
    spelled.resolve [.requires zlib] target =
      .ok ⟨[Resolution.packageOf .requires zlibContents]⟩ ∧
    (Resolution.packageOf .requires zlibContents).Placed spelled.root :=
  have hdeclared : ∀ d ∈ [Declaration.requires zlib], d.reference.WellFormed := by decide
  ⟨hdeclared, resolve_zlib,
    (packages_apart spelled).2.2 _ _ _ hdeclared resolve_zlib _ List.mem_cons_self⟩

end Sample

end Repository

end PackageTrial
