import PackageTrial.Proofs.Repository.Reached
import Mathlib.Control.Monad.Basic
import Mathlib.Logic.Relation

/-!
# The graph that declarations lead to

A graph that `Repository.resolve` gives answers the declarations (`Repository.Answers`): it holds
one package for each name that they reach, the very package that each reference asks for, and every
package comes after all that it requires, whence no package requires itself, however indirectly.
-/

namespace PackageTrial

/-- The package that the graph holds for a name is the one that a reference asks for, up to the
revision. -/
def Graph.Holds (graph : Graph) (r : Reference) : Prop :=
  ∃ p, graph.get? r.name = some p ∧ p.reference.withoutRevision = r.withoutRevision

namespace Repository

section Answers

variable {repository : Repository} {target : Settings} {declarations : List Declaration}

/-- A graph is what declarations lead to, for builds for a target. -/
structure Answers (repository : Repository) (target : Settings) (declarations : List Declaration)
    (graph : Graph) : Prop where
  names_nodup : (graph.packages.map (·.reference.name)).Nodup
  mem_names_iff : ∀ name, name ∈ graph.packages.map (·.reference.name) ↔
    ∃ r, repository.Reaches declarations r ∧ r.name = name
  declared_held : ∀ d ∈ declarations, graph.Holds d.reference
  required_held : ∀ p ∈ graph.packages, ∀ q, repository.Requires p.reference q → graph.Holds q
  /-- A package comes after all that it requires. -/
  required_before : ∀ before p after, graph.packages = before ++ p :: after →
    ∀ q, repository.Requires p.reference q →
      ∃ p' ∈ before, p'.reference.withoutRevision = q.withoutRevision
  /-- No package requires itself, however indirectly. -/
  acyclic : ∀ p ∈ graph.packages, ∀ q, Relation.TransGen repository.Requires p.reference q →
    q.name ≠ p.reference.name
  described : ∀ p ∈ graph.packages, ∃ m, repository.manifestOf p.reference = .ok m ∧
    m.name = p.reference.name ∧ m.version = p.reference.version ∧ m.Admits target

namespace Founds

variable {s : Selection}

/-- What a package requires, however indirectly, is selected before it. -/
theorem met_before_of_transGen (h : repository.Founds target declarations s)
    {before after : Selection} {x : Selected} (hs : s = before ++ x :: after) {q : Reference}
    (hq : Relation.TransGen repository.Requires x.package.reference q) : before.Meets q := by
  induction hq with
  | single hq => exact h.met_before hs hq
  | tail _ hq ih =>
    obtain ⟨y, hy, hmeets⟩ := ih
    obtain ⟨front, back, rfl⟩ := List.append_of_mem hy
    have hsplit : s = front ++ y :: (back ++ x :: after) := by simp [hs]
    obtain ⟨z, hz, hmet⟩ := h.met_before hsplit (hq.congr hmeets.withoutRevision_eq.symm)
    exact ⟨z, List.mem_append_left _ hz, hmet⟩

theorem map_name (h : repository.Founds target declarations s) :
    s.graph.packages.map (·.reference.name) = s.names := by
  rw [Selection.graph, List.map_map]
  refine List.map_congr_left fun x hx => ?_
  obtain ⟨m, hm⟩ := h.describes hx
  exact hm.name

/-- The graph holds what its selection meets. -/
theorem get?_of_meets (h : repository.Founds target declarations s) {x : Selected} (hx : x ∈ s)
    {r : Reference} (hmeets : x.Meets r) : s.graph.get? r.name = some x.package := by
  obtain ⟨m, hm⟩ := h.describes hx
  rw [← hmeets.1, ← hm.name]
  cases hget : s.graph.get? x.package.reference.name with
  | none =>
    have := List.find?_eq_none.1 hget x.package (List.mem_map_of_mem hx)
    simp at this
  | some p =>
    have hp := List.mem_of_find?_eq_some hget
    have hname := List.find?_some hget
    rw [decide_eq_true_eq] at hname
    rw [List.inj_on_of_nodup_map (h.map_name ▸ h.names_nodup) hp (List.mem_map_of_mem hx) hname]

theorem holds_of_meets (h : repository.Founds target declarations s) {r : Reference}
    (hr : s.Meets r) : s.graph.Holds r := by
  obtain ⟨x, hx, hmeets⟩ := hr
  exact ⟨_, h.get?_of_meets hx hmeets, hmeets.withoutRevision_eq⟩

theorem acyclic (h : repository.Founds target declarations s) {x : Selected} (hx : x ∈ s)
    {q : Reference} (hq : Relation.TransGen repository.Requires x.package.reference q) :
    q.name ≠ x.package.reference.name := by
  intro e
  obtain ⟨before, after, rfl⟩ := List.append_of_mem hx
  obtain ⟨y, hy, hmeets⟩ := h.met_before_of_transGen rfl hq
  obtain ⟨m, hm⟩ := h.describes hx
  have hnodup := h.names_nodup
  rw [Selection.names, List.map_append, List.map_cons, List.nodup_append] at hnodup
  refine hnodup.2.2 y.name (List.mem_map_of_mem hy) x.name List.mem_cons_self ?_
  rw [hmeets.1, e, hm.name]

end Founds

/-- **What a repository resolves is what the declarations lead to.** -/
theorem resolve_answers (hdeclared : ∀ d ∈ declarations, d.reference.WellFormed) {graph : Graph}
    (h : repository.resolve declarations target = .ok graph) :
    repository.Answers target declarations graph := by
  obtain ⟨s, -, rfl, hs, hmet⟩ := exists_selection hdeclared h
  refine ⟨hs.map_name ▸ hs.names_nodup, fun name => ?_, fun d hd => ?_, fun p hp q hq => ?_,
    fun before p after e q hq => ?_, fun p hp q hq => ?_, fun p hp => ?_⟩
  · rw [hs.map_name]
    constructor
    · intro hname
      obtain ⟨x, hx, rfl⟩ := List.mem_map.1 hname
      obtain ⟨r, hr, hmeets⟩ := hs.reaches hx
      exact ⟨r, hr, hmeets.1.symm⟩
    · rintro ⟨r, hr, rfl⟩
      obtain ⟨x, hx, hmeets⟩ := hs.meets_of_reaches hmet hr
      exact List.mem_map.2 ⟨x, hx, hmeets.1⟩
  · exact hs.holds_of_meets (hmet d hd)
  · obtain ⟨x, hx, rfl⟩ := List.mem_map.1 hp
    exact hs.holds_of_meets (hs.meets_of_requires hx hq)
  · obtain ⟨front, rest, rfl, rfl, hrest⟩ := List.map_eq_append_iff.1 e
    obtain ⟨x, back, rfl, rfl, rfl⟩ := List.map_eq_cons_iff.1 hrest
    obtain ⟨y, hy, hmeets⟩ := hs.met_before rfl hq
    exact ⟨_, List.mem_map_of_mem hy, hmeets.withoutRevision_eq⟩
  · obtain ⟨x, hx, rfl⟩ := List.mem_map.1 hp
    exact hs.acyclic hx hq
  · obtain ⟨x, hx, rfl⟩ := List.mem_map.1 hp
    obtain ⟨m, hm⟩ := hs.describes hx
    obtain ⟨hname, hversion⟩ := declares_of_manifestOf hm.manifest
    exact ⟨m, hm.manifest, hname, hversion, hm.admits⟩

end Answers

/-! ## A small repository -/

deriving instance DecidableEq for Offer

/-- A package directory at the root of a workspace. -/
def Sample.placed (name version manifest : String) : List (Location × Entry) :=
  let dir : Location := [RawText.ofString version, RawText.ofString name]
  [(RawText.ofString Manifest.fileName :: dir, .file manifest.toUTF8 false),
    (dir, .directory), (dir.tail, .directory)]

/-- A repository of two packages. The first requires the second, and has no revision. -/
def sample : Repository where
  workspace :=
    ⟨Sample.placed "app" "1" "name = \"app\"\nversion = \"1\"\nrequires = [\"lib/2\"]\n" ++
      Sample.placed "lib" "2" "name = \"lib\"\nversion = \"2\"\nrevision = \"r1\"\n", []⟩
  root := .ofString "/"

namespace Sample

def target : Settings := .native .detected

def app : Reference := ⟨"app", "1", none, none⟩

def lib : Reference := ⟨"lib", "2", none, none⟩

def pinnedLib : Reference := ⟨"lib", "2", none, some "r1"⟩

/-- The first package is for the test alone; the second is required regularly besides. -/
def declarations : List Declaration := [.testRequires app, .requires pinnedLib]

def appContents : Contents := ⟨app, .ofString "/app/1", [], [], [], []⟩

def libContents : Contents := ⟨pinnedLib, .ofString "/lib/2", [], [], [], []⟩

def graph : Graph :=
  ⟨[Resolution.packageOf .requires libContents, Resolution.packageOf .testRequires appContents]⟩

theorem offer_app : sample.offer target app = .ok ⟨[lib], .ok appContents⟩ := by
  decide +kernel

theorem offer_lib : sample.offer target lib = .ok ⟨[], .ok libContents⟩ := by
  decide +kernel

/-- The first package as it is selected. -/
def selectedApp (role : Role) : Selected := ⟨"app", Resolution.packageOf role appContents, [lib]⟩

/-- The second package as it is selected. -/
def selectedLib (role : Role) : Selected := ⟨"lib", Resolution.packageOf role libContents, []⟩

theorem visits_app (role : Role) : Resolution.Visits (sample.offer target) role .start [] [app]
    [selectedLib role, selectedApp role] := by
  refine .selected (u := [selectedLib role]) rfl (dif_pos (by decide)) offer_app ?_ rfl (.nil _ _)
  exact .selected (u := []) rfl (dif_pos (by decide)) offer_lib (.nil _ _) rfl (.nil _ _)

/-- The second package is promoted, the first is not. -/
theorem visits_pinnedLib : Resolution.Visits (sample.offer target) .requires .start
    [selectedLib .testRequires, selectedApp .testRequires] [pinnedLib]
    [selectedLib .requires, selectedApp .testRequires] := by
  have hknown : Selection.get? [selectedLib .testRequires, selectedApp .testRequires] "lib" =
      some (selectedLib .testRequires) := rfl
  exact .promoted hknown (by decide) rfl rfl (.nil _ _) (.nil _ _)

theorem wellFormed_declarations : ∀ d ∈ declarations, d.reference.WellFormed := by
  decide

theorem resolve_declarations : sample.resolve declarations target = .ok graph :=
  Resolution.resolve_eq_ok_iff.2 ⟨_,
    .cons (visits_app .testRequires) (.cons visits_pinnedLib (.nil _)), rfl⟩

theorem answers_graph : (∀ d ∈ declarations, d.reference.WellFormed) ∧
    sample.resolve declarations target = .ok graph ∧ sample.Answers target declarations graph :=
  ⟨wellFormed_declarations, resolve_declarations,
    resolve_answers wellFormed_declarations resolve_declarations⟩

end Sample
end Repository

end PackageTrial
