import PackageTrial.Proofs.Repository.Graph

/-!
# Regular packages

In a graph that a repository resolves, the role of a package tells how it is wanted: it is
`requires` exactly when a regular declaration reaches the package, so the packages that consumers
see come with everything that they require (`Repository.resolve_tells_roles`).
-/

namespace PackageTrial

/-- The declarations that reach the consumers of the package. -/
def Declaration.regular (declarations : List Declaration) : List Declaration :=
  declarations.filter (·.role.propagates)

theorem Declaration.mem_regular {declarations : List Declaration} {d : Declaration} :
    d ∈ Declaration.regular declarations ↔ d ∈ declarations ∧ d.role = .requires := by
  rw [regular, List.mem_filter, Role.propagates_iff]

namespace Repository

section Roles

variable {repository : Repository} {target : Settings} {declarations : List Declaration}

/-- Some regular declaration reaches a package. -/
def ReachesRegularly (repository : Repository) (declarations : List Declaration) (p : Package) :
    Prop :=
  ∃ r, repository.Reaches (Declaration.regular declarations) r ∧
    r.withoutRevision = p.reference.withoutRevision

/-- The roles of the packages in a graph tell what is wanted regularly. -/
structure TellsRoles (repository : Repository) (declarations : List Declaration) (graph : Graph) :
    Prop where
  requires_iff : ∀ p ∈ graph.packages,
    p.role = .requires ↔ repository.ReachesRegularly declarations p
  testRequires_iff : ∀ p ∈ graph.packages,
    p.role = .testRequires ↔ ¬ repository.ReachesRegularly declarations p
  /-- What consumers see comes with all that it requires. -/
  propagated_closed : ∀ p ∈ graph.propagated, ∀ q, repository.Requires p.reference q →
    ∃ p' ∈ graph.propagated, p'.reference.withoutRevision = q.withoutRevision

theorem inherited_reaches (ds : List Declaration) :
    Resolution.Inherited (repository.offer target) (repository.Reached declarations)
      (repository.Reaches ds) := by
  intro p r found hp hoffer hsame hr q hq
  obtain ⟨m, hm, -, -, hrequires, -⟩ := offer_eq_ok_iff.1 hoffer
  exact .required hr ⟨m, _, (manifestOf_eq_ok_congr hsame).1 hm, hrequires, hq⟩

namespace Founds

variable {s : Selection}

/-- A package that is selected under a regular name is regular. -/
theorem role_of_regular (h : repository.Founds target declarations s) {x : Selected} (hx : x ∈ s)
    (hregular : s.Regular x.name) : x.package.role = .requires := by
  obtain ⟨y, hy, hname, hrole⟩ := hregular
  rwa [← Selection.eq_of_name_eq h.names_nodup hy hx hname]

/-- In a closed selection what a regular package requires is regular. -/
theorem regular_of_requires (h : repository.Founds target declarations s)
    (hclosed : s.ClosedExcept []) {x : Selected} (hx : x ∈ s)
    (hrole : x.package.role = .requires) {q : Reference}
    (hq : repository.Requires x.package.reference q) : s.Regular q.name := by
  obtain ⟨m, hm⟩ := h.describes hx
  exact hclosed x hx hrole List.not_mem_nil q (hm.requires_iff.1 hq)

theorem regular_of_reaches (h : repository.Founds target declarations s)
    (hclosed : s.ClosedExcept []) (hmet : ∀ d ∈ declarations, s.Meets d.reference)
    (hregular : ∀ d ∈ declarations, d.role = .requires → s.Regular d.reference.name)
    {r : Reference} (hr : repository.Reaches (Declaration.regular declarations) r) :
    s.Regular r.name := by
  induction hr with
  | declared hd =>
    obtain ⟨hd, hrole⟩ := Declaration.mem_regular.1 hd
    exact hregular _ hd hrole
  | required hp hq ih =>
    have hmetregular : ∀ d ∈ Declaration.regular declarations, s.Meets d.reference :=
      fun d hd => hmet d (Declaration.mem_regular.1 hd).1
    obtain ⟨x, hx, hmeets⟩ := h.meets_of_reaches hmetregular hp
    rw [← hmeets.1] at ih
    exact h.regular_of_requires hclosed hx (h.role_of_regular hx ih)
      (hq.congr hmeets.withoutRevision_eq.symm)

end Founds

/-- **A resolved package has the role `requires` exactly when a regular declaration reaches it.** -/
theorem resolve_tells_roles (hdeclared : ∀ d ∈ declarations, d.reference.WellFormed)
    {graph : Graph} (h : repository.resolve declarations target = .ok graph) :
    repository.TellsRoles declarations graph := by
  obtain ⟨s, hdeclares, rfl, hs, hmet⟩ := exists_selection hdeclared h
  obtain ⟨hclosed, hregular⟩ := hdeclares.closed hs.names_nodup fun _ hx => nomatch hx
  have honly := hdeclares.regularOnly (repository.honest target declarations)
    (inherited_reaches (Declaration.regular declarations)) .nil (reached_of_declared hdeclared)
    (fun d hd hrole => .declared (Declaration.mem_regular.2 ⟨hd, hrole⟩)) fun _ hx => nomatch hx
  have hrequires : ∀ p ∈ s.graph.packages,
      p.role = .requires ↔ repository.ReachesRegularly declarations p := by
    intro p hp
    obtain ⟨x, hx, rfl⟩ := List.mem_map.1 hp
    constructor
    · intro hrole
      obtain ⟨r, hr, hmeets⟩ := honly x hx hrole
      exact ⟨r, hr, hmeets.withoutRevision_eq.symm⟩
    · rintro ⟨r, hr, hsame⟩
      have hname := hs.regular_of_reaches hclosed hmet hregular hr
      obtain ⟨m, hm⟩ := hs.describes hx
      rw [Reference.name_eq_of_withoutRevision_eq hsame, hm.name] at hname
      exact hs.role_of_regular hx hname
  refine ⟨hrequires, fun p hp => ?_, fun p hp q hq => ?_⟩
  · rw [← hrequires p hp]
    cases p.role <;> simp
  · obtain ⟨hp, hrole⟩ := List.mem_filter.1 hp
    obtain ⟨x, hx, rfl⟩ := List.mem_map.1 hp
    have hregularq := hs.regular_of_requires hclosed hx (Role.propagates_iff.1 hrole) hq
    obtain ⟨y, hy, hmeets⟩ := hs.meets_of_requires hx hq
    rw [← hmeets.1] at hregularq
    refine ⟨y.package, List.mem_filter.2 ⟨List.mem_map_of_mem hy, ?_⟩, hmeets.withoutRevision_eq⟩
    exact Role.propagates_iff.2 (hs.role_of_regular hy hregularq)

end Roles

/-- The second package of the small repository was promoted, the first was not. -/
theorem Sample.graph_tells_roles : (∀ d ∈ Sample.declarations, d.reference.WellFormed) ∧
    sample.resolve Sample.declarations Sample.target = .ok Sample.graph ∧
    sample.TellsRoles Sample.declarations Sample.graph :=
  ⟨Sample.wellFormed_declarations, Sample.resolve_declarations,
    resolve_tells_roles Sample.wellFormed_declarations Sample.resolve_declarations⟩

end Repository

end PackageTrial
