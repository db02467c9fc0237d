import PackageTrial.Proofs.Repository.Regular

/-!
# Declarations in another order

What a repository resolves depends neither on the order of the declarations nor on their repetition
(`Repository.resolve_reordered`): two orders that both succeed select the same packages in the same
roles, and declarations that have been made already leave the graph as it is. A package is what its
manifest says, whichever reference asked for it first (`Founds.package_eq`), and its role tells
whether a regular declaration reaches it.
-/

namespace PackageTrial

theorem Reference.eq_of_withoutRevision_eq {p q : Reference}
    (h : p.withoutRevision = q.withoutRevision) (hrevision : p.revision = q.revision) : p = q := by
  obtain ⟨name, version, scope, revision⟩ := p
  obtain ⟨name', version', scope', revision'⟩ := q
  simp only [Reference.withoutRevision, Reference.mk.injEq] at h hrevision ⊢
  exact ⟨h.1, h.2.1, h.2.2.1, hrevision⟩

/-! ## Declarations that have been made -/

namespace Resolution

variable {offer : Reference → Except ResolveError Offer} {s t u : Selection}

theorem Declares.append {ds ds' : List Declaration} (h : Declares offer s ds t)
    (h' : Declares offer t ds' u) : Declares offer s (ds ++ ds') u := by
  induction h with
  | nil => exact h'
  | cons hvisits _ ih => exact .cons hvisits (ih h')

/-- Declarations that a selection meets, in a role that will do, leave it as it is. -/
theorem declares_of_met (hs : s.names.Nodup) {ds : List Declaration}
    (hmet : ∀ d ∈ ds, s.Meets d.reference)
    (hregular : ∀ d ∈ ds, d.role = .requires → s.Regular d.reference.name) :
    Declares offer s ds s := by
  induction ds with
  | nil => exact .nil s
  | cons d ds ih =>
    obtain ⟨hd, hmet⟩ := List.forall_mem_cons.1 hmet
    obtain ⟨hrole, hregular⟩ := List.forall_mem_cons.1 hregular
    obtain ⟨known, hknown⟩ := Option.ne_none_iff_exists'.1
      fun hnone => Selection.get?_eq_none_iff.1 hnone hd.mem_names
    have hmeets := hd.of_get? hs hknown
    refine .cons (.settled hknown hmeets.2 ?_ (.nil _ _)) (ih hmet hregular)
    rintro ⟨hpropagates, htest⟩
    obtain ⟨y, hy, hname, hyrole⟩ := hrole (Role.propagates_iff.1 hpropagates)
    obtain ⟨hmem, -⟩ := Selection.mem_of_get? hknown
    rw [Selection.eq_of_name_eq hs hy hmem (hname.trans hmeets.1.symm)] at hyrole
    rw [Selected.isTestOnly_eq_false_iff.2 hyrole] at htest
    cases htest

end Resolution

namespace Repository

section Reordered

variable {repository : Repository} {target : Settings} {ds ds' : List Declaration}
  {s t : Selection}

theorem Reaches.mono (hsub : ds ⊆ ds') {r : Reference} (h : repository.Reaches ds r) :
    repository.Reaches ds' r := by
  induction h with
  | declared hd => exact .declared (hsub hd)
  | required _ hq ih => exact .required ih hq

/-! ## Packages are what their manifests say -/

theorem contentsOf_congr {r q : Reference} {m : Manifest}
    (hsame : r.withoutRevision = q.withoutRevision) (hcanonical : m.canonical r = m.canonical q) :
    repository.contentsOf r m = repository.contentsOf q m := by
  have hdir : packageDir repository.root r = packageDir repository.root q := by
    change packageDir repository.root r.withoutRevision = _
    rw [hsame]
    rfl
  rw [contentsOf, contentsOf, hdir, hcanonical]

/-- What is offered for a package does not depend on the reference that asks for it. -/
theorem contents_eq_of_offer {r q : Reference} {found found' : Offer}
    {contents contents' : Contents} (hr : r.WellFormed) (hq : q.WellFormed)
    (hsame : r.withoutRevision = q.withoutRevision)
    (hoffer : repository.offer target r = .ok found) (hcontents : found.contents = .ok contents)
    (hoffer' : repository.offer target q = .ok found')
    (hcontents' : found'.contents = .ok contents') : contents = contents' := by
  obtain ⟨m, hm, hpin, -, -, hfound⟩ := offer_eq_ok_iff.1 hoffer
  obtain ⟨m', hm', hpin', -, -, hfound'⟩ := offer_eq_ok_iff.1 hoffer'
  cases hm'.symm.trans ((manifestOf_eq_ok_congr hsame).1 hm)
  rw [hfound] at hcontents
  rw [hfound'] at hcontents'
  have hcanonical := canonical_of_contentsOf hcontents
  have hcanonical' := canonical_of_contentsOf hcontents'
  have hreference : contents.reference = contents'.reference := by
    refine Reference.eq_of_withoutRevision_eq ?_ ?_
    · rw [Manifest.withoutRevision_of_canonical hr hcanonical, hsame,
        Manifest.withoutRevision_of_canonical hq hcanonical']
    · rw [Manifest.revision_of_canonical hr hpin hcanonical,
        Manifest.revision_of_canonical hq hpin' hcanonical']
  rw [contentsOf_congr hsame (by rw [hcanonical, hcanonical', hreference]), hcontents'] at hcontents
  exact (Except.ok.inj hcontents).symm

/-- **A package is what its manifest says**, in whatever selection it is found. -/
theorem Founds.package_eq (hs : repository.Founds target ds s) (ht : repository.Founds target ds' t)
    {x y : Selected} (hx : x ∈ s) (hy : y ∈ t)
    (hsame : x.package.reference.withoutRevision = y.package.reference.withoutRevision)
    (hrole : x.package.role = y.package.role) : x.package = y.package := by
  obtain ⟨r, found, contents, role, hr, hoffer, hcontents, rfl⟩ :=
    Selection.Founded.offered_of_mem hs hx
  obtain ⟨q, found', contents', role', hq, hoffer', hcontents', rfl⟩ :=
    Selection.Founded.offered_of_mem ht hy
  have hmeets := (repository.honest target ds).meets hr hoffer hcontents
  have hmeets' := (repository.honest target ds').meets hq hoffer' hcontents'
  have hrq : r.withoutRevision = q.withoutRevision :=
    hmeets.withoutRevision_eq.symm.trans (hsame.trans hmeets'.withoutRevision_eq)
  obtain rfl : role = role' := hrole
  rw [contents_eq_of_offer hr.wellFormed hq.wellFormed hrq hoffer hcontents hoffer' hcontents']

/-! ## The selection behind a graph -/

/-- What is known of a selection to which declarations led. -/
structure Settles (repository : Repository) (target : Settings) (ds : List Declaration)
    (s : Selection) : Prop where
  founds : repository.Founds target ds s
  met : ∀ d ∈ ds, s.Meets d.reference
  closed : s.ClosedExcept []
  regular : ∀ d ∈ ds, d.role = .requires → s.Regular d.reference.name
  regularOnly : Resolution.RegularOnly (repository.Reaches (Declaration.regular ds)) s

theorem settles_of_declares (hdeclared : ∀ d ∈ ds, d.reference.WellFormed)
    (h : Resolution.Declares (repository.offer target) [] ds s) :
    repository.Settles target ds s := by
  have hreached : ∀ d ∈ ds, repository.Reached ds d.reference := reached_of_declared hdeclared
  obtain ⟨hs, hmet⟩ := h.founded (repository.honest target ds) .nil hreached
  obtain ⟨hclosed, hregular⟩ := h.closed (Founds.names_nodup hs) fun _ hx => nomatch hx
  refine ⟨hs, hmet, hclosed, hregular, ?_⟩
  exact h.regularOnly (repository.honest target ds) (inherited_reaches (Declaration.regular ds))
    .nil hreached (fun d hd hrole => .declared (Declaration.mem_regular.2 ⟨hd, hrole⟩))
    fun _ hx => nomatch hx

namespace Settles

/-- A package that is regular for some declarations is regular for more of them. -/
theorem role_mono (h : repository.Settles target ds s) (h' : repository.Settles target ds' t)
    (hsub : ds ⊆ ds') {x y : Selected} (hx : x ∈ s) (hy : y ∈ t) (hname : x.name = y.name)
    (hrole : x.package.role = .requires) : y.package.role = .requires := by
  obtain ⟨r, hr, hmeets⟩ := h.regularOnly x hx hrole
  have hregular : Declaration.regular ds ⊆ Declaration.regular ds' := List.filter_subset _ hsub
  refine h'.founds.role_of_regular hy ?_
  rw [← hname, hmeets.1]
  exact h'.founds.regular_of_reaches h'.closed h'.met h'.regular (hr.mono hregular)

/-- The same declarations lead to the same packages. -/
theorem packages_subset (h : repository.Settles target ds s)
    (h' : repository.Settles target ds' t) (hsub : ds ⊆ ds') (hsub' : ds' ⊆ ds) :
    s.graph.packages ⊆ t.graph.packages := by
  intro p hp
  obtain ⟨x, hx, rfl⟩ := List.mem_map.1 hp
  obtain ⟨r, hr, hmeets⟩ := h.founds.reaches hx
  obtain ⟨y, hy, hmeets'⟩ := h'.founds.meets_of_reaches h'.met (hr.mono hsub)
  have hname : x.name = y.name := hmeets.1.trans hmeets'.1.symm
  have hrole : x.package.role = y.package.role := by
    have hxy := h.role_mono h' hsub hx hy hname
    have hyx := h'.role_mono h hsub' hy hx hname.symm
    cases hxrole : x.package.role with
    | requires => exact (hxy hxrole).symm
    | testRequires =>
      cases hyrole : y.package.role with
      | requires => exact hxrole ▸ hyx hyrole
      | testRequires => rfl
  rw [h.founds.package_eq h'.founds hx hy
    (hmeets.withoutRevision_eq.trans hmeets'.withoutRevision_eq.symm) hrole]
  exact List.mem_map_of_mem hy

theorem packages_nodup (h : repository.Settles target ds s) : s.graph.packages.Nodup := by
  have hnames : (s.graph.packages.map (·.reference.name)).Nodup :=
    h.founds.map_name ▸ h.founds.names_nodup
  exact hnames.of_map

end Settles

/-- **Neither order nor repetition of declarations matters.** -/
theorem resolve_reordered (hdeclared : ∀ d ∈ ds, d.reference.WellFormed) {graph : Graph}
    (h : repository.resolve ds target = .ok graph) :
    (∀ ds' graph', ds.Perm ds' → repository.resolve ds' target = .ok graph' →
      graph.packages.Perm graph'.packages) ∧
    ∀ ds', (∀ d ∈ ds', d ∈ ds) → repository.resolve (ds ++ ds') target = .ok graph := by
  obtain ⟨s, hs, rfl⟩ := Resolution.resolve_eq_ok_iff.1 h
  have hsettles := settles_of_declares hdeclared hs
  constructor
  · intro ds' graph' hperm h'
    obtain ⟨t, ht, rfl⟩ := Resolution.resolve_eq_ok_iff.1 h'
    have hsettles' := settles_of_declares (fun d hd => hdeclared d (hperm.mem_iff.2 hd)) ht
    refine (List.perm_ext_iff_of_nodup hsettles.packages_nodup hsettles'.packages_nodup).2
      fun p => ⟨fun hp => ?_, fun hp => ?_⟩
    · exact hsettles.packages_subset hsettles' hperm.subset hperm.symm.subset hp
    · exact hsettles'.packages_subset hsettles hperm.symm.subset hperm.subset hp
  · intro ds' hsub
    refine Resolution.resolve_eq_ok_iff.2 ⟨s, hs.append ?_, rfl⟩
    exact Resolution.declares_of_met hsettles.founds.names_nodup
      (fun d hd => hsettles.met d (hsub d hd)) fun d hd => hsettles.regular d (hsub d hd)

end Reordered

namespace Sample

theorem offer_pinnedLib : sample.offer target pinnedLib = .ok ⟨[], .ok libContents⟩ := by
  decide +kernel

/-- In the other order nothing is promoted: the second package is regular from the start. -/
theorem resolve_reversed : sample.resolve declarations.reverse target = .ok graph := by
  have hlib : Resolution.Visits (sample.offer target) .requires .start [] [pinnedLib]
      [selectedLib .requires] :=
    .selected (u := []) rfl (dif_pos (by decide)) offer_pinnedLib (.nil _ _) rfl (.nil _ _)
  have hknown : Selection.get? [selectedLib .requires] "lib" = some (selectedLib .requires) := rfl
  have happ : Resolution.Visits (sample.offer target) .testRequires .start [selectedLib .requires]
      [app] [selectedLib .requires, selectedApp .testRequires] :=
    .selected (u := [selectedLib .requires]) rfl (dif_pos (by decide)) offer_app
      (.settled hknown (by decide) (by decide) (.nil _ _)) rfl (.nil _ _)
  exact Resolution.resolve_eq_ok_iff.2 ⟨_, .cons hlib (.cons happ (.nil _)), rfl⟩

theorem reordered_graph : (∀ d ∈ declarations, d.reference.WellFormed) ∧
    sample.resolve declarations target = .ok graph ∧
    (∃ graph', sample.resolve declarations.reverse target = .ok graph' ∧
      graph.packages.Perm graph'.packages) ∧
    sample.resolve (declarations ++ [.requires pinnedLib]) target = .ok graph := by
  have h := resolve_reordered wellFormed_declarations resolve_declarations
  exact ⟨wellFormed_declarations, resolve_declarations,
    ⟨graph, resolve_reversed, h.1 _ _ (List.reverse_perm _).symm resolve_reversed⟩,
    h.2 _ (by decide)⟩

end Sample

end Repository

end PackageTrial
