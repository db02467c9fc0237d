import PackageTrial.Proofs.Reference.RoundTrip
import PackageTrial.Proofs.Resolution.Roles
import PackageTrial.Repository

/-!
# What a repository offers

The manifests of a repository say which reference requires which (`Repository.Requires`), and so
what declarations reach (`Repository.Reaches`). What the repository offers for a well-formed
reference is honest (`Repository.honest`): the package of an offer is the one asked for, since its
reference is the requested one up to the revision, and what it requires is well formed and reached.
A package that was selected is described by its manifest (`Repository.Describes`).
-/

namespace PackageTrial

theorem Reference.name_eq_of_withoutRevision_eq {p q : Reference}
    (h : p.withoutRevision = q.withoutRevision) : p.name = q.name := by
  injection h

/-! ## Manifests -/

namespace Manifest

/-- The package works on the target. -/
structure Admits (m : Manifest) (target : Settings) : Prop where
  os : m.compatibility.os = [] ∨ ∃ os ∈ m.compatibility.os, Os.parse os = target.os
  arch : m.compatibility.arch = [] ∨ ∃ arch ∈ m.compatibility.arch, Arch.parse arch = target.arch

theorem unsupported?_eq_none_iff {m : Manifest} {target : Settings} :
    m.unsupported? target = none ↔ m.Admits target := by
  have hadmits : m.Admits target ↔
      ¬ (m.compatibility.os ≠ [] ∧ ¬ m.compatibility.os.any (Os.parse · = target.os)) ∧
      ¬ (m.compatibility.arch ≠ [] ∧ ¬ m.compatibility.arch.any (Arch.parse · = target.arch)) := by
    simp only [not_and_or, not_not, List.any_eq_true, decide_eq_true_eq]
    exact ⟨fun h => ⟨h.os, h.arch⟩, fun h => ⟨h.1, h.2⟩⟩
  rw [hadmits]
  unfold unsupported?
  dsimp only
  split
  · simp_all
  split
  · simp_all
  · simp_all

theorem wellFormed_of_requirements {m : Manifest} {rs : List Reference}
    (h : m.requirements = .ok rs) : ∀ r ∈ rs, r.WellFormed := by
  intro r hr
  obtain ⟨written, -, hwritten⟩ := Outcome.exists_of_mem_mapM h hr
  exact (Reference.wellFormed_of_parse (Outcome.mapError_eq_ok_iff.1 hwritten)).1

/-- The reference to a package is the requested one, with the manifest's revision when there is
one. -/
theorem eq_of_canonical {m : Manifest} {r q : Reference} (hr : r.WellFormed)
    (h : m.canonical r = .ok q) :
    q = { r with revision := (m.revision.map Text.trimEnd).or r.revision } := by
  unfold canonical at h
  split at h
  · rename_i hrevision
    cases h
    rw [hrevision]
    rfl
  · rename_i revision hrevision
    rw [Reference.eq_of_parse_append hr (Outcome.mapError_eq_ok_iff.1 h), hrevision]
    rfl

theorem withoutRevision_of_canonical {m : Manifest} {r q : Reference} (hr : r.WellFormed)
    (h : m.canonical r = .ok q) : q.withoutRevision = r.withoutRevision := by
  rw [eq_of_canonical hr h]
  rfl

/-- The reference to a package has the revision of its manifest, provided that a pinned revision is
the manifest's. -/
theorem revision_of_canonical {m : Manifest} {r q : Reference} (hr : r.WellFormed)
    (hpin : ∀ pin, r.revision = some pin → m.revision = some pin) (h : m.canonical r = .ok q) :
    q.revision = m.revision.map Text.trimEnd := by
  rw [eq_of_canonical hr h]
  cases hrevision : r.revision with
  | none => cases m.revision <;> rfl
  | some pin => rw [hpin pin hrevision]; rfl

end Manifest

/-! ## Offers -/

namespace Repository

theorem manifestOf_eq_ok_iff {repository : Repository} {r : Reference} {m : Manifest} :
    repository.manifestOf r = .ok m ↔
      repository.workspace.isFile (manifestPath repository.root r) = true ∧
      ∃ bytes, repository.workspace.read (manifestPath repository.root r) = .ok bytes ∧
        Manifest.read bytes r.name r.version = .ok m := by
  unfold manifestOf
  rw [Outcome.unless_throw_eq_ok_iff]
  simp only [not_not, Outcome.bind_eq_ok_iff, Outcome.mapError_eq_ok_iff]

/-- The manifest of a package does not depend on a revision. -/
theorem manifestOf_eq_ok_congr {repository : Repository} {p q : Reference} {m : Manifest}
    (h : p.withoutRevision = q.withoutRevision) :
    repository.manifestOf p = .ok m ↔ repository.manifestOf q = .ok m := by
  obtain ⟨name, version, scope, revision⟩ := p
  obtain ⟨name', version', scope', revision'⟩ := q
  simp only [Reference.withoutRevision, Reference.mk.injEq] at h
  obtain ⟨rfl, rfl, rfl, -⟩ := h
  rw [manifestOf_eq_ok_iff, manifestOf_eq_ok_iff]
  rfl

theorem declares_of_manifestOf {repository : Repository} {r : Reference} {m : Manifest}
    (h : repository.manifestOf r = .ok m) : m.name = r.name ∧ m.version = r.version := by
  obtain ⟨-, bytes, -, h⟩ := manifestOf_eq_ok_iff.1 h
  unfold Manifest.read at h
  split at h
  · cases h
  split at h
  · cases h
  split at h
  · cases h
  split at h
  · rename_i hdeclares
    cases h
    exact hdeclares
  · cases h

theorem checkPin_eq_ok_iff {r : Reference} {m : Manifest} {u : Unit} :
    checkPin r m = .ok u ↔ ∀ pin, r.revision = some pin → m.revision = some pin := by
  unfold checkPin
  split
  · simp_all
  · split <;> simp_all

theorem offer_eq_ok_iff {repository : Repository} {target : Settings} {r : Reference}
    {found : Offer} : repository.offer target r = .ok found ↔
      ∃ m, repository.manifestOf r = .ok m ∧
        (∀ pin, r.revision = some pin → m.revision = some pin) ∧ m.Admits target ∧
        m.requirements = .ok found.requires ∧ found.contents = repository.contentsOf r m := by
  obtain ⟨requires, contents⟩ := found
  simp only [offer, Outcome.bind_eq_ok_iff, checkPin_eq_ok_iff, ← Manifest.unsupported?_eq_none_iff]
  refine exists_congr fun m => and_congr_right fun _ => ?_
  rw [exists_const]
  refine and_congr_right fun _ => ?_
  cases hsupported : m.unsupported? target with
  | some restriction => simp [Outcome.bind_eq_ok_iff, Outcome.throw_ne_ok]
  | none =>
    simp only [Outcome.bind_eq_ok_iff, Outcome.mapError_eq_ok_iff, true_and]
    constructor
    · rintro ⟨rs, hrs, h⟩
      cases h
      exact ⟨hrs, rfl⟩
    · rintro ⟨hrs, rfl⟩
      exact ⟨requires, hrs, rfl⟩

theorem canonical_of_contentsOf {repository : Repository} {r : Reference} {m : Manifest}
    {contents : Contents} (h : repository.contentsOf r m = .ok contents) :
    m.canonical r = .ok contents.reference := by
  simp only [contentsOf, Outcome.bind_eq_ok_iff] at h
  obtain ⟨canonical, hcanonical, _, -, _, -, _, -, h⟩ := h
  cases h
  exact hcanonical

/-! ## What is required and what is reached -/

/-- The manifest of one package lists another among its requirements. -/
def Requires (repository : Repository) (p q : Reference) : Prop :=
  ∃ m rs, repository.manifestOf p = .ok m ∧ m.requirements = .ok rs ∧ q ∈ rs

/-- References to which declarations lead. -/
inductive Reaches (repository : Repository) (declarations : List Declaration) : Reference → Prop
  | declared {d : Declaration} (hd : d ∈ declarations) : Reaches repository declarations d.reference
  | required {p q : Reference} (hp : Reaches repository declarations p)
      (hq : repository.Requires p q) : Reaches repository declarations q

theorem Requires.congr {repository : Repository} {p p' q : Reference}
    (h : p.withoutRevision = p'.withoutRevision) (hq : repository.Requires p q) :
    repository.Requires p' q := by
  obtain ⟨m, rs, hm, hrs, hmem⟩ := hq
  exact ⟨m, rs, (manifestOf_eq_ok_congr h).1 hm, hrs, hmem⟩

/-- A well-formed reference that declarations lead to. -/
structure Reached (repository : Repository) (declarations : List Declaration) (r : Reference) :
    Prop where
  wellFormed : r.WellFormed
  reaches : repository.Reaches declarations r

variable {repository : Repository} {target : Settings} {declarations : List Declaration}

theorem reached_of_declared (hdeclared : ∀ d ∈ declarations, d.reference.WellFormed) :
    ∀ d ∈ declarations, repository.Reached declarations d.reference :=
  fun d hd => ⟨hdeclared d hd, .declared hd⟩

/-- **A repository is honest** towards well-formed references. -/
theorem honest (repository : Repository) (target : Settings) (declarations : List Declaration) :
    Honest (repository.offer target) (repository.Reached declarations) where
  requires {r found} hr hoffer q hq := by
    obtain ⟨m, hm, -, -, hrequires, -⟩ := offer_eq_ok_iff.1 hoffer
    exact ⟨Manifest.wellFormed_of_requirements hrequires q hq,
      .required hr.reaches ⟨m, _, hm, hrequires, hq⟩⟩
  meets {r found contents} hr hoffer hcontents := by
    obtain ⟨m, -, hpin, -, -, hfound⟩ := offer_eq_ok_iff.1 hoffer
    have hcanonical := canonical_of_contentsOf (hfound ▸ hcontents)
    have hrevision := Manifest.revision_of_canonical hr.wellFormed hpin hcanonical
    refine Selected.meets_iff.2 ⟨rfl, ?_, fun mine wanted hmine hwanted => ?_⟩
    · exact Manifest.withoutRevision_of_canonical hr.wellFormed hcanonical
    · change contents.reference.revision = some mine at hmine
      rw [hrevision, hpin wanted hwanted, Option.map_some, Option.some.injEq,
        Reference.trimEnd_of_isRevision (hr.wellFormed.revision wanted hwanted)] at hmine
      exact hmine.symm

/-! ## Selected packages -/

/-- A selected package is as its manifest describes it. -/
structure Describes (repository : Repository) (target : Settings) (m : Manifest) (x : Selected) :
    Prop where
  manifest : repository.manifestOf x.package.reference = .ok m
  name : x.package.reference.name = x.name
  admits : m.Admits target
  requires : m.requirements = .ok x.requires
  revision : x.package.reference.revision = m.revision.map Text.trimEnd

theorem Describes.requires_iff {m : Manifest} {x : Selected} {q : Reference}
    (h : repository.Describes target m x) :
    repository.Requires x.package.reference q ↔ q ∈ x.requires := by
  constructor
  · rintro ⟨m', rs, hm', hrs, hq⟩
    cases h.manifest.symm.trans hm'
    cases h.requires.symm.trans hrs
    exact hq
  · exact fun hq => ⟨m, _, h.manifest, h.requires, hq⟩

/-- Selections that are founded on what the repository offers for the target. -/
abbrev Founds (repository : Repository) (target : Settings) (declarations : List Declaration)
    (s : Selection) : Prop :=
  Selection.Founded (repository.offer target) (repository.Reached declarations) s.recipes

namespace Founds

variable {s : Selection}

theorem names_nodup (h : repository.Founds target declarations s) : s.names.Nodup :=
  Selection.Founded.names_nodup_of_recipes h

theorem describes (h : repository.Founds target declarations s) {x : Selected} (hx : x ∈ s) :
    ∃ m, repository.Describes target m x := by
  obtain ⟨r, found, contents, role, hr, hoffer, hcontents, rfl⟩ :=
    Selection.Founded.offered_of_mem h hx
  obtain ⟨m, hm, hpin, hadmits, hrequires, hfound⟩ := offer_eq_ok_iff.1 hoffer
  have hcanonical := canonical_of_contentsOf (hfound ▸ hcontents)
  have hsame := Manifest.withoutRevision_of_canonical hr.wellFormed hcanonical
  refine ⟨m, ?_, ?_, hadmits, hrequires, ?_⟩
  · exact (manifestOf_eq_ok_congr hsame).2 hm
  · exact Reference.name_eq_of_withoutRevision_eq hsame
  · exact Manifest.revision_of_canonical hr.wellFormed hpin hcanonical

/-- A selected package is there because something that declarations reach asks for it. -/
theorem reaches (h : repository.Founds target declarations s) {x : Selected} (hx : x ∈ s) :
    ∃ r, repository.Reaches declarations r ∧ x.Meets r := by
  obtain ⟨r, found, contents, role, hr, hoffer, hcontents, rfl⟩ :=
    Selection.Founded.offered_of_mem h hx
  exact ⟨r, hr.reaches, (repository.honest target declarations).meets hr hoffer hcontents⟩

theorem met_before (h : repository.Founds target declarations s) {before after : Selection}
    {x : Selected} (hs : s = before ++ x :: after) {q : Reference}
    (hq : repository.Requires x.package.reference q) : before.Meets q := by
  obtain ⟨m, hm⟩ := h.describes (hs ▸ List.mem_append_right _ List.mem_cons_self)
  have hrecipes : s.recipes = before.recipes ++ x.inRole .requires :: after.recipes := by
    rw [hs]
    exact List.map_append
  rw [← Selection.meets_recipes]
  exact Selection.Founded.met_before h hrecipes q (hm.requires_iff.1 hq)

theorem meets_of_requires (h : repository.Founds target declarations s) {x : Selected}
    (hx : x ∈ s) {q : Reference} (hq : repository.Requires x.package.reference q) :
    s.Meets q := by
  obtain ⟨before, after, hs⟩ := List.append_of_mem hx
  obtain ⟨y, hy, hmeets⟩ := h.met_before hs hq
  exact ⟨y, hs ▸ List.mem_append_left _ hy, hmeets⟩

/-- What declarations reach is met once the declarations are. -/
theorem meets_of_reaches (h : repository.Founds target declarations s)
    {ds : List Declaration} (hmet : ∀ d ∈ ds, s.Meets d.reference) {r : Reference}
    (hr : repository.Reaches ds r) : s.Meets r := by
  induction hr with
  | declared hd => exact hmet _ hd
  | required _ hq ih =>
    obtain ⟨x, hx, hmeets⟩ := ih
    exact h.meets_of_requires hx (hq.congr hmeets.withoutRevision_eq.symm)

end Founds

/-- The selection behind a graph that declarations led to. -/
theorem exists_selection (hdeclared : ∀ d ∈ declarations, d.reference.WellFormed) {graph : Graph}
    (h : repository.resolve declarations target = .ok graph) :
    ∃ s, Resolution.Declares (repository.offer target) [] declarations s ∧ s.graph = graph ∧
      repository.Founds target declarations s ∧ ∀ d ∈ declarations, s.Meets d.reference := by
  obtain ⟨s, hs, hgraph⟩ := Resolution.resolve_eq_ok_iff.1 h
  obtain ⟨hfounds, hmet⟩ := hs.founded (repository.honest target declarations) .nil
    (reached_of_declared hdeclared)
  exact ⟨s, hs, hgraph, hfounds, hmet⟩

end Repository

end PackageTrial
