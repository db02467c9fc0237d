import PackageTrial.Proofs.Repository.Graph

/-!
# Pinned revisions

A reference with a revision pins it. The pin is compared with the manifest when the reference is the
first for its package, and with the selected package otherwise; the second comparison lets a package
pass that has no revision at all. So a resolved graph honours the pins on a package exactly when the
package's manifest declares a revision (`Repository.resolve_revision_of_pinned`); a package without
one may be selected against a pin (`Repository.Sample.pin_not_honoured`).
-/

namespace PackageTrial.Repository

section Pins

variable {repository : Repository} {target : Settings} {declarations : List Declaration}

/-- A reference that is declared or that a package of the graph requires. -/
def Asks (repository : Repository) (declarations : List Declaration) (graph : Graph)
    (r : Reference) : Prop :=
  (∃ d ∈ declarations, d.reference = r) ∨ ∃ p ∈ graph.packages, repository.Requires p.reference r

theorem Founds.meets_of_asks {s : Selection} (h : repository.Founds target declarations s)
    (hmet : ∀ d ∈ declarations, s.Meets d.reference) {r : Reference}
    (hr : repository.Asks declarations s.graph r) : s.Meets r := by
  rcases hr with ⟨d, hd, rfl⟩ | ⟨p, hp, hq⟩
  · exact hmet d hd
  · obtain ⟨x, hx, rfl⟩ := List.mem_map.1 hp
    exact h.meets_of_requires hx hq

/-- **A pin is honoured exactly when the manifest declares a revision**; the selected package has no
revision otherwise. -/
theorem resolve_revision_of_pinned (hdeclared : ∀ d ∈ declarations, d.reference.WellFormed)
    {graph : Graph} (h : repository.resolve declarations target = .ok graph) {r : Reference}
    (hr : repository.Asks declarations graph r) {pin : String} (hpin : r.revision = some pin) :
    ∃ m p, repository.manifestOf r = .ok m ∧ graph.get? r.name = some p ∧
      (p.reference.revision = some pin ↔ m.revision ≠ none) ∧
      (m.revision = none → p.reference.revision = none) := by
  obtain ⟨s, -, rfl, hs, hmet⟩ := exists_selection hdeclared h
  obtain ⟨x, hx, hmeets⟩ := hs.meets_of_asks hmet hr
  obtain ⟨m, hm⟩ := hs.describes hx
  refine ⟨m, x.package, (manifestOf_eq_ok_congr hmeets.withoutRevision_eq).1 hm.manifest,
    hs.get?_of_meets hx hmeets, ?_, fun hnone => by rw [hm.revision, hnone]; rfl⟩
  constructor
  · intro hrevision hnone
    rw [hm.revision, hnone] at hrevision
    cases hrevision
  · intro hsome
    obtain ⟨v, hv⟩ := Option.ne_none_iff_exists'.1 hsome
    have hmine : x.package.reference.revision = some (Text.trimEnd v) := by
      rw [hm.revision, hv]
      rfl
    rw [hmine, (Selected.meets_iff.1 hmeets).2.2 _ _ hmine hpin]

end Pins

namespace Sample

theorem lib_revision_of_pinned : (∀ d ∈ declarations, d.reference.WellFormed) ∧
    sample.resolve declarations target = .ok graph ∧
    sample.Asks declarations graph pinnedLib ∧ pinnedLib.revision = some "r1" ∧
    ∃ m p, sample.manifestOf pinnedLib = .ok m ∧ graph.get? pinnedLib.name = some p ∧
      (p.reference.revision = some "r1" ↔ m.revision ≠ none) ∧
      (m.revision = none → p.reference.revision = none) := by
  have hasked : sample.Asks declarations graph pinnedLib :=
    .inl ⟨_, List.mem_cons_of_mem _ List.mem_cons_self, rfl⟩
  exact ⟨wellFormed_declarations, resolve_declarations, hasked, rfl,
    resolve_revision_of_pinned wellFormed_declarations resolve_declarations hasked rfl⟩

def pinnedApp : Reference := ⟨"app", "1", none, some "r1"⟩

/-- **A pin need not be honoured**: the manifest of the first package declares no revision, and the
package is selected without one before the pin is met. -/
theorem pin_not_honoured : app.WellFormed ∧ pinnedApp.WellFormed ∧ ∃ graph,
    sample.resolve [.requires app, .requires pinnedApp] target = .ok graph ∧
      ¬ ∃ p, graph.get? pinnedApp.name = some p ∧ p.reference.revision = pinnedApp.revision := by
  have hknown : Selection.get? [selectedLib .requires, selectedApp .requires] "app" =
      some (selectedApp .requires) := rfl
  have hsettled : Resolution.Visits (sample.offer target) .requires .start
      [selectedLib .requires, selectedApp .requires] [pinnedApp]
      [selectedLib .requires, selectedApp .requires] :=
    .settled hknown (by decide) (by decide) (.nil _ _)
  refine ⟨by decide, by decide, _, Resolution.resolve_eq_ok_iff.2
    ⟨_, .cons (visits_app .requires) (.cons hsettled (.nil _)), rfl⟩, ?_⟩
  rintro ⟨p, hp, hrevision⟩
  cases hp
  cases hrevision

end Sample

end PackageTrial.Repository
