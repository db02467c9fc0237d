import PackageTrial.Proofs.Resolution.Visits
import Mathlib.Data.List.Nodup

/-!
# Selections

Visiting only adds packages to a selection and changes roles: what was selected, roles apart, is the
front of what is selected afterwards (`Visits.recipes_grow`). A selection is founded
(`Selection.Founded`) when each package in it was offered, under a name that was new, after
everything that it requires. Visits keep a selection founded and end with every visited reference
met (`Visits.founded`), as long as what is offered is what was asked for (`Honest`).
-/

namespace PackageTrial

namespace Selected

/-- The package is one that a reference may stand for. -/
def Meets (x : Selected) (r : Reference) : Prop :=
  x.name = r.name ∧ x.disagrees r = false

theorem meets_iff {x : Selected} {r : Reference} : x.Meets r ↔
    x.name = r.name ∧ x.package.reference.withoutRevision = r.withoutRevision ∧
      ∀ mine wanted, x.package.reference.revision = some mine → r.revision = some wanted →
        mine = wanted := by
  unfold Meets disagrees
  rw [Bool.or_eq_false_iff, decide_eq_false_iff_not, not_not]
  refine and_congr_right fun _ => and_congr_right fun _ => ?_
  cases x.package.reference.revision <;> cases r.revision <;> simp

theorem Meets.withoutRevision_eq {x : Selected} {r : Reference} (h : x.Meets r) :
    x.package.reference.withoutRevision = r.withoutRevision :=
  (meets_iff.1 h).2.1

end Selected

namespace Selection

/-! ## Names and recipes -/

/-- The names under which packages are selected. -/
def names (s : Selection) : List String := s.map (·.name)

/-- Some selected package meets a reference. -/
def Meets (s : Selection) (r : Reference) : Prop := ∃ x ∈ s, x.Meets r

/-- The selected packages, roles apart. -/
def recipes (s : Selection) : Selection := s.map (·.inRole .requires)

@[simp] theorem recipes_promote (s : Selection) (name : String) (role : Role) :
    (s.promote name role).recipes = s.recipes := by
  simp only [recipes, promote, List.map_map]
  refine List.map_congr_left fun x _ => ?_
  simp only [Function.comp]
  split <;> rfl

@[simp] theorem names_recipes (s : Selection) : s.recipes.names = s.names := by
  simp [names, recipes, Selected.inRole]

theorem nodup_of_recipes {s t : Selection} (hst : s.recipes <+: t.recipes) (ht : t.names.Nodup) :
    s.names.Nodup := by
  rw [← names_recipes] at ht ⊢
  exact ht.sublist (hst.map _).sublist

theorem meets_recipes {s : Selection} {r : Reference} : s.recipes.Meets r ↔ s.Meets r := by
  simp only [Meets, recipes, List.mem_map]
  constructor
  · rintro ⟨-, ⟨x, hx, rfl⟩, hmeets⟩
    exact ⟨x, hx, hmeets⟩
  · rintro ⟨x, hx, hmeets⟩
    exact ⟨_, ⟨x, hx, rfl⟩, hmeets⟩

theorem meets_promote {s : Selection} {name : String} {role : Role} {r : Reference} :
    (s.promote name role).Meets r ↔ s.Meets r := by
  rw [← meets_recipes, recipes_promote, meets_recipes]

theorem Meets.mono {s t : Selection} {r : Reference} (hst : s.recipes <+: t.recipes)
    (h : s.Meets r) : t.Meets r := by
  rw [← meets_recipes] at h ⊢
  obtain ⟨x, hx, hmeets⟩ := h
  exact ⟨x, hst.subset hx, hmeets⟩

theorem get?_eq_none_iff {s : Selection} {name : String} : s.get? name = none ↔ name ∉ s.names := by
  simp [get?, names]

theorem mem_of_get? {s : Selection} {name : String} {x : Selected} (h : s.get? name = some x) :
    x ∈ s ∧ x.name = name :=
  ⟨List.mem_of_find?_eq_some h, by simpa using List.find?_some h⟩

theorem eq_of_name_eq {s : Selection} (hs : s.names.Nodup) {x y : Selected} (hx : x ∈ s)
    (hy : y ∈ s) (h : x.name = y.name) : x = y :=
  List.inj_on_of_nodup_map hs hx hy h

theorem Meets.mem_names {s : Selection} {r : Reference} (h : s.Meets r) : r.name ∈ s.names := by
  obtain ⟨x, hx, hmeets⟩ := h
  exact List.mem_map.2 ⟨x, hx, hmeets.1⟩

/-- The package under the name of a reference that is met is the one that meets it. -/
theorem Meets.of_get? {s : Selection} {r : Reference} {x : Selected} (h : s.Meets r)
    (hs : s.names.Nodup) (hx : s.get? r.name = some x) : x.Meets r := by
  obtain ⟨y, hy, hmeets⟩ := h
  obtain ⟨hmem, hname⟩ := mem_of_get? hx
  rwa [eq_of_name_eq hs hmem hy (hname.trans hmeets.1.symm)]

/-! ## Founded selections -/

variable {offer : Reference → Except ResolveError Offer} {P : Reference → Prop}

/-- The package of an offer, in the role `requires`. -/
def recipe (r : Reference) (found : Offer) (contents : Contents) : Selected :=
  ⟨r.name, Resolution.packageOf .requires contents, found.requires⟩

@[simp] theorem name_recipe (r : Reference) (found : Offer) (contents : Contents) :
    (recipe r found contents).name = r.name := rfl

/-- A selection, roles apart, in which each package was offered for a reference with the property
`P`, under a new name and after everything that it requires. -/
inductive Founded (offer : Reference → Except ResolveError Offer) (P : Reference → Prop) :
    Selection → Prop
  | nil : Founded offer P []
  | push {s : Selection} {r : Reference} {found : Offer} {contents : Contents}
      (hs : Founded offer P s) (hfresh : r.name ∉ s.names) (hr : P r) (hoffer : offer r = .ok found)
      (hcontents : found.contents = .ok contents) (hmet : ∀ q ∈ found.requires, s.Meets q) :
      Founded offer P (s ++ [recipe r found contents])

namespace Founded

variable {s : Selection}

theorem names_nodup (h : Founded offer P s) : s.names.Nodup := by
  induction h with
  | nil => exact List.nodup_nil
  | push _ hfresh _ _ _ _ ih =>
    rw [names, List.map_append, List.nodup_append_comm]
    exact List.nodup_cons.2 ⟨by simpa [names] using hfresh, by simpa [names] using ih⟩

theorem offered (h : Founded offer P s) {x : Selected} (hx : x ∈ s) :
    ∃ r found contents, P r ∧ offer r = .ok found ∧ found.contents = .ok contents ∧
      x = recipe r found contents := by
  induction h with
  | nil => cases hx
  | push _ _ hr hoffer hcontents _ ih =>
    rcases List.mem_append.1 hx with hx | hx
    · exact ih hx
    · exact ⟨_, _, _, hr, hoffer, hcontents, List.mem_singleton.1 hx⟩

theorem offered_of_mem (h : Founded offer P s.recipes) {x : Selected} (hx : x ∈ s) :
    ∃ r found contents role, P r ∧ offer r = .ok found ∧ found.contents = .ok contents ∧
      x = ⟨r.name, Resolution.packageOf role contents, found.requires⟩ := by
  obtain ⟨r, found, contents, hr, hoffer, hcontents, e⟩ := h.offered (List.mem_map_of_mem hx)
  refine ⟨r, found, contents, x.package.role, hr, hoffer, hcontents, ?_⟩
  calc x = (x.inRole .requires).inRole x.package.role := rfl
    _ = (recipe r found contents).inRole x.package.role := by rw [e]

theorem met_before (h : Founded offer P s) {before after : Selection} {x : Selected}
    (hs : s = before ++ x :: after) : ∀ q ∈ x.requires, before.Meets q := by
  induction h generalizing after with
  | nil => simp at hs
  | push _ _ _ _ _ hmet ih =>
    -- `x` is the package pushed last, or the split lies in the selection before it
    rcases after.eq_nil_or_concat with rfl | ⟨after, y, rfl⟩
    · obtain ⟨rfl, e⟩ := List.append_inj' hs rfl
      cases e
      exact hmet
    · rw [List.concat_eq_append, ← List.cons_append, ← List.append_assoc] at hs
      exact ih (List.append_inj' hs rfl).1

theorem names_nodup_of_recipes (h : Founded offer P s.recipes) : s.names.Nodup :=
  names_recipes s ▸ h.names_nodup

/-- What a selected package requires is met. -/
theorem meets_of_requires (h : Founded offer P s.recipes) {x : Selected} (hx : x ∈ s) :
    ∀ q ∈ x.requires, s.Meets q := by
  intro q hq
  have hmem : x.inRole .requires ∈ s.recipes := List.mem_map_of_mem hx
  obtain ⟨before, after, hsplit⟩ := List.append_of_mem hmem
  obtain ⟨y, hy, hmeets⟩ := h.met_before hsplit q hq
  exact meets_recipes.1 ⟨y, hsplit ▸ List.mem_append_left _ hy, hmeets⟩

end Founded

end Selection

/-- What is offered for references with the property `P` is what they stand for, and requires
references with that property. -/
structure Honest (offer : Reference → Except ResolveError Offer) (P : Reference → Prop) : Prop where
  requires : ∀ {r found}, P r → offer r = .ok found → ∀ q ∈ found.requires, P q
  meets : ∀ {r found contents}, P r → offer r = .ok found → found.contents = .ok contents →
    (Selection.recipe r found contents).Meets r

theorem Selection.Founded.requires {offer : Reference → Except ResolveError Offer}
    {P : Reference → Prop} (honest : Honest offer P) {s : Selection}
    (hs : Founded offer P s.recipes) {x : Selected} (hx : x ∈ s) : ∀ q ∈ x.requires, P q := by
  obtain ⟨r, found, contents, role, hr, hoffer, -, rfl⟩ := hs.offered_of_mem hx
  exact honest.requires hr hoffer

namespace Resolution

variable {offer : Reference → Except ResolveError Offer} {role : Role} {trail : Trail}
  {s t : Selection} {rs : List Reference}

/-! ## What visits preserve -/

theorem recipes_push (s : Selection) (r : Reference) (found : Offer) (contents : Contents) :
    Selection.recipes (s ++ [⟨r.name, packageOf role contents, found.requires⟩]) =
      s.recipes ++ [Selection.recipe r found contents] :=
  List.map_append

namespace Visits

theorem recipes_grow (h : Visits offer role trail s rs t) : s.recipes <+: t.recipes := by
  induction h with
  | nil => exact List.prefix_refl _
  | settled _ _ _ _ ih => exact ih
  | promoted _ _ _ _ _ _ ihinner ihrest =>
    rw [Selection.recipes_promote] at ihinner
    exact ihinner.trans ihrest
  | selected _ _ _ _ _ _ ihinner ihrest =>
    rw [recipes_push] at ihrest
    exact ihinner.trans ((List.prefix_append _ _).trans ihrest)

/-- What holds of everything that is offered holds of everything that is selected, roles apart. -/
theorem forall_recipe {Q : Selected → Prop}
    (hoffered : ∀ r found contents, offer r = .ok found → found.contents = .ok contents →
      Q (Selection.recipe r found contents))
    (h : Visits offer role trail s rs t) (hs : ∀ x ∈ s.recipes, Q x) : ∀ x ∈ t.recipes, Q x := by
  induction h with
  | nil => exact hs
  | settled _ _ _ _ ih => exact ih hs
  | promoted _ _ _ _ _ _ ihinner ihrest =>
    rw [Selection.recipes_promote] at ihinner
    exact ihrest (ihinner hs)
  | selected _ _ hoffer _ hcontents _ ihinner ihrest =>
    rw [recipes_push, List.forall_mem_append, List.forall_mem_singleton] at ihrest
    exact ihrest ⟨ihinner hs, hoffered _ _ _ hoffer hcontents⟩

/-- Nothing on the trail is selected during a visit. -/
theorem not_mem_names (h : Visits offer role trail s rs t) :
    ∀ name ∈ trail.names, name ∉ s.names → name ∉ t.names := by
  induction h with
  | nil => exact fun _ _ hfresh => hfresh
  | settled _ _ _ _ ih => exact ih
  | promoted _ _ _ _ _ _ ihinner ihrest =>
    intro name hname hfresh
    refine ihrest name hname (ihinner name hname ?_)
    rwa [← Selection.names_recipes, Selection.recipes_promote, Selection.names_recipes]
  | selected _ henter _ _ _ _ ihinner ihrest =>
    intro name hname hfresh
    obtain ⟨hnew, hdeeper⟩ := Trail.names_enter? henter
    refine ihrest name hname ?_
    rw [Selection.names, List.map_append, List.mem_append, not_or]
    refine ⟨ihinner name (hdeeper ▸ List.mem_append_left _ hname) hfresh, fun hmem => ?_⟩
    obtain rfl : name = _ := by simpa using hmem
    exact hnew hname

/-- A package may be selected once all that it requires is. -/
theorem founded_push {P : Reference → Prop} {r : Reference} {found : Offer} {contents : Contents}
    {deeper : Trail} (h : Visits offer role deeper s found.requires t)
    (hfresh : s.get? r.name = none) (henter : trail.enter? r.name = some deeper)
    (hoffer : offer r = .ok found) (hcontents : found.contents = .ok contents) (hr : P r)
    (ht : Selection.Founded offer P t.recipes) (hmet : ∀ q ∈ found.requires, t.Meets q) :
    Selection.Founded offer P (Selection.recipes
      (t ++ [⟨r.name, packageOf role contents, found.requires⟩])) := by
  -- the name was on the trail while the requirements were visited, so it is still new
  have hnew := h.not_mem_names r.name (by simp [(Trail.names_enter? henter).2])
    (Selection.get?_eq_none_iff.1 hfresh)
  rw [recipes_push]
  exact ht.push (by simpa using hnew) hr hoffer hcontents
    fun q hq => Selection.meets_recipes.2 (hmet q hq)

/-- **Visits keep a selection founded**, and every visited reference is met afterwards. -/
theorem founded {P : Reference → Prop} (honest : Honest offer P)
    (h : Visits offer role trail s rs t) (hs : Selection.Founded offer P s.recipes)
    (hrs : ∀ r ∈ rs, P r) : Selection.Founded offer P t.recipes ∧ ∀ r ∈ rs, t.Meets r := by
  induction h with
  | nil => exact ⟨hs, fun r hr => nomatch hr⟩
  | settled hknown hagrees _ hrest ih =>
    obtain ⟨hmem, hname⟩ := Selection.mem_of_get? hknown
    obtain ⟨ht, hmet⟩ := ih hs fun r hr => hrs r (List.mem_cons_of_mem _ hr)
    refine ⟨ht, List.forall_mem_cons.2 ⟨?_, hmet⟩⟩
    exact Selection.Meets.mono hrest.recipes_grow ⟨_, hmem, hname, hagrees⟩
  | promoted hknown hagrees _ _ hinner hrest ihinner ihrest =>
    obtain ⟨hmem, hname⟩ := Selection.mem_of_get? hknown
    -- being founded is a matter of recipes, which a promotion leaves alone
    rw [Selection.recipes_promote] at ihinner
    obtain ⟨hu, -⟩ := ihinner hs (hs.requires honest hmem)
    obtain ⟨ht, hmet⟩ := ihrest hu fun r hr => hrs r (List.mem_cons_of_mem _ hr)
    refine ⟨ht, List.forall_mem_cons.2 ⟨?_, hmet⟩⟩
    have hgrows := hinner.recipes_grow
    rw [Selection.recipes_promote] at hgrows
    exact Selection.Meets.mono (hgrows.trans hrest.recipes_grow) ⟨_, hmem, hname, hagrees⟩
  | selected hfresh henter hoffer hinner hcontents hrest ihinner ihrest =>
    obtain ⟨hr, hrs⟩ := List.forall_mem_cons.1 hrs
    obtain ⟨hu, hrequired⟩ := ihinner hs (honest.requires hr hoffer)
    obtain ⟨ht, hmet⟩ := ihrest
      (hinner.founded_push hfresh henter hoffer hcontents hr hu hrequired) hrs
    refine ⟨ht, List.forall_mem_cons.2 ⟨?_, hmet⟩⟩
    refine Selection.Meets.mono hrest.recipes_grow (Selection.meets_recipes.1 ?_)
    rw [recipes_push]
    exact ⟨_, List.mem_append_right _ List.mem_cons_self, honest.meets hr hoffer hcontents⟩

end Visits

namespace Declares

variable {declarations : List Declaration}

theorem recipes_grow (h : Declares offer s declarations t) : s.recipes <+: t.recipes := by
  induction h with
  | nil => exact List.prefix_refl _
  | cons hvisits _ ih => exact hvisits.recipes_grow.trans ih

theorem forall_recipe {Q : Selected → Prop}
    (hoffered : ∀ r found contents, offer r = .ok found → found.contents = .ok contents →
      Q (Selection.recipe r found contents))
    (h : Declares offer s declarations t) (hs : ∀ x ∈ s.recipes, Q x) : ∀ x ∈ t.recipes, Q x := by
  induction h with
  | nil => exact hs
  | cons hvisits _ ih => exact ih (hvisits.forall_recipe hoffered hs)

/-- **Declarations lead to a founded selection** that meets them all. -/
theorem founded {P : Reference → Prop} (honest : Honest offer P)
    (h : Declares offer s declarations t) (hs : Selection.Founded offer P s.recipes)
    (hdeclared : ∀ d ∈ declarations, P d.reference) :
    Selection.Founded offer P t.recipes ∧ ∀ d ∈ declarations, t.Meets d.reference := by
  induction h with
  | nil => exact ⟨hs, fun d hd => nomatch hd⟩
  | cons hvisits hrest ih =>
    obtain ⟨hd, hdeclared⟩ := List.forall_mem_cons.1 hdeclared
    obtain ⟨hu, hmet⟩ := hvisits.founded honest hs (by simpa using hd)
    obtain ⟨ht, hmetrest⟩ := ih hu hdeclared
    refine ⟨ht, List.forall_mem_cons.2 ⟨?_, hmetrest⟩⟩
    exact (hmet _ List.mem_cons_self).mono hrest.recipes_grow

end Declares

end Resolution

end PackageTrial
