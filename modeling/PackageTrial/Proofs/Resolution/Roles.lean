import PackageTrial.Proofs.Resolution.Selection

/-!
# Roles

A package is selected regularly when its role is `requires`. Visits in that role leave every visited
reference and all that it leads to regular; during a promotion this fails for the packages whose
requirements are still to be visited, so the invariant excepts pending names
(`Selection.ClosedExcept`). Conversely a package is regular only if a regular declaration led to it
(`Visits.regularOnly`).
-/

namespace PackageTrial

theorem Role.propagates_iff {role : Role} : role.propagates = true ↔ role = .requires := by
  simp [Role.propagates]

theorem Selected.isTestOnly_eq_false_iff {x : Selected} :
    x.isTestOnly = false ↔ x.package.role = .requires := by
  simp [Selected.isTestOnly, Role.propagates]

namespace Selection

/-- The package of a name is selected regularly. -/
def Regular (s : Selection) (name : String) : Prop :=
  ∃ x ∈ s, x.name = name ∧ x.package.role = .requires

/-- What regular packages require is regular, but for packages of pending names. -/
def ClosedExcept (pending : List String) (s : Selection) : Prop :=
  ∀ x ∈ s, x.package.role = .requires → x.name ∉ pending → ∀ q ∈ x.requires, s.Regular q.name

theorem Regular.append {s : Selection} {name : String} (h : s.Regular name) (t : Selection) :
    Regular (s ++ t) name := by
  obtain ⟨x, hx, hname, hrole⟩ := h
  exact ⟨x, List.mem_append_left _ hx, hname, hrole⟩

theorem Regular.promote {s : Selection} {name : String} (h : s.Regular name) (n : String) :
    (s.promote n .requires).Regular name := by
  obtain ⟨x, hx, hname, hrole⟩ := h
  refine ⟨_, List.mem_map_of_mem hx, ?_⟩
  split
  · exact ⟨hname, rfl⟩
  · exact ⟨hname, hrole⟩

/-- A package after a promotion was there before under another name, or has been promoted. -/
theorem of_mem_promote {s : Selection} {name : String} {y : Selected}
    (hy : y ∈ s.promote name .requires) :
    y ∈ s ∧ y.name ≠ name ∨ ∃ x ∈ s, x.name = name ∧ y = x.inRole .requires := by
  obtain ⟨x, hx, rfl⟩ := List.mem_map.1 hy
  split
  · rename_i hname
    exact .inr ⟨x, hx, hname, rfl⟩
  · rename_i hname
    exact .inl ⟨hx, hname⟩

theorem mem_promote {s : Selection} {x : Selected} (hx : x ∈ s) (role : Role) :
    x.inRole role ∈ s.promote x.name role :=
  List.mem_map.2 ⟨x, hx, if_pos rfl⟩

namespace ClosedExcept

variable {s : Selection} {pending : List String} {name : String}

/-- A promotion leaves a name pending. -/
theorem promote (h : s.ClosedExcept pending) (name : String) :
    (s.promote name .requires).ClosedExcept (name :: pending) := by
  intro x hx hregular hpending q hq
  rw [List.mem_cons, not_or] at hpending
  rcases of_mem_promote hx with ⟨hx, -⟩ | ⟨y, -, hy, rfl⟩
  · exact (h x hx hregular hpending.2 q hq).promote _
  · exact absurd hy hpending.1

/-- A name is no longer pending once the requirements of its package are regular. -/
theorem settle (h : s.ClosedExcept (name :: pending))
    (hrequired : ∀ x ∈ s, x.name = name → ∀ q ∈ x.requires, s.Regular q.name) :
    s.ClosedExcept pending := by
  intro x hx hregular hpending q hq
  by_cases hname : x.name = name
  · exact hrequired x hx hname q hq
  · exact h x hx hregular (by simp [hname, hpending]) q hq

theorem push (h : s.ClosedExcept pending) {x : Selected}
    (hrequired : x.package.role = .requires → ∀ q ∈ x.requires, s.Regular q.name) :
    ClosedExcept pending (s ++ [x]) := by
  intro y hy hregular hpending q hq
  rcases List.mem_append.1 hy with hy | hy
  · exact (h y hy hregular hpending q hq).append _
  · obtain rfl := List.mem_singleton.1 hy
    exact (hrequired hregular q hq).append _

end ClosedExcept

end Selection

namespace Resolution

variable {offer : Reference → Except ResolveError Offer} {role : Role} {trail : Trail}
  {s t : Selection} {rs : List Reference}

/-! ## What regular packages require is regular -/

namespace Visits

theorem regular_mono (h : Visits offer role trail s rs t) {name : String} (hs : s.Regular name) :
    t.Regular name := by
  induction h with
  | nil => exact hs
  | settled _ _ _ _ ih => exact ih hs
  | promoted _ _ hrole _ _ _ ihinner ihrest =>
    obtain rfl := Role.propagates_iff.1 hrole
    exact ihrest (ihinner (hs.promote _))
  | selected _ _ _ _ _ _ ihinner ihrest => exact ihrest ((ihinner hs).append _)

theorem names_nodup (h : Visits offer role trail s rs t) (ht : t.names.Nodup) :
    s.names.Nodup :=
  Selection.nodup_of_recipes h.recipes_grow ht

/-- A package keeps its requirements. -/
theorem requires_eq (h : Visits offer role trail s rs t) (ht : t.names.Nodup) {x y : Selected}
    (hx : x ∈ s) (hy : y ∈ t) (hname : y.name = x.name) : y.requires = x.requires := by
  rw [← Selection.names_recipes] at ht
  have hx' := h.recipes_grow.subset (List.mem_map_of_mem (f := (·.inRole .requires)) hx)
  have e := Selection.eq_of_name_eq ht (List.mem_map_of_mem hy) hx' hname
  have hrequires := congrArg Selected.requires e
  exact hrequires

/-- **Visits keep the requirements of regular packages regular**, but for pending names, and a
regular visit makes what it visits regular. -/
theorem closedExcept (h : Visits offer role trail s rs t) (ht : t.names.Nodup)
    {pending : List String} (hs : s.ClosedExcept pending) :
    t.ClosedExcept pending ∧ (role = .requires → ∀ r ∈ rs, t.Regular r.name) := by
  induction h generalizing pending with
  | nil => exact ⟨hs, fun _ r hr => nomatch hr⟩
  | settled hknown _ hsettled hrest ih =>
    obtain ⟨hclosed, hregular⟩ := ih ht hs
    refine ⟨hclosed, fun hrole => List.forall_mem_cons.2 ⟨?_, hregular hrole⟩⟩
    obtain ⟨hmem, hname⟩ := Selection.mem_of_get? hknown
    rw [hrole, not_and, Bool.not_eq_true] at hsettled
    exact hrest.regular_mono ⟨_, hmem, hname, Selected.isTestOnly_eq_false_iff.1 (hsettled rfl)⟩
  | @promoted trail s u t r rest known hknown _ hrole _ hinner hrest ihinner ihrest =>
    obtain rfl := Role.propagates_iff.1 hrole
    obtain ⟨hmem, hname⟩ := Selection.mem_of_get? hknown
    have hknown' := hname ▸ Selection.mem_promote hmem .requires
    -- the package is regular already, what it requires is not
    obtain ⟨hu, hrequired⟩ := ihinner (hrest.names_nodup ht) (hs.promote r.name)
    have hu' := hu.settle fun x hx hxr q hq => by
      rw [hinner.requires_eq (hrest.names_nodup ht) hknown' hx (hxr.trans hname.symm)] at hq
      exact hrequired rfl q hq
    obtain ⟨hclosed, hregular⟩ := ihrest ht hu'
    refine ⟨hclosed, fun hrole => List.forall_mem_cons.2 ⟨?_, hregular hrole⟩⟩
    exact hrest.regular_mono (hinner.regular_mono ⟨_, hknown', hname, rfl⟩)
  | @selected trail deeper s u t r rest found contents _ _ _ hinner _ hrest ihinner ihrest =>
    have hnodup := hrest.names_nodup ht
    rw [Selection.names, List.map_append] at hnodup
    obtain ⟨hu, hrequired⟩ := ihinner hnodup.of_append_left hs
    have hpush := hu.push (x := ⟨r.name, packageOf role contents, found.requires⟩) hrequired
    obtain ⟨hclosed, hregular⟩ := ihrest ht hpush
    refine ⟨hclosed, fun hrole => List.forall_mem_cons.2 ⟨?_, hregular hrole⟩⟩
    exact hrest.regular_mono ⟨_, List.mem_append_right _ List.mem_cons_self, rfl, hrole⟩

end Visits

/-! ## Regular packages are required regularly -/

/-- A property of references that passes on to what is required, whatever the revision. -/
def Inherited (offer : Reference → Except ResolveError Offer) (P Q : Reference → Prop) : Prop :=
  ∀ {p r found}, P p → offer p = .ok found → p.withoutRevision = r.withoutRevision → Q r →
    ∀ q ∈ found.requires, Q q

/-- Every regular package meets a reference with the property `Q`. -/
def RegularOnly (Q : Reference → Prop) (s : Selection) : Prop :=
  ∀ x ∈ s, x.package.role = .requires → ∃ r, Q r ∧ x.Meets r

variable {P Q : Reference → Prop}

theorem RegularOnly.promote (h : RegularOnly Q s) (hs : s.names.Nodup) {x : Selected}
    (hx : x ∈ s) {r : Reference} (hmeets : x.Meets r) (hr : Q r) :
    RegularOnly Q (s.promote r.name .requires) := by
  intro y hy hrole
  rcases Selection.of_mem_promote hy with ⟨hy, -⟩ | ⟨z, hz, hname, rfl⟩
  · exact h y hy hrole
  · rw [Selection.eq_of_name_eq hs hz hx (hname.trans hmeets.1.symm)]
    exact ⟨r, hr, hmeets⟩

theorem RegularOnly.push (h : RegularOnly Q s) {x : Selected}
    (hx : x.package.role = .requires → ∃ r, Q r ∧ x.Meets r) : RegularOnly Q (s ++ [x]) := by
  intro y hy hrole
  rcases List.mem_append.1 hy with hy | hy
  · exact h y hy hrole
  · obtain rfl := List.mem_singleton.1 hy
    exact hx hrole

/-- What a selected package requires inherits from the references that the package meets. -/
theorem inherits_of_meets (honest : Honest offer P) (hQ : Inherited offer P Q)
    (hs : Selection.Founded offer P s.recipes) {x : Selected} (hx : x ∈ s) {r : Reference}
    (hmeets : x.Meets r) (hr : Q r) : ∀ q ∈ x.requires, Q q := by
  obtain ⟨p, found, contents, role, hp, hoffer, hcontents, rfl⟩ := hs.offered_of_mem hx
  have hsame := (honest.meets hp hoffer hcontents).withoutRevision_eq
  exact hQ hp hoffer (hsame.symm.trans hmeets.withoutRevision_eq) hr

/-- **A visit makes a package regular only where something regular stands for it.** -/
theorem Visits.regularOnly (honest : Honest offer P) (hQ : Inherited offer P Q)
    (h : Visits offer role trail s rs t) (hs : Selection.Founded offer P s.recipes)
    (hrs : ∀ r ∈ rs, P r) (hregular : role = .requires → ∀ r ∈ rs, Q r)
    (honly : RegularOnly Q s) : RegularOnly Q t := by
  induction h with
  | nil => exact honly
  | settled _ _ _ _ ih =>
    exact ih hs (List.forall_mem_cons.1 hrs).2
      (fun hrole => (List.forall_mem_cons.1 (hregular hrole)).2) honly
  | promoted hknown hagrees hrole _ hinner _ ihinner ihrest =>
    obtain rfl := Role.propagates_iff.1 hrole
    obtain ⟨hr, hrest⟩ := List.forall_mem_cons.1 (hregular rfl)
    obtain ⟨hmem, hname⟩ := Selection.mem_of_get? hknown
    have hmeets : Selected.Meets _ _ := ⟨hname, hagrees⟩
    rw [Selection.recipes_promote] at ihinner
    have hrequires := hs.requires honest hmem
    obtain ⟨hu, -⟩ := hinner.founded honest (by rwa [Selection.recipes_promote]) hrequires
    refine ihrest hu (List.forall_mem_cons.1 hrs).2 (fun _ => hrest) (ihinner hs hrequires
      (fun _ => inherits_of_meets honest hQ hs hmem hmeets hr) ?_)
    exact honly.promote (Selection.names_recipes _ ▸ hs.names_nodup) hmem hmeets hr
  | selected hfresh henter hoffer hinner hcontents _ ihinner ihrest =>
    obtain ⟨hr, hrs⟩ := List.forall_mem_cons.1 hrs
    have hrequires := honest.requires hr hoffer
    obtain ⟨hu, hmet⟩ := hinner.founded honest hs hrequires
    have honly' := ihinner hs hrequires
      (fun hrole => hQ hr hoffer rfl (hregular hrole _ List.mem_cons_self)) honly
    refine ihrest (hinner.founded_push hfresh henter hoffer hcontents hr hu hmet) hrs
      (fun hrole => (List.forall_mem_cons.1 (hregular hrole)).2) (honly'.push fun hrole => ?_)
    exact ⟨_, hregular hrole _ List.mem_cons_self, honest.meets hr hoffer hcontents⟩

/-! ## Declarations -/

namespace Declares

variable {declarations : List Declaration}

theorem regular_mono (h : Declares offer s declarations t) {name : String}
    (hs : s.Regular name) : t.Regular name := by
  induction h with
  | nil => exact hs
  | cons hvisits _ ih => exact ih (hvisits.regular_mono hs)

theorem names_nodup (h : Declares offer s declarations t) (ht : t.names.Nodup) :
    s.names.Nodup :=
  Selection.nodup_of_recipes h.recipes_grow ht

/-- **What regular packages require is regular**, and so is what is declared regularly. -/
theorem closed (h : Declares offer s declarations t) (ht : t.names.Nodup)
    (hs : s.ClosedExcept []) :
    t.ClosedExcept [] ∧
      ∀ d ∈ declarations, d.role = .requires → t.Regular d.reference.name := by
  induction h with
  | nil => exact ⟨hs, fun d hd => nomatch hd⟩
  | cons hvisits hrest ih =>
    obtain ⟨hu, hregular⟩ := hvisits.closedExcept (hrest.names_nodup ht) hs
    obtain ⟨hclosed, hregularrest⟩ := ih ht hu
    refine ⟨hclosed, List.forall_mem_cons.2 ⟨fun hrole => ?_, hregularrest⟩⟩
    exact hrest.regular_mono (hregular hrole _ List.mem_cons_self)

/-- **A regular package meets what is required regularly.** -/
theorem regularOnly (honest : Honest offer P) (hQ : Inherited offer P Q)
    (h : Declares offer s declarations t) (hs : Selection.Founded offer P s.recipes)
    (hdeclared : ∀ d ∈ declarations, P d.reference)
    (hregular : ∀ d ∈ declarations, d.role = .requires → Q d.reference)
    (honly : RegularOnly Q s) : RegularOnly Q t := by
  induction h with
  | nil => exact honly
  | cons hvisits _ ih =>
    obtain ⟨hd, hdeclared⟩ := List.forall_mem_cons.1 hdeclared
    obtain ⟨hdregular, hregular⟩ := List.forall_mem_cons.1 hregular
    have hd' := List.forall_mem_singleton.2 hd
    exact ih (hvisits.founded honest hs hd').1 hdeclared hregular
      (hvisits.regularOnly honest hQ hs hd'
        (fun hrole => List.forall_mem_singleton.2 (hdregular hrole)) honly)

end Declares

end Resolution

end PackageTrial
