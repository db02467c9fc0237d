import PackageTrial.Proofs.Resolution.Selection

/-!
# Failures

`Fails offer role trail s rs e` says that visiting the references `rs` from the selection `s` fails
with the error `e`. Like `Visits` it has one case for each way in which this comes about, and a
visit fails exactly when such a course exists (`fails_of_visitAll`, `visitAll_of_fails`). References
that a founded selection meets are visited without failure (`Fails.not_met`), so no failure ever
comes from a promotion, and the trail of a failure is always a path of requirements.
-/

namespace PackageTrial

/-- A trail that cannot be entered holds the name already, or as many names as it may. -/
theorem Trail.of_enter?_eq_none {t : Trail} {name : String} (h : t.enter? name = none) :
    name ∈ t.names ∨ t.names.length = maxLength := by
  unfold enter? at h
  split at h
  · cases h
  · rename_i hclosed
    by_cases hmem : name ∈ t.names
    · exact .inl hmem
    · exact .inr (Nat.le_antisymm t.bounded (Nat.not_lt.1 fun hlt => hclosed ⟨hmem, hlt⟩))

namespace Resolution

variable {offer : Reference → Except ResolveError Offer} {role : Role}

/-- References are visited one after another, until one of them cannot be dealt with. -/
inductive Fails (offer : Reference → Except ResolveError Offer) (role : Role) :
    Trail → Selection → List Reference → ResolveError → Prop
  /-- The package is there, and is not the one that is asked for. -/
  | disagrees {trail : Trail} {s : Selection} {r : Reference} {rest : List Reference}
      {known : Selected} (hknown : s.get? r.name = some known)
      (hdisagrees : known.disagrees r = true) :
      Fails offer role trail s (r :: rest) (.conflict r.name known.package.reference r)
  /-- What a promoted package requires fails. -/
  | promoting {trail : Trail} {s : Selection} {r : Reference} {rest : List Reference}
      {known : Selected} {e : ResolveError} (hknown : s.get? r.name = some known)
      (hagrees : known.disagrees r = false) (hrole : role.propagates = true)
      (htest : known.isTestOnly = true)
      (hinner : Fails offer role trail (s.promote r.name role) known.requires e) :
      Fails offer role trail s (r :: rest) e
  /-- The trail leads in a circle or too deep. -/
  | stuck {trail : Trail} {s : Selection} {r : Reference} {rest : List Reference}
      (hfresh : s.get? r.name = none) (hstuck : trail.enter? r.name = none) :
      Fails offer role trail s (r :: rest) (.cycle (trail.names ++ [r.name]))
  /-- Nothing is offered. -/
  | refused {trail deeper : Trail} {s : Selection} {r : Reference} {rest : List Reference}
      {e : ResolveError} (hfresh : s.get? r.name = none)
      (henter : trail.enter? r.name = some deeper) (hoffer : offer r = .error e) :
      Fails offer role trail s (r :: rest) e
  /-- What the package requires fails. -/
  | requiring {trail deeper : Trail} {s : Selection} {r : Reference} {rest : List Reference}
      {found : Offer} {e : ResolveError} (hfresh : s.get? r.name = none)
      (henter : trail.enter? r.name = some deeper) (hoffer : offer r = .ok found)
      (hinner : Fails offer role deeper s found.requires e) :
      Fails offer role trail s (r :: rest) e
  /-- All that the package requires is there, but the package itself is spoilt. -/
  | spoilt {trail deeper : Trail} {s u : Selection} {r : Reference} {rest : List Reference}
      {found : Offer} {fault : ManifestFault} (hfresh : s.get? r.name = none)
      (henter : trail.enter? r.name = some deeper) (hoffer : offer r = .ok found)
      (hinner : Visits offer role deeper s found.requires u)
      (hcontents : found.contents = .error fault) :
      Fails offer role trail s (r :: rest) (.manifest r fault)
  /-- The first reference can be dealt with, a later one cannot. -/
  | later {trail : Trail} {s u : Selection} {r : Reference} {rest : List Reference}
      {e : ResolveError} (hfirst : Visits offer role trail s [r] u)
      (hrest : Fails offer role trail u rest e) : Fails offer role trail s (r :: rest) e

/-! ## A visit that fails -/

mutual

theorem fails_of_visit (trail : Trail) (done : Selection) (r : Reference) {e : ResolveError}
    (h : visit offer trail role done r = .error e) (rest : List Reference) :
    Fails offer role trail done (r :: rest) e := by
  rw [visit] at h
  split at h
  · rename_i known hknown
    split at h
    · rename_i hdisagrees
      cases h
      exact .disagrees hknown hdisagrees
    rename_i hagrees
    split at h
    · rename_i hpromotes
      split at h
      · rename_i e' he
        cases h
        have hlt := Selection.promotable_promote_lt hpromotes.1 hknown hpromotes.2
        exact .promoting hknown (by simpa using hagrees) hpromotes.1 hpromotes.2
          (fails_of_visitAll trail _ _ he)
      · cases h
    · cases h
  · rename_i hfresh
    split at h
    · rename_i hstuck
      cases h
      exact .stuck hfresh hstuck
    rename_i deeper henter
    split at h
    · rename_i e' hoffer
      cases h
      exact .refused hfresh henter hoffer
    rename_i found hoffer
    split at h
    · rename_i e' he
      cases h
      have hlt := Trail.room_enter?_lt henter
      exact .requiring hfresh henter hoffer (fails_of_visitAll deeper _ _ he)
    rename_i u hu
    split at h
    · rename_i fault hcontents
      cases h
      exact .spoilt hfresh henter hoffer (visits_of_visitAll deeper _ _ hu) hcontents
    · cases h
termination_by (trail.room, done.promotable role, 0)

theorem fails_of_visitAll (trail : Trail) (done : Selection) : (rs : List Reference) →
    {e : ResolveError} → visitAll offer trail role done rs = .error e →
    Fails offer role trail done rs e
  | [], _, h => by
    rw [visitAll] at h
    cases h
  | r :: rest, _, h => by
    rw [visitAll] at h
    split at h
    · rename_i e' he
      cases h
      exact fails_of_visit trail done r he rest
    rename_i u hu
    split at h
    · rename_i e' he
      cases h
      have hle := u.2
      have hfirst := visits_of_visit trail done r hu (.nil _ _)
      exact .later hfirst (fails_of_visitAll trail u.1 rest he)
    · cases h
termination_by rs => (trail.room, done.promotable role, rs.length + 1)
decreasing_by
  · exact rest_precedes (Nat.le_refl _) (by simp)
  · exact rest_precedes hle (by simp)

end

/-! ## Failures that come about -/

theorem visitAll_of_fails {trail : Trail} {s : Selection} {rs : List Reference} {e : ResolveError}
    (h : Fails offer role trail s rs e) : visitAll offer trail role s rs = .error e := by
  induction h with
  | disagrees hknown hdisagrees => rw [visitAll, visit_known hknown, if_pos hdisagrees]
  | promoting hknown hagrees hrole htest _ ih =>
    rw [visitAll, visit_known hknown, if_neg (by simp [hagrees]), dif_pos ⟨hrole, htest⟩, ih]
  | stuck hfresh hstuck => rw [visitAll, visit_stuck hfresh hstuck]
  | refused hfresh henter hoffer =>
    rw [visitAll, visit_entered hfresh henter]
    simp only [hoffer]
  | requiring hfresh henter hoffer _ ih =>
    rw [visitAll, visit_entered hfresh henter]
    simp only [hoffer, ih]
  | spoilt hfresh henter hoffer hinner hcontents =>
    obtain ⟨_, hu⟩ := visitAll_of_visits hinner
    rw [visitAll, visit_entered hfresh henter]
    simp only [hoffer, hu, hcontents]
  | later hfirst _ ih =>
    obtain ⟨_, hu⟩ := visit_of_visits hfirst
    rw [visitAll, hu]
    simp only [ih]

theorem visit_of_fails {trail : Trail} {s : Selection} {r : Reference} {e : ResolveError}
    (h : Fails offer role trail s [r] e) : visit offer trail role s r = .error e := by
  have hall := visitAll_of_fails h
  rw [visitAll] at hall
  split at hall
  · rename_i hr
    cases hall
    exact hr
  · rw [visitAll] at hall
    cases hall

/-! ## Declarations -/

theorem visitDeclarations_eq_error_iff {s : Selection} {declarations : List Declaration}
    {e : ResolveError} : visitDeclarations offer s declarations = .error e ↔
      ∃ front d rest t, declarations = front ++ d :: rest ∧ Declares offer s front t ∧
        Fails offer d.role .start t [d.reference] e := by
  induction declarations generalizing s with
  | nil => simp [visitDeclarations]
  | cons d rest ih =>
    rw [visitDeclarations, Outcome.bind_eq_error_iff]
    constructor
    · rintro (hd | ⟨u, hu, hrest⟩)
      · exact ⟨[], d, rest, s, rfl, .nil s, fails_of_visit .start s d.reference hd []⟩
      · obtain ⟨front, d', rest', t, rfl, hfront, hfails⟩ := ih.1 hrest
        have hvisits := visits_of_visit .start s d.reference hu (.nil _ _)
        exact ⟨d :: front, d', rest', t, rfl, .cons hvisits hfront, hfails⟩
    · rintro ⟨front, d', rest', t, hsplit, hfront, hfails⟩
      cases hfront with
      | nil =>
        cases hsplit
        exact .inl (visit_of_fails hfails)
      | cons hvisits hfront =>
        cases hsplit
        obtain ⟨_, hu⟩ := visit_of_visits hvisits
        exact .inr ⟨_, hu, ih.2 ⟨_, _, _, _, rfl, hfront, hfails⟩⟩

theorem resolve_eq_error_iff {declarations : List Declaration} {e : ResolveError} :
    resolve offer declarations = .error e ↔
      ∃ front d rest s, declarations = front ++ d :: rest ∧ Declares offer [] front s ∧
        Fails offer d.role .start s [d.reference] e := by
  rw [← visitDeclarations_eq_error_iff, resolve, Outcome.bind_eq_error_iff]
  simp [pure, Except.pure]

/-! ## Where failures do not come from -/

/-- **What a founded selection meets is visited without failure.** -/
theorem Fails.not_met {P : Reference → Prop} (honest : Honest offer P) {trail : Trail}
    {s : Selection} {rs : List Reference} {e : ResolveError}
    (h : Fails offer role trail s rs e) (hs : Selection.Founded offer P s.recipes)
    (hrs : ∀ r ∈ rs, P r) : ¬ ∀ r ∈ rs, s.Meets r := by
  intro hmet
  induction h with
  | disagrees hknown hdisagrees =>
    have hmeets := (hmet _ List.mem_cons_self).of_get? hs.names_nodup_of_recipes hknown
    cases hmeets.2.symm.trans hdisagrees
  | promoting hknown _ _ _ _ ih =>
    -- a promotion leaves alone what is met, and what a selected package requires is met
    obtain ⟨hmem, -⟩ := Selection.mem_of_get? hknown
    rw [Selection.recipes_promote] at ih
    exact ih hs (hs.requires honest hmem)
      fun q hq => Selection.meets_promote.2 (hs.meets_of_requires hmem q hq)
  | stuck hfresh | refused hfresh | requiring hfresh | spoilt hfresh =>
    exact Selection.get?_eq_none_iff.1 hfresh (hmet _ List.mem_cons_self).mem_names
  | later hfirst _ ih =>
    obtain ⟨hr, hrest⟩ := List.forall_mem_cons.1 hrs
    obtain ⟨hu, -⟩ := hfirst.founded honest hs (by simpa using hr)
    exact ih hu hrest fun q hq => (hmet q (List.mem_cons_of_mem _ hq)).mono hfirst.recipes_grow

end Resolution

end PackageTrial
