import PackageTrial.Proofs.Outcome
import PackageTrial.Resolution

/-!
# Visits

`Visits offer role trail s rs t` says that visiting the references `rs` leads from the selection `s`
to the selection `t`. It has one case for each way in which a reference is dealt with, and follows
neither the measure nor the failures of `visit`: a visit succeeds exactly when such a course exists
(`visits_of_visitAll`, `visitAll_of_visits`). What visiting preserves is proved by induction on it.
-/

namespace PackageTrial

theorem Trail.names_enter? {t t' : Trail} {name : String} (h : t.enter? name = some t') :
    name ∉ t.names ∧ t'.names = t.names ++ [name] := by
  unfold enter? at h
  split at h
  · rename_i hc
    cases h
    exact ⟨hc.1, rfl⟩
  · cases h

namespace Resolution

variable {offer : Reference → Except ResolveError Offer} {role : Role}

/-- References are visited one after another, which leads from one selection to another. -/
inductive Visits (offer : Reference → Except ResolveError Offer) (role : Role) :
    Trail → Selection → List Reference → Selection → Prop
  | nil (trail : Trail) (s : Selection) : Visits offer role trail s [] s
  /-- The package is there, in a role that will do. -/
  | settled {trail : Trail} {s t : Selection} {r : Reference} {rest : List Reference}
      {known : Selected} (hknown : s.get? r.name = some known)
      (hagrees : known.disagrees r = false)
      (hsettled : ¬ (role.propagates = true ∧ known.isTestOnly = true))
      (hrest : Visits offer role trail s rest t) : Visits offer role trail s (r :: rest) t
  /-- The package is there for the test alone, and is promoted with all that it requires. -/
  | promoted {trail : Trail} {s u t : Selection} {r : Reference} {rest : List Reference}
      {known : Selected} (hknown : s.get? r.name = some known)
      (hagrees : known.disagrees r = false) (hrole : role.propagates = true)
      (htest : known.isTestOnly = true)
      (hinner : Visits offer role trail (s.promote r.name role) known.requires u)
      (hrest : Visits offer role trail u rest t) : Visits offer role trail s (r :: rest) t
  /-- The package is selected, after all that it requires. -/
  | selected {trail deeper : Trail} {s u t : Selection} {r : Reference} {rest : List Reference}
      {found : Offer} {contents : Contents} (hfresh : s.get? r.name = none)
      (henter : trail.enter? r.name = some deeper) (hoffer : offer r = .ok found)
      (hinner : Visits offer role deeper s found.requires u)
      (hcontents : found.contents = .ok contents)
      (hrest : Visits offer role trail (u ++ [⟨r.name, packageOf role contents, found.requires⟩])
        rest t) : Visits offer role trail s (r :: rest) t

/-! ## A visit that succeeds -/

/-- Visits end because each leads to one with less room, else with fewer packages to promote, else
with fewer references; this is the last case, in which packages may have been promoted too. -/
theorem rest_precedes {room before after longer shorter : Nat} (hle : after ≤ before)
    (hlt : shorter < longer) : Prod.Lex (· < ·) (Prod.Lex (· < ·) (· < ·))
      (room, after, shorter) (room, before, longer) := by
  rcases Nat.lt_or_eq_of_le hle with h | rfl
  · exact .right _ (.left _ _ h)
  · exact .right _ (.right _ hlt)

mutual

theorem visits_of_visit (trail : Trail) (done : Selection) (r : Reference)
    {s : Extension role done} (h : visit offer trail role done r = .ok s) {rest : List Reference}
    {t : Selection} (hrest : Visits offer role trail s.1 rest t) :
    Visits offer role trail done (r :: rest) t := by
  rw [visit] at h
  split at h
  · rename_i known hknown
    split at h
    · cases h
    rename_i hagrees
    split at h
    · rename_i hpromotes
      split at h
      · cases h
      rename_i u hu
      cases h
      have hlt := Selection.promotable_promote_lt hpromotes.1 hknown hpromotes.2
      exact .promoted hknown (by simpa using hagrees) hpromotes.1 hpromotes.2
        (visits_of_visitAll trail _ _ hu) hrest
    · rename_i hsettled
      cases h
      exact .settled hknown (by simpa using hagrees) hsettled hrest
  · rename_i hfresh
    split at h
    · cases h
    rename_i deeper henter
    split at h
    · cases h
    rename_i found hoffer
    split at h
    · cases h
    rename_i u hu
    split at h
    · cases h
    rename_i contents hcontents
    cases h
    have hlt := Trail.room_enter?_lt henter
    exact .selected hfresh henter hoffer (visits_of_visitAll deeper _ _ hu) hcontents hrest
termination_by (trail.room, done.promotable role, 0)

theorem visits_of_visitAll (trail : Trail) (done : Selection) : (rs : List Reference) →
    {s : Extension role done} → visitAll offer trail role done rs = .ok s →
    Visits offer role trail done rs s.1
  | [], _, h => by
    rw [visitAll] at h
    cases h
    exact .nil _ _
  | r :: rest, _, h => by
    rw [visitAll] at h
    split at h
    · cases h
    rename_i u hu
    split at h
    · cases h
    rename_i t ht
    cases h
    have hle := u.2
    exact visits_of_visit trail done r hu (visits_of_visitAll trail u.1 rest ht)
termination_by rs => (trail.room, done.promotable role, rs.length + 1)
decreasing_by
  · exact rest_precedes hle (by simp)
  · exact rest_precedes (Nat.le_refl _) (by simp)

end

/-! ## What a visit does -/

theorem visit_known {trail : Trail} {s : Selection} {r : Reference} {known : Selected}
    (hknown : s.get? r.name = some known) : visit offer trail role s r =
      if known.disagrees r then .error (.conflict r.name known.package.reference r)
      else if hp : role.propagates = true ∧ known.isTestOnly = true then
        match visitAll offer trail role (s.promote r.name role) known.requires with
        | .error e => .error e
        | .ok u => .ok ⟨u.1, Nat.le_trans u.2
            (Nat.le_of_lt (Selection.promotable_promote_lt hp.1 hknown hp.2))⟩
      else .ok ⟨s, Nat.le_refl _⟩ := by
  rw [visit]
  split
  · rename_i x hx
    cases hknown.symm.trans hx
    rfl
  · rename_i hx
    cases hknown.symm.trans hx

theorem visit_stuck {trail : Trail} {s : Selection} {r : Reference}
    (hfresh : s.get? r.name = none) (hstuck : trail.enter? r.name = none) :
    visit offer trail role s r = .error (.cycle (trail.names ++ [r.name])) := by
  rw [visit]
  split
  · rename_i hx
    cases hfresh.symm.trans hx
  · split
    · rfl
    · rename_i hx
      cases hstuck.symm.trans hx

theorem visit_entered {trail deeper : Trail} {s : Selection} {r : Reference}
    (hfresh : s.get? r.name = none) (henter : trail.enter? r.name = some deeper) :
    visit offer trail role s r =
      match offer r with
      | .error e => .error e
      | .ok found =>
        match visitAll offer deeper role s found.requires with
        | .error e => .error e
        | .ok u =>
          match found.contents with
          | .error fault => .error (.manifest r fault)
          | .ok contents => .ok ⟨u.1 ++ [⟨r.name, packageOf role contents, found.requires⟩],
              Nat.le_trans (Selection.promotable_push_le role u.1 rfl) u.2⟩ := by
  rw [visit]
  split
  · rename_i hx
    cases hfresh.symm.trans hx
  · split
    · rename_i hx
      cases henter.symm.trans hx
    · rename_i hx
      cases henter.symm.trans hx
      rfl

/-! ## Visits that are made -/

theorem visitAll_of_visits {trail : Trail} {s t : Selection} {rs : List Reference}
    (h : Visits offer role trail s rs t) :
    ∃ hle, visitAll offer trail role s rs = .ok ⟨t, hle⟩ := by
  induction h with
  | nil trail s =>
    rw [visitAll]
    exact ⟨_, rfl⟩
  | settled hknown hagrees hsettled _ ih =>
    obtain ⟨hle, hrest⟩ := ih
    rw [visitAll, visit_known hknown, if_neg (by simp [hagrees]), dif_neg hsettled]
    simp only [hrest]
    exact ⟨hle, trivial⟩
  | promoted hknown hagrees hrole htest _ _ ihinner ihrest =>
    obtain ⟨hu, hinner⟩ := ihinner
    obtain ⟨hle, hrest⟩ := ihrest
    have hlt := Selection.promotable_promote_lt hrole hknown htest
    rw [visitAll, visit_known hknown, if_neg (by simp [hagrees]), dif_pos ⟨hrole, htest⟩, hinner]
    simp only [hrest]
    exact ⟨by omega, trivial⟩
  | selected hfresh henter hoffer _ hcontents _ ihinner ihrest =>
    obtain ⟨hu, hinner⟩ := ihinner
    obtain ⟨hle, hrest⟩ := ihrest
    rw [visitAll, visit_entered hfresh henter]
    simp only [hoffer, hinner, hcontents, hrest]
    exact ⟨Nat.le_trans hle (Nat.le_trans (Selection.promotable_push_le role _ rfl) hu), trivial⟩

theorem visit_of_visits {trail : Trail} {s t : Selection} {r : Reference}
    (h : Visits offer role trail s [r] t) : ∃ hle, visit offer trail role s r = .ok ⟨t, hle⟩ := by
  obtain ⟨_, hall⟩ := visitAll_of_visits h
  rw [visitAll] at hall
  split at hall
  · cases hall
  rename_i u hu
  rw [visitAll] at hall
  cases hall
  exact ⟨u.2, hu⟩

/-! ## Declarations -/

/-- Declarations are visited one after another, each from the start. -/
inductive Declares (offer : Reference → Except ResolveError Offer) :
    Selection → List Declaration → Selection → Prop
  | nil (s : Selection) : Declares offer s [] s
  | cons {s u t : Selection} {d : Declaration} {rest : List Declaration}
      (hvisits : Visits offer d.role .start s [d.reference] u) (hrest : Declares offer u rest t) :
      Declares offer s (d :: rest) t

theorem visitDeclarations_eq_ok_iff {s t : Selection} {declarations : List Declaration} :
    visitDeclarations offer s declarations = .ok t ↔ Declares offer s declarations t := by
  induction declarations generalizing s with
  | nil =>
    rw [visitDeclarations]
    constructor
    · rintro ⟨⟩
      exact .nil _
    · rintro ⟨⟩
      rfl
  | cons d rest ih =>
    rw [visitDeclarations, Outcome.bind_eq_ok_iff]
    constructor
    · rintro ⟨u, hu, hrest⟩
      exact .cons (visits_of_visit .start s d.reference hu (.nil _ _)) (ih.1 hrest)
    · intro h
      cases h with
      | cons hvisits hrest =>
        obtain ⟨_, hvisit⟩ := visit_of_visits hvisits
        exact ⟨_, hvisit, ih.2 hrest⟩

theorem resolve_eq_ok_iff {declarations : List Declaration} {graph : Graph} :
    resolve offer declarations = .ok graph ↔
      ∃ t, Declares offer [] declarations t ∧ t.graph = graph := by
  simp only [← visitDeclarations_eq_ok_iff]
  exact Outcome.map_eq_ok_iff

end Resolution

end PackageTrial
