import PackageTrial.Proofs.Resolution.Failures
import PackageTrial.Repository

/-!
# The walk step by step

A visit told as a machine: a state of the walk (`Walk`) holds the stack of the names that are being
visited, the selection and what remains to be done, and a step deals with the next task. Nothing
about the stack is promised by its type; that it holds no name twice and at most as many as a trail
may is an invariant of the steps, and so is that its names are those of the packages that remain to
be selected (`Walk.Sound`). A walk leads from the beginning of a visit to its end, where the stack
is what it was, or to the error with which the visit fails (`Walk.leads_visit`), by the courses that
visits take (`Visits`, `Fails`). So every walk ends (`Repository.walk_ends`).
-/

namespace PackageTrial

namespace Trail

variable {t t' : Trail} {name : String}

theorem open_of_enter? (h : t.enter? name = some t') :
    ¬ (name ∈ t.names ∨ maxLength ≤ t.names.length) := by
  obtain ⟨hnew, hnames⟩ := names_enter? h
  have hbounded := t'.bounded
  rw [hnames, List.length_append, List.length_singleton] at hbounded
  exact not_or.2 ⟨hnew, Nat.not_le.2 hbounded⟩

theorem closed_of_enter?_eq_none (h : t.enter? name = none) :
    name ∈ t.names ∨ maxLength ≤ t.names.length :=
  (of_enter?_eq_none h).imp_right fun hfull => Nat.le_of_eq hfull.symm

end Trail

namespace Resolution

/-- What remains to be done in a walk. -/
inductive Task
  /-- A reference is to be visited. -/
  | visit (role : Role) (reference : Reference)
  /-- A package is to be selected, once all that it requires has been visited. -/
  | select (role : Role) (reference : Reference) (found : Offer)

/-- The names of the packages that tasks leave to be selected. What was opened first is selected
last, so its name stands in front. -/
def Task.opened (tasks : List Task) : List String :=
  (tasks.filterMap fun
    | .visit _ _ => none
    | .select _ reference _ => some reference.name).reverse

@[simp] theorem Task.opened_visit (role : Role) (r : Reference) (rest : List Task) :
    opened (.visit role r :: rest) = opened rest := rfl

@[simp] theorem Task.opened_select (role : Role) (r : Reference) (found : Offer)
    (rest : List Task) : opened (.select role r found :: rest) = opened rest ++ [r.name] :=
  List.reverse_cons

@[simp] theorem Task.opened_visits (role : Role) (rs : List Reference) (rest : List Task) :
    opened (rs.map (.visit role) ++ rest) = opened rest := by
  induction rs with
  | nil => rfl
  | cons r rs ih => exact ih

/-- A state of a walk. -/
structure Walk where
  /-- The names of the packages that are being visited, from the first. -/
  stack : List String
  done : Selection
  /-- What remains to be done, the next task first. -/
  agenda : List Task

namespace Walk

variable (offer : Reference → Except ResolveError Offer)

/-- Deals with the next task. A walk without tasks stays where it is. -/
def step (w : Walk) : Except ResolveError Walk :=
  match w.agenda with
  | [] => .ok w
  | .visit role r :: rest =>
    match w.done.get? r.name with
    | some known =>
      if known.disagrees r then .error (.conflict r.name known.package.reference r)
      else if role.propagates = true ∧ known.isTestOnly = true then
        .ok ⟨w.stack, w.done.promote r.name role, known.requires.map (.visit role) ++ rest⟩
      else .ok ⟨w.stack, w.done, rest⟩
    | none =>
      if r.name ∈ w.stack ∨ Trail.maxLength ≤ w.stack.length then
        .error (.cycle (w.stack ++ [r.name]))
      else match offer r with
        | .error e => .error e
        | .ok found => .ok ⟨w.stack ++ [r.name], w.done,
            found.requires.map (.visit role) ++ .select role r found :: rest⟩
  | .select role r found :: rest =>
    match found.contents with
    | .error fault => .error (.manifest r fault)
    | .ok contents => .ok ⟨w.stack.dropLast,
        w.done ++ [⟨r.name, packageOf role contents, found.requires⟩], rest⟩

/-- Makes a number of steps, or fails on the way. -/
def run : Nat → Walk → Except ResolveError Walk
  | 0, w => .ok w
  | n + 1, w => w.step offer >>= run n

/-- The walk through declarations, before its first step. -/
def start (declarations : List Declaration) : Walk :=
  ⟨[], [], declarations.map fun d => .visit d.role d.reference⟩

/-! ## What steps preserve -/

/-- The stack holds no name twice and no more names than a trail may, and they are the names of the
packages that remain to be selected. -/
structure Sound (w : Walk) : Prop where
  nodup : w.stack.Nodup
  bounded : w.stack.length ≤ Trail.maxLength
  opened : w.stack = Task.opened w.agenda

variable {offer}

theorem sound_start (declarations : List Declaration) : (start declarations).Sound := by
  refine ⟨List.nodup_nil, Nat.zero_le _, ?_⟩
  induction declarations with
  | nil => rfl
  | cons d declarations ih => exact ih

/-- **A step keeps the stack sound.** -/
theorem Sound.step {w w' : Walk} (hw : w.Sound) (h : w.step offer = .ok w') : w'.Sound := by
  obtain ⟨stack, done, agenda⟩ := w
  obtain ⟨hnodup, hbounded, hopened⟩ := hw
  dsimp only at hnodup hbounded hopened
  unfold Walk.step at h
  dsimp only at h
  split at h
  · cases h
    exact ⟨hnodup, hbounded, hopened⟩
  · rename_i role r rest
    rw [Task.opened_visit] at hopened
    split at h
    · -- The package is there: the stack stays as it is, and nothing is opened.
      split_ifs at h
      · cases h
        exact ⟨hnodup, hbounded, by simpa using hopened⟩
      · cases h
        exact ⟨hnodup, hbounded, hopened⟩
    · -- The package is new: its name is put on the stack, and it remains to be selected.
      split_ifs at h with hstuck
      split at h
      · cases h
      · cases h
        rw [not_or, Nat.not_le] at hstuck
        refine ⟨?_, ?_, by simpa using hopened⟩
        · rw [List.nodup_append_comm]
          exact List.nodup_cons.2 ⟨hstuck.1, hnodup⟩
        · rw [List.length_append, List.length_singleton]
          exact hstuck.2
  · rename_i role r found rest
    rw [Task.opened_select] at hopened
    split at h
    · cases h
    · -- The last name on the stack is that of the package that is selected.
      cases h
      refine ⟨hnodup.sublist (List.dropLast_sublist _), ?_, ?_⟩
      · exact Nat.le_trans (List.dropLast_sublist _).length_le hbounded
      · rw [hopened, List.dropLast_concat]

/-- **A run keeps the stack sound.** -/
theorem Sound.run {w w' : Walk} (hw : w.Sound) {n : Nat} (h : run offer n w = .ok w') :
    w'.Sound := by
  induction n generalizing w with
  | zero =>
    cases h
    exact hw
  | succ n ih =>
    obtain ⟨v, hv, hrest⟩ := Outcome.bind_eq_ok_iff.1 h
    exact ih (hw.step hv) hrest

/-! ## Where walks lead -/

/-- Some number of steps leads to a state, or to an error. -/
def Leads (offer : Reference → Except ResolveError Offer) (w : Walk)
    (outcome : Except ResolveError Walk) : Prop :=
  ∃ n, run offer n w = outcome

namespace Leads

variable {w w' : Walk} {outcome : Except ResolveError Walk}

theorem refl (w : Walk) : Leads offer w (.ok w) := ⟨0, rfl⟩

theorem next (h : w.step offer = .ok w') (hrest : Leads offer w' outcome) :
    Leads offer w outcome := by
  obtain ⟨n, hn⟩ := hrest
  exact ⟨n + 1, by rw [run, h]; exact hn⟩

theorem fail {e : ResolveError} (h : w.step offer = .error e) : Leads offer w (.error e) :=
  ⟨1, by rw [run, h]; rfl⟩

theorem trans (h : Leads offer w (.ok w')) (hrest : Leads offer w' outcome) :
    Leads offer w outcome := by
  obtain ⟨n, hn⟩ := h
  induction n generalizing w with
  | zero =>
    cases hn
    exact hrest
  | succ n ih =>
    obtain ⟨v, hv, hn⟩ := Outcome.bind_eq_ok_iff.1 hn
    exact next hv (ih hn)

end Leads

variable {role : Role} {trail deeper : Trail} {s t : Selection} {r : Reference} {known : Selected}
  {found : Offer} {contents : Contents} {rs : List Reference} {rest : List Task}
  {outcome : Except ResolveError Walk}

namespace Leads

theorem settle (hknown : s.get? r.name = some known) (hagrees : known.disagrees r = false)
    (hsettled : ¬ (role.propagates = true ∧ known.isTestOnly = true))
    (h : Leads offer ⟨trail.names, s, rest⟩ outcome) :
    Leads offer ⟨trail.names, s, .visit role r :: rest⟩ outcome := by
  refine next ?_ h
  simp only [step, hknown, hagrees, Bool.false_eq_true, if_false, if_neg hsettled]

theorem promote (hknown : s.get? r.name = some known) (hagrees : known.disagrees r = false)
    (hpromotes : role.propagates = true ∧ known.isTestOnly = true)
    (h : Leads offer ⟨trail.names, s.promote r.name role,
      known.requires.map (.visit role) ++ rest⟩ outcome) :
    Leads offer ⟨trail.names, s, .visit role r :: rest⟩ outcome := by
  refine next ?_ h
  simp only [step, hknown, hagrees, Bool.false_eq_true, if_false, if_pos hpromotes]

theorem enter (hfresh : s.get? r.name = none) (henter : trail.enter? r.name = some deeper)
    (hoffer : offer r = .ok found)
    (h : Leads offer ⟨deeper.names, s,
      found.requires.map (.visit role) ++ .select role r found :: rest⟩ outcome) :
    Leads offer ⟨trail.names, s, .visit role r :: rest⟩ outcome := by
  refine next ?_ h
  simp only [step, hfresh, if_neg (Trail.open_of_enter? henter), hoffer,
    (Trail.names_enter? henter).2]

theorem select (henter : trail.enter? r.name = some deeper)
    (hcontents : found.contents = .ok contents)
    (h : Leads offer ⟨trail.names, s ++ [⟨r.name, packageOf role contents, found.requires⟩], rest⟩
      outcome) :
    Leads offer ⟨deeper.names, s, .select role r found :: rest⟩ outcome := by
  refine next ?_ h
  simp only [step, hcontents, (Trail.names_enter? henter).2, List.dropLast_concat]

end Leads

/-- References that are visited are walked through, and the stack is then what it was. -/
theorem leads_of_visits (h : Visits offer role trail s rs t) (rest : List Task) :
    Leads offer ⟨trail.names, s, rs.map (.visit role) ++ rest⟩ (.ok ⟨trail.names, t, rest⟩) := by
  induction h generalizing rest with
  | nil => exact .refl _
  | settled hknown hagrees hsettled _ ih => exact .settle hknown hagrees hsettled (ih rest)
  | promoted hknown hagrees hrole htest _ _ ihinner ihrest =>
    exact .promote hknown hagrees ⟨hrole, htest⟩ ((ihinner _).trans (ihrest rest))
  | selected hfresh henter hoffer _ hcontents _ ihinner ihrest =>
    refine .enter hfresh henter hoffer ((ihinner _).trans ?_)
    exact .select henter hcontents (ihrest rest)

/-- References that cannot be visited end the walk with the same error. -/
theorem leads_of_fails {e : ResolveError} (h : Fails offer role trail s rs e) (rest : List Task) :
    Leads offer ⟨trail.names, s, rs.map (.visit role) ++ rest⟩ (.error e) := by
  induction h generalizing rest with
  | disagrees hknown hdisagrees =>
    refine .fail ?_
    simp only [step, List.map_cons, List.cons_append, hknown, if_pos hdisagrees]
  | promoting hknown hagrees hrole htest _ ih =>
    exact .promote hknown hagrees ⟨hrole, htest⟩ (ih _)
  | stuck hfresh hstuck =>
    refine .fail ?_
    simp only [step, List.map_cons, List.cons_append, hfresh,
      if_pos (Trail.closed_of_enter?_eq_none hstuck)]
  | refused hfresh henter hoffer =>
    refine .fail ?_
    simp only [step, List.map_cons, List.cons_append, hfresh,
      if_neg (Trail.open_of_enter? henter), hoffer]
  | requiring hfresh henter hoffer _ ih => exact .enter hfresh henter hoffer (ih _)
  | spoilt hfresh henter hoffer hinner hcontents =>
    refine .enter hfresh henter hoffer ((leads_of_visits hinner _).trans (.fail ?_))
    simp only [step, hcontents]
  | later hfirst _ ih => exact (leads_of_visits hfirst _).trans (ih rest)

/-- **A visit is walked through to its end**, whatever remains to be done behind it: to the
selection that it makes, with the stack as it was, or to the error with which it fails. -/
theorem leads_visit (offer : Reference → Except ResolveError Offer) (role : Role) (trail : Trail)
    (s : Selection) (r : Reference) (rest : List Task) :
    Leads offer ⟨trail.names, s, .visit role r :: rest⟩
      ((fun t => ⟨trail.names, t.1, rest⟩) <$> visit offer trail role s r) := by
  cases h : visit offer trail role s r with
  | error e => exact leads_of_fails (fails_of_visit trail s r h []) rest
  | ok t => exact leads_of_visits (visits_of_visit trail s r h (.nil _ _)) rest

theorem leads_visitDeclarations (offer : Reference → Except ResolveError Offer) (s : Selection)
    (declarations : List Declaration) :
    Leads offer ⟨[], s, (start declarations).agenda⟩
      ((fun t => ⟨[], t, []⟩) <$> visitDeclarations offer s declarations) := by
  induction declarations generalizing s with
  | nil => exact .refl _
  | cons d declarations ih =>
    have hfirst := leads_visit offer d.role .start s d.reference (start declarations).agenda
    rw [visitDeclarations]
    cases hvisit : visit offer .start d.role s d.reference with
    | error e =>
      rw [hvisit] at hfirst
      exact hfirst
    | ok t =>
      rw [hvisit] at hfirst
      exact hfirst.trans (ih t.1)

end Walk

end Resolution

open Resolution (Walk)

/-- **Every walk through a repository ends**, with what the repository resolves, nothing left to do
and nothing on the stack, or with the error that it fails with. On the way the stack never holds a
name twice or more than 64 names, and every visit that is begun ends: with its selection and the
stack as it was, or with its error. -/
theorem Repository.walk_ends (repository : Repository) (target : Settings)
    (declarations : List Declaration) :
    let offer := repository.offer target
    (∃ n, (fun w => w.done.graph) <$> Walk.run offer n (.start declarations) =
        repository.resolve declarations target ∧
      ∀ w, Walk.run offer n (.start declarations) = .ok w → w.agenda = [] ∧ w.stack = []) ∧
    ∀ n w, Walk.run offer n (.start declarations) = .ok w →
      w.stack.length ≤ 64 ∧ w.stack.Nodup ∧
      ∀ role r rest, w.agenda = .visit role r :: rest →
        ∃ trail : Trail, trail.names = w.stack ∧ ∃ m, Walk.run offer m w =
          (fun s => ⟨w.stack, s.1, rest⟩) <$> Resolution.visit offer trail role w.done r := by
  refine ⟨?_, fun n w hw => ?_⟩
  · obtain ⟨n, hn⟩ := Walk.leads_visitDeclarations (repository.offer target) [] declarations
    have hrun : Walk.run (repository.offer target) n (.start declarations) = _ := hn
    refine ⟨n, ?_, fun w hw => ?_⟩
    · rw [hrun]
      unfold resolve Resolution.resolve
      cases Resolution.visitDeclarations (repository.offer target) [] declarations <;> rfl
    · obtain ⟨s, -, rfl⟩ := Outcome.map_eq_ok_iff.1 (hrun.symm.trans hw)
      exact ⟨rfl, rfl⟩
  · have hsound := (Walk.sound_start declarations).run hw
    refine ⟨hsound.bounded, hsound.nodup, fun role r rest hagenda => ?_⟩
    obtain ⟨stack, done, agenda⟩ := w
    subst hagenda
    refine ⟨⟨stack, hsound.nodup, hsound.bounded⟩, rfl, ?_⟩
    exact Walk.leads_visit _ role ⟨stack, _, _⟩ done r rest

/-- A package that requires itself is found on the stack when it is to be visited again. -/
example : Walk.run (fun r => .ok ⟨[r], .error .tooLarge⟩) 2
    (.start [.requires ⟨"app", "1.0", none, none⟩]) = .error (.cycle ["app", "app"]) := by
  rfl

end PackageTrial
