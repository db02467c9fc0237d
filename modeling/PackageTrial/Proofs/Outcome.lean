import Mathlib.Data.List.Forall2

/-!
# Outcomes

When a computation that may fail ends well: a sequence of two does when both do (`bind_eq_ok_iff`,
and `exists_of_run_bind` where they change a state), a computation over a list when it does for
every element (`mapM_eq_ok_iff`, `forM_eq_ok_iff`). A failure that is renamed is a failure still
(`mapError_eq_ok_iff`). And where a failure comes from: from the first of two or from the second
(`bind_eq_error_iff`), from some element of a list (`exists_of_mapM_eq_error`).
-/

namespace PackageTrial.Outcome

variable {ε ε' α β : Type}

theorem bind_eq_ok_iff {x : Except ε α} {f : α → Except ε β} {b : β} :
    x >>= f = .ok b ↔ ∃ a, x = .ok a ∧ f a = .ok b := by
  cases x <;> simp [bind, Except.bind]

theorem bind_eq_error_iff {x : Except ε α} {f : α → Except ε β} {e : ε} :
    x >>= f = .error e ↔ x = .error e ∨ ∃ a, x = .ok a ∧ f a = .error e := by
  cases x <;> simp [bind, Except.bind]

/-- Of two computations that change a state, the first ends well and the second does from where the
first leaves it. -/
theorem exists_of_run_bind {σ : Type} {x : ExceptT ε (StateM σ) α}
    {f : α → ExceptT ε (StateM σ) β} {s s' : σ} {b : β} (h : (x >>= f).run.run s = (.ok b, s')) :
    ∃ a mid, x.run.run s = (.ok a, mid) ∧ (f a).run.run mid = (.ok b, s') := by
  simp only [ExceptT.run_bind, StateT.run_bind] at h
  generalize x.run.run s = end' at h ⊢
  rcases end' with ⟨e | a, mid⟩
  · cases h
  · exact ⟨a, mid, rfl, h⟩

/-- A computation that leaves the state alone. -/
theorem run_liftM {σ : Type} (x : Except ε α) (s : σ) :
    (liftM x : ExceptT ε (StateM σ) α).run.run s = (x, s) := by
  cases x <;> rfl

/-- A computation that first reads the state. -/
theorem run_get_bind {σ : Type} (f : σ → ExceptT ε (StateM σ) α) (s : σ) :
    (get >>= f).run.run s = (f s).run.run s := rfl

theorem throw_ne_ok {e : ε} {a : α} : (throw e : Except ε α) ≠ .ok a := by
  simp [throw, throwThe, MonadExceptOf.throw]

/-- A computation behind a condition ends well when the condition holds and it does. -/
theorem unless_throw_eq_ok_iff {p : Prop} [Decidable p] {e : ε} {x y : Except ε α} {a : α} :
    (if p then (throw e : Except ε PUnit) >>= fun _ => y else x) = .ok a ↔ ¬ p ∧ x = .ok a := by
  by_cases hp : p <;> simp [hp, bind_eq_ok_iff, throw_ne_ok]

/-- A computation behind a condition fails when the condition does not hold, or when it fails. -/
theorem unless_throw_eq_error_iff {p : Prop} [Decidable p] {e e' : ε} {x y : Except ε α} :
    (if p then (throw e : Except ε PUnit) >>= fun _ => y else x) = .error e' ↔
      p ∧ e = e' ∨ ¬ p ∧ x = .error e' := by
  by_cases hp : p <;> simp [hp, bind, Except.bind, throw, throwThe, MonadExceptOf.throw]

theorem mapError_eq_ok_iff {f : ε → ε'} {x : Except ε α} {a : α} :
    x.mapError f = .ok a ↔ x = .ok a := by
  cases x <;> simp [Except.mapError]

theorem mapError_eq_error_iff {f : ε → ε'} {x : Except ε α} {e' : ε'} :
    x.mapError f = .error e' ↔ ∃ e, x = .error e ∧ f e = e' := by
  cases x <;> simp [Except.mapError]

theorem map_eq_ok_iff {f : α → β} {x : Except ε α} {b : β} :
    f <$> x = .ok b ↔ ∃ a, x = .ok a ∧ f a = b := by
  cases x <;> simp [Functor.map, Except.map]

theorem map_eq_error_iff {f : α → β} {x : Except ε α} {e : ε} :
    f <$> x = .error e ↔ x = .error e := by
  cases x <;> simp [Functor.map, Except.map]

theorem forM_eq_ok_iff {f : α → Except ε Unit} {as : List α} :
    as.forM f = .ok () ↔ ∀ a ∈ as, f a = .ok () := by
  rw [List.forM_eq_forM]
  induction as with
  | nil => simp [pure, Except.pure]
  | cons a as ih =>
    simp only [List.forM_cons, bind_eq_ok_iff, List.forall_mem_cons, ← ih]
    exact ⟨fun ⟨_, h⟩ => h, fun h => ⟨_, h⟩⟩

theorem mapM_eq_ok_iff {f : α → Except ε β} {as : List α} {bs : List β} :
    as.mapM f = .ok bs ↔ List.Forall₂ (fun a b => f a = .ok b) as bs := by
  induction as generalizing bs with
  | nil => simp [pure, Except.pure, eq_comm]
  | cons a as ih =>
    simp only [List.mapM_cons, bind_eq_ok_iff, List.forall₂_cons_left_iff, ← ih, pure, Except.pure]
    constructor
    · rintro ⟨b, hb, bs', hbs, e⟩
      cases e
      exact ⟨b, bs', hb, hbs, rfl⟩
    · rintro ⟨b, bs', hb, hbs, rfl⟩
      exact ⟨b, hb, bs', hbs, rfl⟩

theorem exists_of_mem_mapM {f : α → Except ε β} {as : List α} {bs : List β}
    (h : as.mapM f = .ok bs) {b : β} (hb : b ∈ bs) : ∃ a ∈ as, f a = .ok b := by
  rw [mapM_eq_ok_iff] at h
  induction h with
  | nil => cases hb
  | cons hab _ ih =>
    rcases List.mem_cons.1 hb with rfl | hb
    · exact ⟨_, List.mem_cons_self, hab⟩
    · obtain ⟨a, ha, hab⟩ := ih hb
      exact ⟨a, List.mem_cons_of_mem _ ha, hab⟩

/-- A computation over a list fails as it does for one of the elements. -/
theorem exists_of_mapM_eq_error {f : α → Except ε β} {as : List α} {e : ε}
    (h : as.mapM f = .error e) : ∃ a ∈ as, f a = .error e := by
  induction as with
  | nil => cases h
  | cons a as ih =>
    simp only [List.mapM_cons, bind_eq_error_iff] at h
    rcases h with h | ⟨b, -, h | ⟨bs, -, h⟩⟩
    · exact ⟨a, List.mem_cons_self, h⟩
    · obtain ⟨x, hx, hfx⟩ := ih h
      exact ⟨x, List.mem_cons_of_mem _ hx, hfx⟩
    · cases h

end PackageTrial.Outcome
