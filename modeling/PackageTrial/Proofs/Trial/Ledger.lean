import PackageTrial.Trial

/-!
# The ledger of a trial

`Collaborators.recorded` lets the same collaborators act while everything that they are asked, with
their answers, and everything that they are told is noted down in order. Collaborators may be of any
kind that keeps a state: what they answer may depend on all that happened before.

`Trial.Tells x y Q` says that the recorded act `x` does to the world what the plain act `y` does and
ends as `y` does, and that the ledger grows by exchanges which stand in the relation `Q` to that
end. Each step of a trial has one lemma, which reduces what a trial tells to what its remaining
steps tell; so recording changes nothing, and a trial is followed once and for all
(`PackageTrial.Proofs.Trial.Course`).
-/

namespace PackageTrial

/-- Something that a trial asked, with the answer, or told. -/
inductive Exchange
  | resolve (declarations : List Declaration) (target : Settings)
      (answer : Except ResolveError Graph)
  | configure (job : Job) (answer : Except ToolError Unit)
  | build (job : Job) (answer : Except ToolError Unit)
  | isFile (path : Path) (answer : Bool)
  | execute (invocation : Invocation) (answer : Except ToolError Status)
  | notice (notice : Notice)

/-- Acts, then notes down the exchange that the answer makes. -/
def Exchange.noted {m : Type → Type} [Monad m] {α : Type} (entry : α → Exchange) (act : m α) :
    StateT (List Exchange) m α := do
  let answer ← act
  modify (· ++ [entry answer])
  return answer

open Exchange (noted)

/-- The same collaborators under record. -/
def Collaborators.recorded {m : Type → Type} [Monad m] (c : Collaborators m) :
    Collaborators (StateT (List Exchange) m) where
  resolve declarations target :=
    noted (.resolve declarations target) (c.resolve declarations target)
  configure job := noted (.configure job) (c.configure job)
  build job := noted (.build job) (c.build job)
  isFile path := noted (.isFile path) (c.isFile path)
  execute invocation := noted (.execute invocation) (c.execute invocation)
  notify notice := noted (fun _ => .notice notice) (c.notify notice)

namespace Trial

variable {σ α β : Type}

/-- The end of a trial whose collaborators start in a state. -/
def result (c : Collaborators (StateM σ)) (plan : Plan) (context : Context) (s : σ) :
    Except TrialError Report :=
  ((run c plan context).run.run s).1

/-- What was asked and told in a trial, in order. -/
def ledger (c : Collaborators (StateM σ)) (plan : Plan) (context : Context) (s : σ) :
    List Exchange :=
  (((run c.recorded plan context).run.run []).run s).1.2

/-- An act of a trial. -/
abbrev Act (σ α : Type) := ExceptT TrialError (StateM σ) α

/-- An act of a trial under record. -/
abbrev RecordedAct (σ α : Type) := ExceptT TrialError (StateT (List Exchange) (StateM σ)) α

/-- `x` does what `y` does and notes down exchanges that stand in the relation `Q` to the end. -/
def Tells (x : RecordedAct σ α) (y : Act σ α)
    (Q : Except TrialError α → List Exchange → Prop) : Prop :=
  ∀ l s, ∃ l', (x.run.run l).run s = (((y.run.run s).1, l ++ l'), (y.run.run s).2) ∧
    Q (y.run.run s).1 l'

namespace Tells

variable {Q : Except TrialError β → List Exchange → Prop}
  {f : α → RecordedAct σ β} {g : α → Act σ β}

theorem pure {b : β} (h : Q (.ok b) []) : Tells (σ := σ) (Pure.pure b) (Pure.pure b) Q := by
  intro l s
  exact ⟨[], by rw [List.append_nil]; rfl, h⟩

theorem throw {e : TrialError} (h : Q (.error e) []) :
    Tells (σ := σ) (MonadExcept.throw e) (MonadExcept.throw e) Q := by
  intro l s
  exact ⟨[], by rw [List.append_nil]; rfl, h⟩

/-! ## The steps of a trial -/

theorem noted_bind {entry : α → Exchange} {act : StateM σ α}
    (h : ∀ a, Tells (f a) (g a) fun r l => Q r (entry a :: l)) :
    Tells (liftM (noted entry act) >>= f) (liftM act >>= g) Q := by
  intro l s
  obtain ⟨l', hrun, hQ⟩ := h (act.run s).1 (l ++ [entry (act.run s).1]) (act.run s).2
  refine ⟨entry (act.run s).1 :: l', ?_, hQ⟩
  rw [List.append_assoc] at hrun
  exact hrun

theorem require_bind {ε : Type} {cause : ε → TrialError} {x : Except ε α}
    (herror : ∀ e, x = .error e → Q (.error (cause e)) [])
    (hok : ∀ a, x = .ok a → Tells (f a) (g a) Q) :
    Tells (require cause x >>= f) (require cause x >>= g) Q := by
  cases x with
  | error e => exact throw (herror e rfl)
  | ok a => exact hok a rfl

theorem enter_bind {c : Collaborators (StateM σ)} {progress : Progress} {next : Stage}
    {f : Progress → RecordedAct σ β} {g : Progress → Act σ β}
    (hallowed : progress.current.allows next = true)
    (h : Tells (f ⟨progress.visited ++ [next]⟩) (g ⟨progress.visited ++ [next]⟩)
      fun r l => Q r (.notice (.stage next) :: l)) :
    Tells (enter c.recorded progress next >>= f) (enter c progress next >>= g) Q := by
  have hadvance : progress.advance next = .ok ⟨progress.visited ++ [next]⟩ := if_pos hallowed
  unfold enter
  rw [hadvance]
  exact noted_bind fun _ => h

theorem execute_bind {c : Collaborators (StateM σ)} {job : Job} {binary : Path}
    {f : Status → RecordedAct σ β} {g : Status → Act σ β}
    (hmissing : Q (.error (.missingArtifact binary)) [.isFile binary false])
    (hrefused : ∀ e, Q (.error (.run e))
      [.isFile binary true, .notice (.execute binary), .execute (job.invocation binary) (.error e)])
    (hfailed : ∀ status, status.success = false → Q (.error (.binaryFailed binary status))
      [.isFile binary true, .notice (.execute binary),
        .execute (job.invocation binary) (.ok status)])
    (hpassed : ∀ status, status.success = true → Tells (f status) (g status) fun r l =>
      Q r (.isFile binary true :: .notice (.execute binary) ::
        .execute (job.invocation binary) (.ok status) :: l)) :
    Tells (execute c.recorded job binary >>= f) (execute c job binary >>= g) Q := by
  unfold execute
  simp only [bind_assoc]
  refine noted_bind fun found => ?_
  cases found with
  | false => exact throw hmissing
  | true =>
    simp only [if_true, bind_assoc]
    refine noted_bind fun _ => noted_bind fun answer => ?_
    refine require_bind (fun e he => he ▸ hrefused e) fun status hstatus => ?_
    subst hstatus
    cases hsuccess : status.success with
    | false =>
      simp only [Bool.false_eq_true, if_false]
      exact throw (hfailed status hsuccess)
    | true =>
      simp only [if_true]
      exact hpassed status hsuccess

end Tells

end Trial

end PackageTrial
