import PackageTrial.Proofs.Trial.Course

/-!
# The order of a trial

A trial calls its collaborators in one order, each at most once and only after all that came before
has succeeded. The first step that fails is the last one, and its own error is the trial's; a trial
whose steps all succeed succeeds (`run_orderly`). The statement speaks of the ledger of a trial and
of its end, for collaborators that may answer anything.
-/

namespace PackageTrial

/-- What a trial may call for. -/
inductive Call
  | resolve
  | configure
  | build
  | run
  deriving DecidableEq

/-- The calls of a trial, in order. -/
def Call.all : List Call := [.resolve, .configure, .build, .run]

namespace Exchange

/-- The call that an exchange is; looking for a file and telling something are none. -/
def call? : Exchange → Option Call
  | .resolve _ _ _ => some .resolve
  | .configure _ _ => some .configure
  | .build _ _ => some .build
  | .execute _ _ => some .run
  | .isFile _ _ | .notice _ => none

/-- The error that ends a trial with this exchange, when the answer is a failure: an error, a file
that is not there, a binary that was not content. -/
def failure? : Exchange → Option TrialError
  | .resolve _ _ (.error e) => some (.resolution e)
  | .configure _ (.error e) => some (.configure e)
  | .build _ (.error e) => some (.build e)
  | .isFile binary false => some (.missingArtifact binary)
  | .execute _ (.error e) => some (.run e)
  | .execute invocation (.ok status) =>
    if status.success then none else some (.binaryFailed invocation.program status)
  | .resolve _ _ (.ok _) | .configure _ (.ok _) | .build _ (.ok _) | .isFile _ true | .notice _ =>
    none

end Exchange

namespace Trial

/-- The calls of a ledger, in order. -/
def calls (l : List Exchange) : List Call := l.filterMap Exchange.call?

/-- The error of the one step that asks nobody: laying out the build. -/
def placeFailure? (plan : Plan) (context : Context) : Option TrialError :=
  match plan.place context.target with
  | .ok _ => none
  | .error e => some (.layout e)

/-- The error of the first step that failed. Where the layout fails, nothing is asked after the
packages were resolved. -/
def firstFailure? (plan : Plan) (context : Context) (l : List Exchange) : Option TrialError :=
  (l.findSome? Exchange.failure?).or (placeFailure? plan context)

/-- A trial that keeps the order of its steps. -/
structure Orderly (plan : Plan) (context : Context) (result : Except TrialError Report)
    (l : List Exchange) : Prop where
  /-- Each call comes at most once, and none before the earlier ones. -/
  calls_ordered : calls l <+: Call.all
  /-- A call, or anything else, comes only after all that was asked before has succeeded. -/
  earlier_succeeded : ∀ before x after, l = before ++ x :: after →
    ∀ y ∈ before, y.failure? = none
  /-- Nothing comes after a failure. -/
  failure_last : ∀ before x after, l = before ++ x :: after → x.failure? ≠ none → after = []
  /-- A layout that fails is followed by no call. -/
  configure_placed : ∀ job answer, .configure job answer ∈ l →
    ∃ binary, plan.place context.target = .ok (job.layout, binary)
  /-- The binary is run only where the host can run it and where it is a file. -/
  execute_allowed : ∀ invocation answer, .execute invocation answer ∈ l →
    context.canExecute = true ∧ .isFile invocation.program true ∈ l ∧
      ∃ layout, plan.place context.target = .ok (layout, invocation.program)
  /-- The trial fails with the error of the first step that fails. -/
  fails_iff : ∀ e, result = .error e ↔ firstFailure? plan context l = some e
  /-- The trial succeeds when no step fails. -/
  succeeds_iff : (∃ report, result = .ok report) ↔ firstFailure? plan context l = none
  /-- A trial that succeeds has left out no call, but that for a binary that the host cannot run. -/
  calls_complete : ∀ report, result = .ok report →
    calls l = if context.canExecute then Call.all else [.resolve, .configure, .build]

theorem canExecute_iff (context : Context) :
    context.canExecute = true ↔ context.verdict.reason? = none := by
  unfold Context.canExecute
  cases context.verdict <;> simp [Verdict.canExecute, Verdict.reason?]

theorem canExecute_eq_false {context : Context} {reason : SkipReason}
    (h : context.verdict.reason? = some reason) : context.canExecute = false := by
  rw [← Bool.not_eq_true, canExecute_iff, h]
  exact Option.some_ne_none _

namespace Course

variable {plan : Plan} {context : Context} {result : Except TrialError Report} {l : List Exchange}

theorem calls_ordered (h : Course plan context result l) : calls l <+: Call.all := by
  cases h <;> exact ⟨_, rfl⟩

/-- Only the last exchange of a course may be a failure. -/
theorem succeeded_of_mem_dropLast (h : Course plan context result l) :
    ∀ y ∈ l.dropLast, y.failure? = none := by
  cases h <;>
    simp_all [resolvedLedger, configuredLedger, builtLedger, startedLedger, Exchange.failure?]

theorem earlier_succeeded (h : Course plan context result l) (before : List Exchange)
    (x : Exchange) (after : List Exchange) (hl : l = before ++ x :: after) :
    ∀ y ∈ before, y.failure? = none := by
  intro y hy
  refine h.succeeded_of_mem_dropLast y ?_
  rw [hl, List.dropLast_append_cons]
  exact List.mem_append_left _ hy

theorem failure_last (h : Course plan context result l) (before : List Exchange) (x : Exchange)
    (after : List Exchange) (hl : l = before ++ x :: after) (hx : x.failure? ≠ none) :
    after = [] := by
  cases after with
  | nil => rfl
  | cons y after =>
    -- `x` would be among what comes before `y`
    refine absurd (h.earlier_succeeded (before ++ [x]) y after ?_ x ?_) hx
    · rw [hl, List.append_assoc]
      rfl
    · simp

theorem configure_placed (h : Course plan context result l) (job : Job)
    (answer : Except ToolError Unit) (hjob : .configure job answer ∈ l) :
    ∃ binary, plan.place context.target = .ok (job.layout, binary) := by
  cases h <;>
    simp_all [resolvedLedger, configuredLedger, builtLedger, startedLedger, jobOf]

theorem execute_allowed (h : Course plan context result l) (invocation : Invocation)
    (answer : Except ToolError Status) (hrun : .execute invocation answer ∈ l) :
    context.canExecute = true ∧ .isFile invocation.program true ∈ l ∧
      ∃ layout, plan.place context.target = .ok (layout, invocation.program) := by
  rw [canExecute_iff]
  cases h <;>
    simp_all [resolvedLedger, configuredLedger, builtLedger, startedLedger, Job.invocation]

theorem firstFailure?_eq (h : Course plan context result l) : firstFailure? plan context l =
    match result with
    | .ok _ => none
    | .error e => some e := by
  unfold firstFailure? placeFailure?
  cases h <;>
    simp_all [resolvedLedger, configuredLedger, builtLedger, startedLedger, List.findSome?_cons,
      Exchange.failure?, Job.invocation]

theorem fails_iff (h : Course plan context result l) (e : TrialError) :
    result = .error e ↔ firstFailure? plan context l = some e := by
  rw [h.firstFailure?_eq]
  cases result <;> simp

theorem succeeds_iff (h : Course plan context result l) :
    (∃ report, result = .ok report) ↔ firstFailure? plan context l = none := by
  rw [h.firstFailure?_eq]
  cases result <;> simp

theorem calls_complete (h : Course plan context result l) (report : Report)
    (hresult : result = .ok report) :
    calls l = if context.canExecute then Call.all else [.resolve, .configure, .build] := by
  cases h with
  | skipped graph place skips =>
    rw [canExecute_eq_false skips]
    rfl
  | passed graph place runs content =>
    rw [if_pos ((canExecute_iff context).2 runs)]
    rfl
  | _ => cases hresult

end Course

/-- **A trial keeps the order of its steps**, whatever those who act for it answer. -/
theorem run_orderly {σ : Type} (c : Collaborators (StateM σ)) (plan : Plan) (context : Context)
    (s : σ) : Orderly plan context (result c plan context s) (ledger c plan context s) :=
  have h := course_run c plan context s
  { calls_ordered := h.calls_ordered
    earlier_succeeded := h.earlier_succeeded
    failure_last := h.failure_last
    configure_placed := h.configure_placed
    execute_allowed := h.execute_allowed
    fails_iff := h.fails_iff
    succeeds_iff := h.succeeds_iff
    calls_complete := h.calls_complete }

end Trial

end PackageTrial
