import PackageTrial.Proofs.Trial.Order

/-!
# The stages of a trial

A trial keeps three books of how far it has come: the stages of its report, the notices that it
gives on the way, and the stage that its error names as the one that could not be entered. The books
agree with one another and with what was asked and answered, however a trial goes
(`run_keeps_books`). In particular no trial fails because its own steps come out of order.
-/

namespace PackageTrial

/-- What an exchange tells those who follow the trial. -/
def Exchange.notice? : Exchange → Option Notice
  | .notice told => some told
  | .resolve _ _ _ | .configure _ _ | .build _ _ | .isFile _ _ | .execute _ _ => none

/-- The stage that a notice tells of. -/
def Notice.stage? : Notice → Option Stage
  | .stage next => some next
  | .skip _ | .execute _ => none

namespace Trial

/-- What was told in a trial, in order. -/
def notices (l : List Exchange) : List Notice := l.filterMap Exchange.notice?

/-- The stages of a trial as they were told, after the start, which is not told. -/
def entered (l : List Exchange) : List Stage := .start :: (notices l).filterMap Notice.stage?

/-- The stage at which the line of stages forks, as the host decides it. -/
def fork (context : Context) : Stage :=
  if context.canExecute then .executed else .skippedExecution

/-- What a trial that comes to its end tells on the way. -/
def announcement (context : Context) (binary : Path) : List Notice :=
  [.stage .dependenciesDeclared, .stage .layoutComputed, .stage .configured, .stage .built,
    if context.canExecute then .execute binary else .skip context.verdict,
    .stage (fork context), .stage .done]

/-- A trial has done what one of its stages stands for. -/
def Attained (plan : Plan) (context : Context) (result : Except TrialError Report)
    (l : List Exchange) : Stage → Prop
  | .start => True
  | .dependenciesDeclared => ∃ graph, .resolve plan.declarations context.target (.ok graph) ∈ l
  | .layoutComputed => (∃ graph, .resolve plan.declarations context.target (.ok graph) ∈ l) ∧
      ∃ placed, plan.place context.target = .ok placed
  | .configured => ∃ job, .configure job (.ok ()) ∈ l
  | .built => ∃ job, .build job (.ok ()) ∈ l
  | .executed => ∃ invocation status, .execute invocation (.ok status) ∈ l ∧ status.success = true
  | .skippedExecution => .notice (.skip context.verdict) ∈ l
  | .done => ∃ report, result = .ok report

/-- A trial whose books agree. -/
structure KeepsBooks (plan : Plan) (context : Context) (result : Except TrialError Report)
    (l : List Exchange) : Prop where
  /-- The steps of a trial never come out of order. -/
  never_outOfOrder : ∀ e, result ≠ .error (.outOfOrder e)
  /-- The stages entered are those whose work is done. -/
  entered_iff : ∀ stage, stage ∈ entered l ↔ Attained plan context result l stage
  /-- A report lists the stages that were told, and these are all that there are on one side of the
  fork. -/
  report_stages : ∀ report, result = .ok report →
    report.stages = entered l ∧ report.stages = fullHistory (fork context)
  /-- The binary was run where the host can run it, and then it exited with code zero. -/
  report_executed : ∀ report, result = .ok report → context.canExecute = true →
    report.outcome = .executed 0
  /-- It was skipped where the host cannot, for the reason that the verdict gives. -/
  report_skipped : ∀ report, result = .ok report → context.canExecute = false →
    ∃ reason, context.verdict = .unavailable reason ∧ report.outcome = .skipped reason
  /-- A trial that succeeds has told everything that there is to tell. -/
  notices_complete : ∀ report, result = .ok report → notices l = announcement context report.binary
  /-- A trial that fails has told the beginning, but not all, of what it would have told. -/
  notices_broken_off : ∀ e, result = .error e →
    ∀ binary, (∀ placed, plan.place context.target = .ok placed → placed.2 = binary) →
      notices l <+: announcement context binary ∧ notices l ≠ announcement context binary
  /-- The stage that could not be entered is one that may follow the last that was. -/
  failed_follows : ∀ e, result = .error e →
    (Progress.current ⟨entered l⟩).allows e.failedStage = true

theorem fork_of_reason?_eq_none {context : Context} (h : context.verdict.reason? = none) :
    fork context = .executed :=
  if_pos ((canExecute_iff context).2 h)

theorem announcement_of_reason?_eq_none {context : Context} (h : context.verdict.reason? = none)
    (binary : Path) : announcement context binary =
      [.stage .dependenciesDeclared, .stage .layoutComputed, .stage .configured, .stage .built,
        .execute binary, .stage .executed, .stage .done] := by
  rw [announcement, fork_of_reason?_eq_none h, (canExecute_iff context).2 h]
  rfl

theorem eq_unavailable {verdict : Verdict} {reason : SkipReason}
    (h : verdict.reason? = some reason) : verdict = .unavailable reason := by
  cases verdict <;> simp_all [Verdict.reason?]

namespace Course

variable {plan : Plan} {context : Context} {result : Except TrialError Report} {l : List Exchange}

theorem never_outOfOrder (h : Course plan context result l) (e : StageError) :
    result ≠ .error (.outOfOrder e) := by
  rintro rfl
  cases h

theorem entered_iff (h : Course plan context result l) (stage : Stage) :
    stage ∈ entered l ↔ Attained plan context result l stage := by
  cases h with
  | @passed graph layout binary place runs status content =>
    cases stage with
    | executed =>
      refine iff_of_true ?_ ⟨(jobOf plan context graph layout).invocation binary, status, ?_,
        content⟩
      · simp [entered, notices, Exchange.notice?, Notice.stage?, startedLedger]
      · simp [startedLedger]
    | _ =>
      simp_all [entered, notices, Attained, Exchange.notice?, Notice.stage?, startedLedger,
        builtLedger, configuredLedger, resolvedLedger]
  | _ =>
    cases stage <;>
      simp_all [entered, notices, Attained, Exchange.notice?, Notice.stage?, startedLedger,
        builtLedger, configuredLedger, resolvedLedger]

theorem report_stages (h : Course plan context result l) (report : Report)
    (hresult : result = .ok report) :
    report.stages = entered l ∧ report.stages = fullHistory (fork context) := by
  cases h with
  | skipped graph place skips =>
    cases hresult
    exact ⟨rfl, by rw [fork, canExecute_eq_false skips]; rfl⟩
  | passed graph place runs content =>
    cases hresult
    exact ⟨rfl, by rw [fork_of_reason?_eq_none runs]⟩
  | _ => cases hresult

theorem report_executed (h : Course plan context result l) (report : Report)
    (hresult : result = .ok report) (hruns : context.canExecute = true) :
    report.outcome = .executed 0 := by
  cases h with
  | skipped graph place skips =>
    rw [canExecute_eq_false skips] at hruns
    cases hruns
  | @passed graph layout binary place runs status content =>
    cases hresult
    have hcode : status.code = some 0 := by simpa [Status.success] using content
    simp [Status.exitCode, hcode]
  | _ => cases hresult

theorem report_skipped (h : Course plan context result l) (report : Report)
    (hresult : result = .ok report) (hskips : context.canExecute = false) :
    ∃ reason, context.verdict = .unavailable reason ∧ report.outcome = .skipped reason := by
  cases h with
  | skipped graph place skips =>
    cases hresult
    exact ⟨_, eq_unavailable skips, rfl⟩
  | passed graph place runs content =>
    rw [(canExecute_iff context).2 runs] at hskips
    cases hskips
  | _ => cases hresult

theorem notices_complete (h : Course plan context result l) (report : Report)
    (hresult : result = .ok report) : notices l = announcement context report.binary := by
  cases h with
  | skipped graph place skips =>
    cases hresult
    rw [announcement, fork, canExecute_eq_false skips]
    rfl
  | passed graph place runs content =>
    cases hresult
    exact (announcement_of_reason?_eq_none runs _).symm
  | _ => cases hresult

theorem notices_broken_off (h : Course plan context result l) (e : TrialError)
    (hresult : result = .error e) (binary : Path)
    (hbinary : ∀ placed, plan.place context.target = .ok placed → placed.2 = binary) :
    notices l <+: announcement context binary ∧ notices l ≠ announcement context binary := by
  have hproper : ∀ told rest, announcement context binary = told ++ rest → rest ≠ [] →
      told <+: announcement context binary ∧ told ≠ announcement context binary := by
    intro told rest hsplit hrest
    exact ⟨⟨rest, hsplit.symm⟩, by rw [hsplit]; simpa using hrest⟩
  cases h with
  | unresolved e => exact hproper _ _ (List.nil_append _).symm (List.cons_ne_nil _ _)
  | unplaced graph place => exact hproper _ _ rfl (List.cons_ne_nil _ _)
  | unconfigured graph place e => exact hproper _ _ rfl (List.cons_ne_nil _ _)
  | unbuilt graph place e => exact hproper _ _ rfl (List.cons_ne_nil _ _)
  | missing graph place runs => exact hproper _ _ rfl (List.cons_ne_nil _ _)
  | refused graph place runs e =>
    obtain rfl := hbinary _ place
    exact hproper _ [.stage .executed, .stage .done] (announcement_of_reason?_eq_none runs _)
      (List.cons_ne_nil _ _)
  | failed graph place runs discontent =>
    obtain rfl := hbinary _ place
    exact hproper _ [.stage .executed, .stage .done] (announcement_of_reason?_eq_none runs _)
      (List.cons_ne_nil _ _)
  | _ => cases hresult

theorem failed_follows (h : Course plan context result l) (e : TrialError)
    (hresult : result = .error e) :
    (Progress.current ⟨entered l⟩).allows e.failedStage = true := by
  cases h <;> cases hresult <;> rfl

end Course

/-- **A trial keeps its books**: its report, its notices and its errors tell the same stages, and
these are the ones whose work was done, whatever those who act for it answer. -/
theorem run_keeps_books {σ : Type} (c : Collaborators (StateM σ)) (plan : Plan) (context : Context)
    (s : σ) : KeepsBooks plan context (result c plan context s) (ledger c plan context s) :=
  have h := course_run c plan context s
  { never_outOfOrder := h.never_outOfOrder
    entered_iff := h.entered_iff
    report_stages := h.report_stages
    report_executed := h.report_executed
    report_skipped := h.report_skipped
    notices_complete := h.notices_complete
    notices_broken_off := h.notices_broken_off
    failed_follows := h.failed_follows }

end Trial

end PackageTrial
