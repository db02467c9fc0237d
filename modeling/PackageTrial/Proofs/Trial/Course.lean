import PackageTrial.Proofs.Trial.Ledger

/-!
# The courses a trial may take

`Course plan context result ledger` lists the nine ways in which a trial may go: what was asked and
told, in order, and how it ended. Seven of them end early, one where the host cannot run the binary
and one where the binary ran and was content. `course_run` says that every trial takes one of them,
whatever its collaborators do; what holds of all trials is read off the nine courses.
-/

namespace PackageTrial

/-- The layout that a plan asks for, and the path of its test binary. -/
def Plan.place (p : Plan) (target : Settings) : Except LayoutError (Layout × Path) := do
  let layout ← Layout.compute p.layout target
  return (layout, ← layout.binaryPath p.binary target)

namespace Trial

/-- The stages of a trial that came to its end, after which it ran the binary or skipped it. -/
def fullHistory (last : Stage) : List Stage :=
  [.start, .dependenciesDeclared, .layoutComputed, .configured, .built, last, .done]

section Course

variable (plan : Plan) (context : Context)

/-- What the build steps of a plan are about, once packages and layout are known. -/
def jobOf (graph : Graph) (layout : Layout) : Job := ⟨plan.tested, layout, graph, context⟩

/-- The ledger of a trial that resolved its packages. -/
def resolvedLedger (graph : Graph) : List Exchange :=
  [.resolve plan.declarations context.target (.ok graph), .notice (.stage .dependenciesDeclared)]

/-- The ledger of a trial that configured its job. -/
def configuredLedger (job : Job) : List Exchange :=
  resolvedLedger plan context job.graph ++
    [.notice (.stage .layoutComputed), .configure job (.ok ()), .notice (.stage .configured)]

/-- The ledger of a trial that built its job. -/
def builtLedger (job : Job) : List Exchange :=
  configuredLedger plan context job ++ [.build job (.ok ()), .notice (.stage .built)]

/-- The ledger of a trial that started its binary. -/
def startedLedger (job : Job) (binary : Path) (answer : Except ToolError Status) : List Exchange :=
  builtLedger plan context job ++ [.isFile binary true, .notice (.execute binary),
    .execute (job.invocation binary) answer]

/-- The ways in which a trial may go: its end, and its ledger. -/
inductive Course : Except TrialError Report → List Exchange → Prop
  | unresolved (e : ResolveError) : Course (.error (.resolution e))
      [.resolve plan.declarations context.target (.error e)]
  | unplaced (graph : Graph) {e : LayoutError} (place : plan.place context.target = .error e) :
      Course (.error (.layout e)) (resolvedLedger plan context graph)
  | unconfigured (graph : Graph) {layout : Layout} {binary : Path}
      (place : plan.place context.target = .ok (layout, binary)) (e : ToolError) :
      Course (.error (.configure e)) (resolvedLedger plan context graph ++
        [.notice (.stage .layoutComputed), .configure (jobOf plan context graph layout) (.error e)])
  | unbuilt (graph : Graph) {layout : Layout} {binary : Path}
      (place : plan.place context.target = .ok (layout, binary)) (e : ToolError) :
      Course (.error (.build e)) (configuredLedger plan context (jobOf plan context graph layout) ++
        [.build (jobOf plan context graph layout) (.error e)])
  | missing (graph : Graph) {layout : Layout} {binary : Path}
      (place : plan.place context.target = .ok (layout, binary))
      (runs : context.verdict.reason? = none) :
      Course (.error (.missingArtifact binary))
        (builtLedger plan context (jobOf plan context graph layout) ++ [.isFile binary false])
  | refused (graph : Graph) {layout : Layout} {binary : Path}
      (place : plan.place context.target = .ok (layout, binary))
      (runs : context.verdict.reason? = none) (e : ToolError) :
      Course (.error (.run e))
        (startedLedger plan context (jobOf plan context graph layout) binary (.error e))
  | failed (graph : Graph) {layout : Layout} {binary : Path}
      (place : plan.place context.target = .ok (layout, binary))
      (runs : context.verdict.reason? = none) {status : Status}
      (discontent : status.success = false) :
      Course (.error (.binaryFailed binary status))
        (startedLedger plan context (jobOf plan context graph layout) binary (.ok status))
  | skipped (graph : Graph) {layout : Layout} {binary : Path}
      (place : plan.place context.target = .ok (layout, binary)) {reason : SkipReason}
      (skips : context.verdict.reason? = some reason) :
      Course (.ok ⟨plan.tested, context.verdict, layout, binary, fullHistory .skippedExecution,
          .skipped reason⟩)
        (builtLedger plan context (jobOf plan context graph layout) ++
          [.notice (.skip context.verdict), .notice (.stage .skippedExecution),
            .notice (.stage .done)])
  | passed (graph : Graph) {layout : Layout} {binary : Path}
      (place : plan.place context.target = .ok (layout, binary))
      (runs : context.verdict.reason? = none) {status : Status} (content : status.success = true) :
      Course (.ok ⟨plan.tested, context.verdict, layout, binary, fullHistory .executed,
          .executed status.exitCode⟩)
        (startedLedger plan context (jobOf plan context graph layout) binary (.ok status) ++
          [.notice (.stage .executed), .notice (.stage .done)])

end Course

variable {σ : Type} (c : Collaborators (StateM σ)) (plan : Plan) (context : Context)

/-- **Every trial takes one of the courses**, and recording it changes nothing. -/
theorem tells_course :
    Tells (run c.recorded plan context) (run c plan context) (Course plan context) := by
  unfold run
  refine Tells.noted_bind fun answer => ?_
  refine Tells.require_bind (fun e he => he ▸ .unresolved e) fun graph hgraph => ?_
  subst hgraph
  refine Tells.enter_bind rfl ?_
  refine Tells.require_bind (fun e he => ?_) fun layout hlayout => ?_
  · exact .unplaced graph (by rw [Plan.place, he]; rfl)
  refine Tells.require_bind (fun e he => ?_) fun binary hbinary => ?_
  · exact .unplaced graph (by rw [Plan.place, hlayout]; simp only [bind, Except.bind, he])
  have place : plan.place context.target = .ok (layout, binary) := by
    rw [Plan.place, hlayout]
    simp only [bind, Except.bind, hbinary]
    rfl
  refine Tells.enter_bind rfl (Tells.noted_bind fun answer => ?_)
  refine Tells.require_bind (fun e he => he ▸ .unconfigured graph place e) fun _ hdone => ?_
  subst hdone
  refine Tells.enter_bind rfl (Tells.noted_bind fun answer => ?_)
  refine Tells.require_bind (fun e he => he ▸ .unbuilt graph place e) fun _ hdone => ?_
  subst hdone
  refine Tells.enter_bind rfl ?_
  unfold conclude
  cases hverdict : context.verdict.reason? with
  | none =>
    simp only [bind_assoc, pure_bind]
    refine Tells.execute_bind (.missing graph place hverdict) (.refused graph place hverdict)
      (fun _ hstatus => .failed graph place hverdict hstatus) fun status hstatus => ?_
    refine Tells.enter_bind rfl (Tells.enter_bind rfl (Tells.pure ?_))
    exact .passed graph place hverdict hstatus
  | some reason =>
    simp only [bind_assoc, pure_bind]
    refine Tells.noted_bind fun _ => Tells.enter_bind rfl (Tells.enter_bind rfl (Tells.pure ?_))
    exact .skipped graph place hverdict

theorem course_run (s : σ) :
    Course plan context (result c plan context s) (ledger c plan context s) := by
  obtain ⟨l, hrun, hcourse⟩ := tells_course c plan context [] s
  have hledger : ledger c plan context s = l := by
    unfold ledger
    rw [hrun]
    rfl
  exact hledger ▸ hcourse

end Trial

end PackageTrial
