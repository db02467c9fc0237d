import PackageTrial.CommandLine.Session
import PackageTrial.Proofs.Trial.Order

/-!
# The exit status of a trial

A trial ends in a status byte (`Trial.statusByte`): of the report when there is one, of the error
otherwise. The byte is zero exactly when the trial succeeded, and tells of the process that failed
as far as a byte can (`Trial.run_exit_contract`). A code goes through four mappings, each with a
fallback of its own; each mapping has its lemma here, and none turns a failure into zero. A session
that comes to its trial ends with this byte (`CommandLine.statusOf_test`).
-/

namespace PackageTrial

/-! ## Codes and bytes -/

namespace CommandLine

theorem toNat_exitByte {code : Int32} (hlow : 0 ≤ code.toInt) (hhigh : code.toInt ≤ 255) :
    ((exitByte code).toNat : Int) = code.toInt := by
  rw [exitByte, if_pos ⟨hlow, hhigh⟩, UInt8.toNat_ofNat']
  omega

theorem exitByte_eq_zero_iff {code : Int32} : exitByte code = 0 ↔ code = 0 := by
  constructor
  · intro h
    by_cases hrange : 0 ≤ code.toInt ∧ code.toInt ≤ 255
    · have hbyte := toNat_exitByte hrange.1 hrange.2
      rw [h] at hbyte
      exact Int32.toInt_inj.1 hbyte.symm
    · rw [exitByte, if_neg hrange] at h
      cases h
  · rintro rfl
    rfl

end CommandLine

theorem Status.success_iff {s : Status} : s.success = true ↔ s.code = some 0 := by
  simp [success]

theorem Status.exitCode_of_code {s : Status} {code : Int32} (h : s.code = some code) :
    s.exitCode = code := by
  rw [exitCode, h]

theorem Status.toInt_exitCode_signaled {signal : Int32} (hlow : 1 ≤ signal.toInt)
    (hhigh : signal.toInt ≤ 127) : (signaled signal).exitCode.toInt = 128 + signal.toInt := by
  change (128 + signal).toInt = _
  rw [Int32.toInt_add, show (128 : Int32).toInt = 128 from rfl]
  exact Int.bmod_eq_of_le (by omega) (by omega)

namespace TrialError

/-- The status of the process that an error is about, when it is about one. -/
def status? : TrialError → Option Status
  | .configure (.failed _ status) | .build (.failed _ status) | .run (.failed _ status)
  | .binaryFailed _ status => some status
  | .configure _ | .build _ | .run _ | .resolution _ | .layout _ | .missingArtifact _
  | .outOfOrder _ => none

theorem processCode_of_status {e : TrialError} {status : Status} (h : e.status? = some status) :
    e.processCode = status.exitCode := by
  unfold status? at h
  split at h <;> cases h <;> rfl

theorem exitCode_ne_zero (e : TrialError) : e.exitCode ≠ 0 := by
  unfold exitCode
  split
  · decide
  · assumption

/-- An error keeps the code of its process, unless that is zero. -/
theorem exitCode_of_status {e : TrialError} {status : Status} (h : e.status? = some status)
    (hne : status.exitCode ≠ 0) : e.exitCode = status.exitCode := by
  rw [exitCode, processCode_of_status h, if_neg hne]

end TrialError

/-! ## The contract -/

namespace Trial

/-- The status byte that tells how a trial ended: of the report's exit code, or of the error's. -/
def statusByte : Except TrialError Report → UInt8
  | .ok report => CommandLine.exitByte report.exitCode
  | .error e => CommandLine.exitByte e.exitCode

/-- The build succeeded, and the binary was not run because the host cannot. -/
def SkippedAfterBuild (context : Context) (l : List Exchange) : Prop :=
  context.canExecute = false ∧ (∃ job, .build job (.ok ()) ∈ l) ∧
    .notice (.skip context.verdict) ∈ l

/-- The binary was run and exited with code zero. -/
def RanWell (l : List Exchange) : Prop :=
  ∃ invocation status, .execute invocation (.ok status) ∈ l ∧ status.code = some 0

/-- What the status byte tells of a trial. -/
structure ExitContract (context : Context) (result : Except TrialError Report)
    (l : List Exchange) : Prop where
  zero_iff_ok : statusByte result = 0 ↔ ∃ report, result = .ok report
  ok_iff : (∃ report, result = .ok report) ↔ SkippedAfterBuild context l ∨ RanWell l
  /-- The code of the process that failed, when it is a byte other than zero. -/
  code : ∀ e status code, result = .error e → e.status? = some status → status.code = some code →
    1 ≤ code.toInt → code.toInt ≤ 255 → ((statusByte result).toNat : Int) = code.toInt
  /-- 128 more than the signal that killed the process. -/
  signal : ∀ e signal, result = .error e → e.status? = some (.signaled signal) →
    1 ≤ signal.toInt → signal.toInt ≤ 127 → ((statusByte result).toNat : Int) = 128 + signal.toInt
  /-- Any other failure, with whatever code or signal, is no success either. -/
  error_ne_zero : ∀ e, result = .error e → statusByte result ≠ 0

theorem statusByte_error_ne_zero (e : TrialError) : statusByte (.error e) ≠ 0 :=
  fun h => e.exitCode_ne_zero (CommandLine.exitByte_eq_zero_iff.1 h)

theorem toNat_statusByte_of_status {e : TrialError} {status : Status}
    (h : e.status? = some status) (hlow : 1 ≤ status.exitCode.toInt)
    (hhigh : status.exitCode.toInt ≤ 255) :
    ((statusByte (.error e)).toNat : Int) = status.exitCode.toInt := by
  have hne : status.exitCode ≠ 0 := by
    rintro hzero
    rw [hzero] at hlow
    exact absurd hlow (by decide)
  rw [statusByte, TrialError.exitCode_of_status h hne]
  exact CommandLine.toNat_exitByte (by omega) hhigh

namespace Course

variable {plan : Plan} {context : Context} {result : Except TrialError Report} {l : List Exchange}

theorem statusByte_of_ok (h : Course plan context result l) {report : Report}
    (hresult : result = .ok report) : statusByte result = 0 := by
  cases h with
  | skipped graph place skips => rfl
  | passed graph place runs content =>
    rw [statusByte, Report.exitCode, Status.exitCode_of_code (Status.success_iff.1 content)]
    rfl
  | _ => cases hresult

theorem ok_iff (h : Course plan context result l) :
    (∃ report, result = .ok report) ↔ SkippedAfterBuild context l ∨ RanWell l := by
  constructor
  · rintro ⟨report, rfl⟩
    cases h with
    | @skipped graph layout binary place reason skips =>
      exact .inl ⟨canExecute_eq_false skips, ⟨jobOf plan context graph layout, by
        simp [builtLedger]⟩, by simp⟩
    | @passed graph layout binary place runs status content =>
      refine .inr ⟨(jobOf plan context graph layout).invocation binary, status, ?_,
        Status.success_iff.1 content⟩
      simp [startedLedger]
  · rintro (⟨-, -, hskip⟩ | ⟨invocation, status, hrun, hcode⟩)
    · cases h with
      | skipped | passed => exact ⟨_, rfl⟩
      | _ => simp [startedLedger, builtLedger, configuredLedger, resolvedLedger] at hskip
    · cases h with
      | skipped | passed => exact ⟨_, rfl⟩
      | failed graph place runs discontent =>
        simp only [startedLedger, builtLedger, configuredLedger, resolvedLedger] at hrun
        obtain ⟨-, rfl⟩ : invocation = _ ∧ status = _ := by simpa using hrun
        rw [Status.success_iff.2 hcode] at discontent
        cases discontent
      | _ => simp [startedLedger, builtLedger, configuredLedger, resolvedLedger] at hrun

end Course

/-- **The exit contract of a trial**: whatever those who act for it answer, its status byte is zero
exactly when it succeeded, and else that of the process that failed where a byte can tell it. -/
theorem run_exit_contract {σ : Type} (c : Collaborators (StateM σ)) (plan : Plan)
    (context : Context) (s : σ) :
    ExitContract context (result c plan context s) (ledger c plan context s) := by
  have h := course_run c plan context s
  refine ⟨⟨fun hzero => ?_, fun ⟨_, hok⟩ => h.statusByte_of_ok hok⟩, h.ok_iff,
    fun e status code he hstatus hcode hlow hhigh => ?_, fun e signal he hstatus hlow hhigh => ?_,
    fun e he => he ▸ statusByte_error_ne_zero e⟩
  · cases hresult : result c plan context s with
    | ok report => exact ⟨report, rfl⟩
    | error e => exact absurd (hresult ▸ hzero) (statusByte_error_ne_zero e)
  · have hexit := Status.exitCode_of_code hcode
    rw [he, ← hexit]
    exact toNat_statusByte_of_status hstatus (hexit ▸ hlow) (hexit ▸ hhigh)
  · have hexit := Status.toInt_exitCode_signaled hlow hhigh
    rw [he, ← hexit]
    exact toNat_statusByte_of_status hstatus (by omega) (by omega)

end Trial

/-! ## Sessions -/

namespace CommandLine

/-- The status with which a session ends. -/
def statusOf : Except Failure Answer → UInt8
  | .ok answer => answer.1
  | .error failure => failure.exit

section Sessions

variable {α β : Type} {m : Machine}

theorem run_bind_of_ok {x : Session α} {f : α → Session β} {a : α} {m' : Machine}
    (h : x.run.run m = (.ok a, m')) : (x >>= f).run.run m = (f a).run.run m' := by
  simp only [ExceptT.run_bind, StateT.run_bind, h]
  rfl

theorem run_liftM_bind {x : StateM Machine α} {f : α → Session β} :
    ((liftM x : Session α) >>= f).run.run m = (f (x.run m).1).run.run (x.run m).2 := rfl

/-- **A session that comes to its trial ends with the status byte of the trial.** -/
theorem statusOf_test {locale : Locale} {args : Arguments} {tested : Reference} {c : Configuration}
    {context : Context} {plan : Plan}
    (htested : (testedReference locale args.reference).run.run m = (.ok tested, m))
    (hc : (loadConfiguration locale args.configuration).run.run m = (.ok c, m))
    (hcontext : (contextOf locale c args).run.run m = (.ok context, m))
    (hplan : c.plan tested = .ok plan) (hformat : args.format = .text) :
    statusOf ((test locale args).run.run m).1 = Trial.statusByte
      (Trial.result (Machine.collaborators c.repositoryRoot (toolOf c)) plan context m) := by
  unfold test
  rw [run_bind_of_ok htested, run_bind_of_ok hc, run_bind_of_ok hcontext, hplan]
  simp only [require, pure_bind]
  rw [run_liftM_bind, hformat, Trial.result]
  split
  · rename_i h
    rw [h]
    rfl
  · rename_i h
    rw [h]
    rfl

end Sessions

end CommandLine

end PackageTrial
