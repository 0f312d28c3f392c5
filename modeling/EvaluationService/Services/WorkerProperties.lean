import EvaluationService.Services.Worker
import EvaluationService.Storage.History

/-!
What ends the worker loop. An exception that `process_claimed` raises is not caught by
the loop, so the first job whose evaluation raises or whose completion is refused ends
it; without such a job the loop ends only after `stop` and claims job after job.
-/

set_option autoImplicit false

namespace EvaluationService

open Foundation

def WorkerStep (staleJobSeconds : Int) (worker : WorkerState) (signal : Signal)
    (next : WorkerState) : Prop :=
  ∃ after, worker.next staleJobSeconds signal = some after ∧ next = after.1

abbrev WorkerTrace : Type := List (Transition WorkerState Signal)

/-- `recover_stale_running` and `claim_next_queued` return, whatever they return. -/
def Signal.pollReturns : Signal → Bool
  | .replied _ (.count (.error _)) => false
  | .replied _ (.claim (.error _)) => false
  | _ => true

/-- The step ends the recording of a failure: of an evaluation that raised, or of a
completion that was refused. -/
def recordsFailure (taken : Transition WorkerState Signal) : Bool :=
  match taken.source.phase, taken.event with
  | .processing (.recordingFailure _ _ _), .replied _ (.job _) => true
  | _, _ => false

theorem recordsFailure_iff {taken : Transition WorkerState Signal} :
    recordsFailure taken ↔ ∃ jobId job error now outcome,
      taken.source.phase = .processing (.recordingFailure jobId job error) ∧
        taken.event = .replied now (.job outcome) := by
  unfold recordsFailure
  constructor
  · intro records
    split at records
    · rename_i source event
      exact ⟨_, _, _, _, _, source, event⟩
    · cases records
  · intro records
    obtain ⟨jobId, job, error, now, outcome, source, event⟩ := records
    rw [source, event]

def EndsJob (taken : Transition WorkerState Signal) : Prop :=
  (∃ task, taken.source.phase = .processing task) ∧ ∀ task, taken.target.phase ≠ .processing task

/-- From here the loop checks, recovers and claims, and processes the job it is given. -/
def ClaimsNext (staleJobSeconds : Int) (worker : WorkerState) : Prop :=
  ∀ checkedAt recoveredAt claimedAt recovered job, ∃ trace : WorkerTrace,
    trace.map (·.event) = [.resumed checkedAt, .replied recoveredAt (.count (.ok recovered)),
      .replied claimedAt (.claim (.ok (some job)))] ∧
    Run (WorkerStep staleJobSeconds) worker trace
      { worker with phase := .processing (ServiceState.processClaimed claimedAt job).1 }

/-- While `stop` has not been called, the worker stays in its loop and claims another job
after each one. -/
structure OutlivesJobs (staleJobSeconds : Int) (trace : WorkerTrace) : Prop where
  stays : ∀ taken ∈ trace, taken.source.stopping = false →
    ∀ outcome, taken.target.phase ≠ .left outcome
  claims : ∀ taken ∈ trace, taken.source.stopping = false → EndsJob taken →
    ClaimsNext staleJobSeconds taken.target

variable {staleJobSeconds : Int} {trace : WorkerTrace} {worker next : WorkerState}
variable {signal : Signal}

theorem claimsNext_of_polling (polling : worker.phase = .polling) (goesOn : worker.stopping = false) :
    ClaimsNext staleJobSeconds worker := by
  intro checkedAt recoveredAt claimedAt recovered job
  obtain ⟨stopping, phase⟩ := worker
  dsimp only at polling goesOn
  subst polling goesOn
  have checks : WorkerStep staleJobSeconds ⟨false, .polling⟩ (.resumed checkedAt)
      ⟨false, .recovering (checkedAt - staleJobSeconds)⟩ := ⟨_, rfl, rfl⟩
  have recovers : WorkerStep staleJobSeconds ⟨false, .recovering (checkedAt - staleJobSeconds)⟩
      (.replied recoveredAt (.count (.ok recovered))) ⟨false, .claiming⟩ := by
    cases recovered with
    | zero => exact ⟨_, rfl, rfl⟩
    | succ count => exact ⟨_, rfl, rfl⟩
  have claims : WorkerStep staleJobSeconds ⟨false, .claiming⟩
      (.replied claimedAt (.claim (.ok (some job))))
      ⟨false, .processing (ServiceState.processClaimed claimedAt job).1⟩ := ⟨_, rfl, rfl⟩
  exact ⟨_, rfl, ((Run.single checks).append (.single recovers)).append (.single claims)⟩

/-- The recording of a failure ends the loop, whether `set_failed` was accepted or not. -/
theorem left_of_recordsFailure {taken : Transition WorkerState Signal}
    (stepped : WorkerStep staleJobSeconds taken.source taken.event taken.target)
    (records : recordsFailure taken) : ∃ error, taken.target.phase = .left (.error error) := by
  obtain ⟨⟨stopping, phase⟩, event, target⟩ := taken
  obtain ⟨jobId, job, error, now, outcome, source, isReply⟩ := recordsFailure_iff.mp records
  obtain ⟨after, ran, same⟩ := stepped
  dsimp only at source isReply ran same ⊢
  subst source isReply same
  cases outcome with
  | error _ =>
      obtain rfl := Option.some.inj ran
      exact ⟨error, rfl⟩
  | ok _ =>
      obtain rfl := Option.some.inj ran
      exact ⟨error, rfl⟩

/-- A worker that processes a job is in one of the stages of `process_claimed`. -/
def Attempting : WorkerPhase → Prop
  | .processing (.loading _) | .processing (.starting _ _) | .processing (.finished _) => False
  | _ => True

theorem Attempting.move {stopping : Bool} {phase : WorkerPhase} {after : WorkerPhase × List Emission}
    (attempting : Attempting phase)
    (move : phase.Move staleJobSeconds stopping signal after) : Attempting after.1 := by
  cases move with
  | stopped _ => trivial
  | polled _ => trivial
  | slept => trivial
  | @recovered _ _ outcome =>
      rcases outcome with _ | _ | _
      · trivial
      · trivial
      · trivial
  | @claimed _ outcome =>
      rcases outcome with _ | _ | _
      · trivial
      · trivial
      · trivial
  | processed moved =>
      cases moved with
      | loaded => exact attempting.elim
      | started => exact attempting.elim
      | @scored _ _ outcome => cases outcome <;> trivial
      | @succeeded _ _ _ _ outcome => cases outcome <;> trivial
      | @failed _ _ _ _ outcome => cases outcome <;> trivial

theorem processing_stays (phase : WorkerPhase) (task : ServiceState) :
    (∀ outcome, WorkerPhase.processing task ≠ .left outcome) ∧
      ((∃ current, phase = .processing current) →
        (∀ current, WorkerPhase.processing task ≠ .processing current) →
        WorkerPhase.processing task = .polling) := by
  refine ⟨?_, fun _ other => absurd rfl (other task)⟩
  intro outcome same
  cases same

/-- Without a failure to record, the loop goes on: a job that ends leads back to its head. -/
theorem stays_of_move {phase : WorkerPhase} {after : WorkerPhase × List Emission}
    (attempting : Attempting phase) (returns : signal.pollReturns)
    (succeeds : ∀ jobId job error, phase ≠ .processing (.recordingFailure jobId job error))
    (move : phase.Move staleJobSeconds false signal after) :
    (∀ outcome, after.1 ≠ .left outcome) ∧
      ((∃ task, phase = .processing task) → (∀ task, after.1 ≠ .processing task) →
        after.1 = .polling) := by
  cases move with
  | stopped stopping => cases stopping
  | polled _ => exact ⟨by simp, by simp⟩
  | slept => exact ⟨by simp, by simp⟩
  | @recovered _ _ outcome =>
      rcases outcome with error | recovered | recovered
      · cases returns
      · exact ⟨by simp [WorkerPhase.afterRecover], by simp⟩
      · exact ⟨by simp [WorkerPhase.afterRecover], by simp⟩
  | @claimed _ outcome =>
      rcases outcome with error | job | job
      · cases returns
      · exact ⟨by simp [WorkerPhase.afterClaim], by simp⟩
      · exact ⟨by simp [WorkerPhase.afterClaim], by simp⟩
  | processed moved =>
      cases moved with
      | loaded => exact attempting.elim
      | started => exact attempting.elim
      | @scored _ _ outcome =>
          cases outcome with
          | error _ => exact processing_stays _ _
          | ok _ => exact processing_stays _ _
      | @succeeded _ _ _ _ outcome =>
          cases outcome with
          | error _ => exact processing_stays _ _
          | ok _ =>
              refine ⟨?_, fun _ _ => rfl⟩
              intro outcome same
              cases same
      | failed => exact absurd rfl (succeeds _ _ _)

/-- The states of a run that records no failure before `stop`. -/
def InLoop (worker : WorkerState) : Prop :=
  Attempting worker.phase ∧ (worker.stopping = false → ∀ outcome, worker.phase ≠ .left outcome)

theorem InLoop.step (inLoop : InLoop worker) (returns : signal.pollReturns)
    (unrecorded : recordsFailure ⟨worker, signal, next⟩ → worker.stopping = true)
    (stepped : WorkerStep staleJobSeconds worker signal next) :
    InLoop next ∧ (worker.stopping = false → (∀ outcome, next.phase ≠ .left outcome) ∧
      (EndsJob ⟨worker, signal, next⟩ → next.phase = .polling ∧ next.stopping = false)) := by
  obtain ⟨attempting, stays⟩ := inLoop
  obtain ⟨after, ran, rfl⟩ := stepped
  rcases WorkerState.next_cases ran with stopped | ⟨⟨phase, emitted⟩, moved, move⟩
  · -- `stop` was called: nothing else has changed
    refine ⟨?_, fun goesOn => ⟨?_, ?_⟩⟩
    · rw [stopped]
      exact ⟨attempting, fun goesOn => by cases goesOn⟩
    · rw [stopped]
      exact stays goesOn
    · intro ends
      obtain ⟨⟨task, processing⟩, other⟩ := ends
      dsimp only at processing other
      rw [stopped] at other
      exact absurd processing (other task)
  · rw [moved] at unrecorded ⊢
    have loops : worker.stopping = false → (∀ outcome, phase ≠ .left outcome) ∧
        ((∃ task, worker.phase = .processing task) → (∀ task, phase ≠ .processing task) →
          phase = .polling) := by
      intro goesOn
      rw [goesOn] at move
      refine stays_of_move attempting returns ?_ move
      intro jobId job error recording
      have replied : ∃ now outcome, signal = .replied now (.job outcome) := by
        rw [recording] at move
        cases move with
        | processed failed =>
            cases failed with
            | failed => exact ⟨_, _, rfl⟩
      obtain ⟨now, outcome, isReply⟩ := replied
      have stopping := unrecorded
        (recordsFailure_iff.mpr ⟨jobId, job, error, now, outcome, recording, isReply⟩)
      rw [goesOn] at stopping
      cases stopping
    refine ⟨⟨attempting.move move, fun goesOn => (loops goesOn).1⟩, ?_⟩
    intro goesOn
    refine ⟨(loops goesOn).1, ?_⟩
    intro ends
    exact ⟨(loops goesOn).2 ends.1 ends.2, goesOn⟩

theorem inLoop_of_run (run : Run (WorkerStep staleJobSeconds) .started trace worker)
    (returns : ∀ taken ∈ trace, taken.event.pollReturns)
    (unrecorded : ∀ taken ∈ trace, recordsFailure taken → taken.source.stopping = true) :
    InLoop worker := by
  refine run.preserves_along InLoop (fun taken => taken.event.pollReturns ∧
    (recordsFailure taken → taken.source.stopping = true)) ?_ ⟨trivial, ?_⟩ ?_
  · intro state signal next stepped allowed inLoop
    exact (inLoop.step allowed.1 allowed.2 stepped).1
  · intro _ outcome same
    cases same
  · intro taken member
    exact ⟨returns taken member, unrecorded taken member⟩

theorem outlivesJobs_of_unrecorded (run : Run (WorkerStep staleJobSeconds) .started trace worker)
    (returns : ∀ taken ∈ trace, taken.event.pollReturns)
    (unrecorded : ∀ taken ∈ trace, recordsFailure taken → taken.source.stopping = true) :
    OutlivesJobs staleJobSeconds trace := by
  have step : ∀ taken ∈ trace, taken.source.stopping = false →
      (∀ outcome, taken.target.phase ≠ .left outcome) ∧
        (EndsJob taken → taken.target.phase = .polling ∧ taken.target.stopping = false) := by
    intro taken member
    obtain ⟨earlier, later, rfl⟩ := List.append_of_mem member
    obtain ⟨prior, stepped, _⟩ := run.around
    have inLoop := inLoop_of_run prior
      (fun other among => returns other (List.mem_append_left _ among))
      fun other among => unrecorded other (List.mem_append_left _ among)
    exact (inLoop.step (returns taken member) (unrecorded taken member) stepped).2
  constructor
  · intro taken member goesOn
    exact (step taken member goesOn).1
  · intro taken member goesOn ends
    obtain ⟨polling, stillGoesOn⟩ := (step taken member goesOn).2 ends
    exact claimsNext_of_polling polling stillGoesOn

/-- The loop outlives its jobs exactly as long as it records no failure before `stop`. -/
theorem outlives_jobs_iff (staleJobSeconds : Int) (trace : WorkerTrace) (worker : WorkerState)
    (run : Run (WorkerStep staleJobSeconds) .started trace worker)
    (returns : ∀ taken ∈ trace, taken.event.pollReturns) :
    OutlivesJobs staleJobSeconds trace ↔
      ∀ taken ∈ trace, recordsFailure taken → taken.source.stopping = true := by
  constructor
  · intro outlives taken member records
    obtain ⟨error, left⟩ := left_of_recordsFailure (Run.step_of_mem run member) records
    by_contra goesOn
    exact outlives.stays taken member (by simpa using goesOn) _ left
  · exact outlivesJobs_of_unrecorded run returns

def WorkerState.replay (staleJobSeconds : Int) : WorkerState → List Signal → WorkerTrace × WorkerState
  | worker, [] => ([], worker)
  | worker, signal :: rest =>
      match worker.next staleJobSeconds signal with
      | none => ([], worker)
      | some after =>
          let (trace, final) := replay staleJobSeconds after.1 rest
          (⟨worker, signal, after.1⟩ :: trace, final)

theorem WorkerState.run_replay (staleJobSeconds : Int) (worker : WorkerState) (signals : List Signal) :
    Run (WorkerStep staleJobSeconds) worker (worker.replay staleJobSeconds signals).1
      (worker.replay staleJobSeconds signals).2 := by
  induction signals generalizing worker with
  | nil => exact .nil
  | cons signal rest ih =>
      unfold replay
      cases ran : worker.next staleJobSeconds signal with
      | none => exact .nil
      | some after => exact (Run.single ⟨after, ran, rfl⟩).append (ih after.1)

def demoSignals (outcome : Except Exn EvaluationResult) : List Signal :=
  [.resumed 0, .replied 1 (.count (.ok 0)), .replied 2 (.claim (.ok (some (demoJob 7 2)))),
    .scored outcome, .replied 3 (.job (.ok (demoJob 7 2)))]

/-- The loop outlives a job that succeeds and does not outlive one whose evaluation times
out. -/
theorem outlives_jobs_iff_one_job :
    OutlivesJobs 300 (WorkerState.started.replay 300 (demoSignals (.ok demoResult))).1 ∧
      ¬ OutlivesJobs 300 (WorkerState.started.replay 300 (demoSignals (.error .timeoutError))).1 := by
  have succeeds := WorkerState.run_replay 300 .started (demoSignals (.ok demoResult))
  have timesOut := WorkerState.run_replay 300 .started (demoSignals (.error .timeoutError))
  constructor
  · exact (outlives_jobs_iff 300 _ _ succeeds (by decide)).mpr (by decide)
  · intro outlives
    have unrecorded := (outlives_jobs_iff 300 _ _ timesOut (by decide)).mp outlives
    exact absurd unrecorded (by decide)

/-- One evaluation that times out ends a loop that nobody has stopped. -/
theorem not_outlivesJobs :
    ¬ ∀ (staleJobSeconds : Int) (trace : WorkerTrace) (worker : WorkerState),
      Run (WorkerStep staleJobSeconds) .started trace worker →
      (∀ taken ∈ trace, taken.event.pollReturns) → OutlivesJobs staleJobSeconds trace := by
  intro outlives
  have run := WorkerState.run_replay 300 .started (demoSignals (.error .timeoutError))
  have stays := (outlives 300 _ _ run (by decide)).stays
  obtain ⟨last, member, goesOn, outcome, left⟩ : ∃ taken ∈
      (WorkerState.started.replay 300 (demoSignals (.error .timeoutError))).1,
      taken.source.stopping = false ∧ ∃ outcome, taken.target.phase = .left outcome :=
    ⟨_, List.getLast_mem (by decide), rfl, _, rfl⟩
  exact stays last member goesOn outcome left

/-! ## Runs in which every job succeeds -/

def failsJob (taken : Transition WorkerState Signal) : Bool :=
  match taken.source.phase, taken.event with
  | .processing (.scoring _ _), .scored (.error _) => true
  | .processing (.succeeding _ _ _), .replied _ (.job (.error _)) => true
  | _, _ => false

def Succeeding : WorkerPhase → Prop
  | .processing (.recordingFailure _ _ _) => False
  | phase => Attempting phase

theorem Succeeding.step (succeeding : Succeeding worker.phase)
    (succeeds : failsJob ⟨worker, signal, next⟩ = false)
    (stepped : WorkerStep staleJobSeconds worker signal next) : Succeeding next.phase := by
  obtain ⟨after, ran, rfl⟩ := stepped
  rcases WorkerState.next_cases ran with stopped | ⟨moved, same, move⟩
  · rw [stopped]
    exact succeeding
  · rw [same]
    obtain ⟨stopping, phase⟩ := worker
    dsimp only at succeeding move ⊢
    cases move with
    | stopped _ => trivial
    | polled _ => trivial
    | slept => trivial
    | @recovered _ _ outcome => rcases outcome with _ | _ | _ <;> trivial
    | @claimed _ outcome => rcases outcome with _ | _ | _ <;> trivial
    | processed advanced =>
        cases advanced with
        | loaded => exact succeeding.elim
        | started => exact succeeding.elim
        | failed => exact succeeding.elim
        | @scored _ _ outcome =>
            cases outcome with
            | error _ => cases succeeds
            | ok _ => trivial
        | @succeeded _ _ _ _ outcome =>
            cases outcome with
            | error _ => cases succeeds
            | ok _ => trivial

theorem succeeding_of_run (run : Run (WorkerStep staleJobSeconds) .started trace worker)
    (succeeds : ∀ taken ∈ trace, failsJob taken = false) : Succeeding worker.phase := by
  refine run.preserves_along (fun worker : WorkerState => Succeeding worker.phase)
    (fun taken => failsJob taken = false) ?_ trivial succeeds
  intro state signal next stepped allowed succeeding
  exact succeeding.step allowed stepped

/-- A worker whose jobs all succeed stays in its loop until `stop`. -/
theorem outlivesJobs_of_successes (run : Run (WorkerStep staleJobSeconds) .started trace worker)
    (returns : ∀ taken ∈ trace, taken.event.pollReturns)
    (succeeds : ∀ taken ∈ trace, failsJob taken = false) :
    OutlivesJobs staleJobSeconds trace := by
  refine outlivesJobs_of_unrecorded run returns ?_
  intro taken member records
  obtain ⟨earlier, later, rfl⟩ := List.append_of_mem member
  obtain ⟨prior, _, _⟩ := run.around
  have succeeding := succeeding_of_run prior fun other among =>
    succeeds other (List.mem_append_left _ among)
  obtain ⟨jobId, job, error, now, outcome, recording, _⟩ := recordsFailure_iff.mp records
  rw [recording] at succeeding
  exact succeeding.elim

end EvaluationService
