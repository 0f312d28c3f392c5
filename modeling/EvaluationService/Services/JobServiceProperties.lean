import EvaluationService.Services.JobService
import EvaluationService.Storage.Factory
import EvaluationService.Storage.History

/-!
A refused start. `process` raises the refusal of `set_running` inside the block that
records failures, so a job that another worker runs is failed by a start that was never
made; only a finished job is left alone.
-/

set_option autoImplicit false

namespace EvaluationService

open Foundation

variable {repository : JobRepository} {release : Option DateTime → Option DateTime}
variable {evaluator : EvaluatorBehavior} {store next : repository.State}
variable {jobId : UUID} {job : EvaluationJob}

def Processes (repository : JobRepository) (evaluator : EvaluatorBehavior) (store : repository.State)
    (jobId : UUID) (outcome : Except Exn Unit) (final : repository.State) : Prop :=
  ∃ trace, Run (ServiceStep repository evaluator) (store, .loading jobId) trace
    (final, .finished outcome)

/-- `process` ends, and however it ends it has raised the refusal and changed nothing. -/
structure RefusedCleanly (repository : JobRepository) (evaluator : EvaluatorBehavior)
    (store : repository.State) (jobId : UUID) : Prop where
  ends : ∃ outcome final, Processes repository evaluator store jobId outcome final
  refused : ∀ outcome final, Processes repository evaluator store jobId outcome final →
    outcome = .error .invalidStateTransitionError ∧
      repository.job? final jobId = repository.job? store jobId

/-- What `process` leaves of a job it could not start. -/
def afterRefusal (release : Option DateTime → Option DateTime) (now : DateTime)
    (job : EvaluationJob) : EvaluationJob :=
  if job.status ∈ [JobStatus.queued, .running] then
    job.failed release now ServiceState.failureMessage
  else job

/-- The stages of `process` on a job that is not queued. -/
def RefusedStage (repository : JobRepository) (release : Option DateTime → Option DateTime)
    (initial : repository.State) (jobId : UUID) (job : EvaluationJob) :
    repository.State × ServiceState → Prop
  | (store, .loading current) => current = jobId ∧ repository.job? store = repository.job? initial
  | (store, .starting current held) => current = jobId ∧ held = job ∧
      repository.job? store = repository.job? initial
  | (store, .recordingFailure _ held error) => held = job ∧
      error = .invalidStateTransitionError ∧ repository.job? store = repository.job? initial
  | (store, .finished outcome) => outcome = .error .invalidStateTransitionError ∧
      ∃ now, repository.job? store jobId = some (afterRefusal release now job)
  | _ => False

/-- What an answered call leaves behind. -/
theorem Heard.effect_of_call (implements : Implements repository release)
    {call? : Option RepositoryCall} {call : RepositoryCall} {request? : Option EvaluationRequest}
    {now : DateTime} {reply : RepositoryReply}
    (heard : Heard repository evaluator call? request? store (.replied now reply) next)
    (waits : call? = some call) (notCreated : ∀ job, call ≠ .create job) :
    Effect release now (repository.job? store) call reply (repository.job? next) := by
  obtain ⟨_, awaited, stepped⟩ := heard
  rw [waits] at awaited
  cases awaited
  exact implements.step (fun job create => absurd create (notCreated job)) stepped

/-- The call that `process` waits for is never a creation, so its reply comes with an effect. -/
theorem Heard.effect (implements : Implements repository release) {state : ServiceState}
    {now : DateTime} {reply : RepositoryReply}
    (heard : Heard repository evaluator state.call? state.scoring? store (.replied now reply) next) :
    ∃ call, state.call? = some call ∧
      Effect release now (repository.job? store) call reply (repository.job? next) := by
  have ⟨call, waits, _⟩ := heard
  refine ⟨call, waits, heard.effect_of_call implements waits ?_⟩
  intro job create
  subst create
  cases state <;> cases waits

theorem RefusedStage.step (implements : Implements repository release)
    (stored : repository.job? store jobId = some job) (notQueued : job.status ≠ .queued)
    {current after : repository.State × ServiceState} {signal : Signal}
    (stage : RefusedStage repository release store jobId job current)
    (taken : ServiceStep repository evaluator current signal after) :
    RefusedStage repository release store jobId job after := by
  obtain ⟨before, state⟩ := current
  obtain ⟨final, following⟩ := after
  obtain ⟨⟨reached, ran, rfl⟩, heard⟩ := taken
  dsimp only at ran heard
  cases ServiceState.move_of_next ran with
  | scored => exact stage.elim
  | succeeded => exact stage.elim
  | loaded =>
      obtain ⟨rfl, same⟩ := stage
      obtain ⟨call, waits, effect⟩ := heard.effect implements
      cases waits
      rw [same] at effect
      obtain ⟨replied, kept⟩ := effect.get_eq
      rw [stored] at replied
      cases replied
      exact ⟨rfl, rfl, kept⟩
  | started =>
      obtain ⟨rfl, rfl, same⟩ := stage
      obtain ⟨call, waits, effect⟩ := heard.effect implements
      cases waits
      rw [same] at effect
      rcases effect.setRunning stored with ⟨allowed, _, _⟩ | ⟨_, replied, kept⟩
      · exact absurd (by simpa using allowed) notQueued
      · cases replied
        exact ⟨rfl, rfl, kept⟩
  | @failed _ _ _ now _ =>
      obtain ⟨rfl, rfl, same⟩ := stage
      obtain ⟨call, waits, effect⟩ := heard.effect implements
      cases waits
      have identified := implements.identified stored
      rw [same, identified] at effect
      rcases effect.setFailed stored with ⟨allowed, replied, updated⟩ | ⟨refused, replied, kept⟩
      · cases replied
        refine ⟨rfl, now, ?_⟩
        rw [updated, Function.update_self, afterRefusal, if_pos allowed]
      · cases replied
        refine ⟨rfl, 0, ?_⟩
        rw [kept, stored, afterRefusal, if_neg refused]

theorem Processes.refused (implements : Implements repository release)
    (stored : repository.job? store jobId = some job) (notQueued : job.status ≠ .queued)
    {outcome : Except Exn Unit} {final : repository.State}
    (processed : Processes repository evaluator store jobId outcome final) :
    outcome = .error .invalidStateTransitionError ∧
      ∃ now, repository.job? final jobId = some (afterRefusal release now job) := by
  obtain ⟨trace, run⟩ := processed
  refine run.preserves (RefusedStage repository release store jobId job) ?_ ⟨rfl, rfl⟩
  intro current signal after taken stage
  exact stage.step implements stored notQueued taken

theorem RefusedStage.ends (implements : Implements repository release)
    (stored : repository.job? store jobId = some job) (notQueued : job.status ≠ .queued)
    {current : repository.State × ServiceState}
    (stage : RefusedStage repository release store jobId job current) :
    ∃ outcome final trace, Run (ServiceStep repository evaluator) current trace
      (final, .finished outcome) := by
  obtain ⟨before, state⟩ := current
  induction bound : state.remaining using Nat.strong_induction_on generalizing before state with
  | _ count ih =>
      have goesOn : ∀ call, state.call? = some call → ∃ outcome final trace,
          Run (ServiceStep repository evaluator) (before, state) trace (final, .finished outcome) := by
        intro call waits
        obtain ⟨signal, ⟨next, following⟩, taken⟩ := exists_serviceStep repository evaluator before waits
        obtain ⟨reached, ran, same⟩ := taken.1
        have less := (ServiceState.move_of_next ran).remaining_lt
        dsimp only at same
        rw [← same, bound] at less
        obtain ⟨outcome, final, trace, rest⟩ :=
          ih _ less next following (stage.step implements stored notQueued taken) rfl
        exact ⟨outcome, final, _, (Run.single taken).append rest⟩
      cases state with
      | finished outcome => exact ⟨outcome, before, [], .nil⟩
      | scoring _ _ => exact stage.elim
      | loading _ => exact goesOn _ rfl
      | starting _ _ => exact goesOn _ rfl
      | succeeding _ _ _ => exact goesOn _ rfl
      | recordingFailure _ _ _ => exact goesOn _ rfl

theorem not_refusedCleanly_of_running (implements : Implements repository release)
    (evaluator : EvaluatorBehavior) (stored : repository.job? store jobId = some job)
    (running : job.status = .running) :
    ¬ RefusedCleanly repository evaluator store jobId := by
  intro clean
  have notQueued : job.status ≠ .queued := by
    rw [running]
    decide
  obtain ⟨outcome, final, processed⟩ := clean.ends
  obtain ⟨_, now, left⟩ := processed.refused implements stored notQueued
  obtain ⟨_, kept⟩ := clean.refused outcome final processed
  rw [left, stored, Option.some_inj] at kept
  have status := congrArg EvaluationJob.status kept
  rw [afterRefusal, if_pos (by simp [running]), running] at status
  cases status

/-- A refused start leaves the job alone exactly when the job is not running. -/
theorem refused_start_iff (backend : StorageBackend) (evaluator : EvaluatorBehavior)
    (store : (buildRepository backend).State) (jobId : UUID) (job : EvaluationJob)
    (stored : (buildRepository backend).job? store jobId = some job)
    (notQueued : job.status ≠ .queued) :
    RefusedCleanly (buildRepository backend) evaluator store jobId ↔ job.status ≠ .running := by
  have implements := buildRepository_implements backend
  constructor
  · intro clean running
    exact not_refusedCleanly_of_running implements evaluator stored running clean
  · intro notRunning
    constructor
    · have stage : RefusedStage (buildRepository backend) backend.release store jobId job
          (store, .loading jobId) := ⟨rfl, rfl⟩
      exact stage.ends implements stored notQueued
    · intro outcome final processed
      obtain ⟨raised, now, left⟩ := processed.refused implements stored notQueued
      refine ⟨raised, ?_⟩
      rw [left, stored, afterRefusal, if_neg (by simp [notQueued, notRunning])]

/-- A second `process` of a succeeded job raises and changes nothing; of a job that a worker
has claimed it does not leave the job alone. -/
theorem refused_start_iff_second_call :
    let repository := buildRepository .memory
    let calls : List (DateTime × RepositoryCall) := [(0, .create (demoJob 7 2)), (1, .claimNextQueued)]
    let claimed := (repository.replay repository.empty calls).2
    let succeeded := (repository.perform claimed 2 (.setSucceeded 7 demoResult)).2
    RefusedCleanly repository Evaluator.arbitrary succeeded 7 ∧
      ¬ RefusedCleanly repository Evaluator.arbitrary claimed 7 := by
  intro repository calls claimed succeeded
  constructor
  · exact (refused_start_iff .memory Evaluator.arbitrary succeeded 7 _ rfl (by decide)).mpr (by decide)
  · intro clean
    exact (refused_start_iff .memory Evaluator.arbitrary claimed 7 _ rfl (by decide)).mp clean (by decide)

def RefusesCleanly (repository : JobRepository) : Prop :=
  ∀ (evaluator : EvaluatorBehavior) (store : repository.State) (jobId : UUID) (job : EvaluationJob),
    repository.job? store jobId = some job → job.status ≠ .queued →
    RefusedCleanly repository evaluator store jobId

/-- Neither repository keeps a claimed job from being failed by a start that it refused. -/
theorem not_refusesCleanly :
    ¬ RefusesCleanly (buildRepository .memory) ∧ ¬ RefusesCleanly (buildRepository .postgres) := by
  let calls : List (DateTime × RepositoryCall) := [(0, .create (demoJob 7 2)), (1, .claimNextQueued)]
  constructor
  · intro cleanly
    refine not_refusedCleanly_of_running (buildRepository_implements .memory) Evaluator.arbitrary rfl
      (by decide) (cleanly Evaluator.arbitrary ((buildRepository .memory).replay
        (buildRepository .memory).empty calls).2 7 _ rfl (by decide))
  · intro cleanly
    refine not_refusedCleanly_of_running (buildRepository_implements .postgres) Evaluator.arbitrary rfl
      (by decide) (cleanly Evaluator.arbitrary ((buildRepository .postgres).replay
        (buildRepository .postgres).empty calls).2 7 _ rfl (by decide))

end EvaluationService
