import EvaluationService.Services.Evaluator
import EvaluationService.Storage.Base

/-!
The job service (`app/services/job_service.py`). A call of the service is a state
machine that stops at every `await`: at a repository call, which is one atomic step of
the store, and at the scoring of a request. `ServiceState.next` runs it from one `await`
to the next on what it waited for.
-/

set_option autoImplicit false

namespace EvaluationService

/-- The job that `submit` creates, with the identifier drawn for it and the two clock
readings of its timestamps. -/
def submittedJob (jobId : UUID) (createdAt updatedAt : DateTime) (request : EvaluationRequest) :
    EvaluationJob where
  jobId := jobId
  tenantId := request.tenantId
  projectId := request.projectId
  status := .queued
  request := request
  createdAt := createdAt
  updatedAt := updatedAt

def createSpan (job : EvaluationJob) : Emission :=
  .span "job.create" [("tenant_id", .text job.request.tenantId),
    ("project_id", .text job.request.projectId), ("job_id", .uuid job.jobId)]

/-- `submit` after `create`: it enqueues the job, records it and returns it. -/
def afterCreate (now : DateTime) (job : EvaluationJob) :
    Except Exn EvaluationJob → Except Exn EvaluationJob × List Emission
  | .error error => (.error error, [createSpan job])
  | .ok _ =>
      (.ok job, [createSpan job, .enqueued job.jobId] ++
        auditRecord now "evaluation.job_queued" job.tenantId job.projectId job.jobId [] ++
        [.jobStatus .queued])

/-- Where a call of `process` or `process_claimed` waits, with the job as it was handed to the
call. The in-memory repository hands out the stored object itself; of it the service reads
only fields that no repository method assigns. -/
inductive ServiceState where
  | loading (jobId : UUID)
  | starting (jobId : UUID) (job : EvaluationJob)
  /-- `process` or `process_claimed` waits for the evaluator. -/
  | scoring (jobId : UUID) (job : EvaluationJob)
  | succeeding (jobId : UUID) (job : EvaluationJob) (result : EvaluationResult)
  /-- `_record_failure` waits for `set_failed`, with the error to raise afterwards. -/
  | recordingFailure (jobId : UUID) (job : EvaluationJob) (error : Exn)
  | finished (outcome : Except Exn Unit)

/-- What a waiting call may be told: the reply of the repository, the outcome of the
scoring, that its sleep or a check is due, or that `stop` was called. -/
inductive Signal where
  | replied (now : DateTime) (reply : RepositoryReply)
  | scored (outcome : Except Exn EvaluationResult)
  | resumed (now : DateTime)
  | stop

namespace ServiceState

def failureMessage : String := "Evaluation failed."

def call? : ServiceState → Option RepositoryCall
  | loading jobId => some (.get jobId)
  | starting jobId _ => some (.setRunning jobId)
  | scoring _ _ => none
  | succeeding jobId _ result => some (.setSucceeded jobId result)
  | recordingFailure _ job _ => some (.setFailed job.jobId failureMessage)
  | finished _ => none

def scoring? : ServiceState → Option EvaluationRequest
  | scoring _ job => some job.request
  | _ => none

def processSpan (jobId : UUID) (job : EvaluationJob) : Emission :=
  .span "job.process" [("tenant_id", .text job.tenantId), ("project_id", .text job.projectId),
    ("job_id", .uuid jobId)]

def loggerName : String := "app.services.job_service"

def raised (jobId : UUID) (error : Exn) (emitted : List Emission) : ServiceState × List Emission :=
  (finished (.error error),
    emitted ++ [.log ⟨loggerName, .exception, "evaluation job failed", [error],
      [("job_id", .uuid jobId)]⟩])

/-- `process_claimed` up to its first `await`. -/
def processClaimed (now : DateTime) (job : EvaluationJob) : ServiceState × List Emission :=
  (scoring job.jobId job,
    processSpan job.jobId job ::
      auditRecord now "evaluation.job_running" job.tenantId job.projectId job.jobId [])

def afterGet (jobId : UUID) : Except Exn EvaluationJob → ServiceState × List Emission
  | .error error => (finished (.error error), [])
  | .ok job => (starting jobId job, [processSpan jobId job])

def afterSetRunning (now : DateTime) (jobId : UUID) (job : EvaluationJob) :
    Except Exn EvaluationJob → ServiceState × List Emission
  -- the refused start is raised inside the `try` block, like every later failure
  | .error error => (recordingFailure jobId job error, [])
  | .ok _ =>
      (scoring jobId job,
        auditRecord now "evaluation.job_running" job.tenantId job.projectId jobId [])

def afterScore (jobId : UUID) (job : EvaluationJob) :
    Except Exn EvaluationResult → ServiceState × List Emission
  | .error error => (recordingFailure jobId job error, Evaluator.scoreEmissions job.request)
  | .ok result => (succeeding jobId job result, Evaluator.scoreEmissions job.request)

def afterSetSucceeded (now : DateTime) (jobId : UUID) (job : EvaluationJob)
    (result : EvaluationResult) : Except Exn EvaluationJob → ServiceState × List Emission
  | .error error => (recordingFailure jobId job error, [])
  | .ok updated =>
      (finished (.ok ()),
        auditRecord now "evaluation.job_succeeded" updated.tenantId updated.projectId jobId
          [("score", .number result.score)] ++
        [.log ⟨loggerName, .info, "evaluation job succeeded", [],
          [("tenant_id", .text updated.tenantId), ("project_id", .text updated.projectId),
            ("job_id", .uuid jobId)]⟩,
        .jobStatus .succeeded])

def afterSetFailed (now : DateTime) (jobId : UUID) (job : EvaluationJob) (original : Exn) :
    Except Exn EvaluationJob → ServiceState × List Emission
  -- a failure to record the failure is logged and swallowed
  | .error error =>
      raised jobId original [.log ⟨loggerName, .exception, "failed to persist evaluation job failure",
        [error, original], [("job_id", .uuid job.jobId), ("original_error", .error original)]⟩]
  | .ok _ =>
      raised jobId original
        (auditRecord now "evaluation.job_failed" job.tenantId job.projectId job.jobId [] ++
          [.jobStatus .failed])

/-- Run from one `await` to the next. Every repository call of the service returns a job. -/
def next : ServiceState → Signal → Option (ServiceState × List Emission)
  | loading jobId, .replied _ (.job outcome) => some (afterGet jobId outcome)
  | starting jobId job, .replied now (.job outcome) => some (afterSetRunning now jobId job outcome)
  | scoring jobId job, .scored outcome => some (afterScore jobId job outcome)
  | succeeding jobId job result, .replied now (.job outcome) =>
      some (afterSetSucceeded now jobId job result outcome)
  | recordingFailure jobId job error, .replied now (.job outcome) =>
      some (afterSetFailed now jobId job error outcome)
  | _, _ => none

inductive Move : ServiceState → Signal → ServiceState × List Emission → Prop where
  | loaded {jobId : UUID} {now : DateTime} {outcome : Except Exn EvaluationJob} :
      Move (loading jobId) (.replied now (.job outcome)) (afterGet jobId outcome)
  | started {jobId : UUID} {job : EvaluationJob} {now : DateTime}
      {outcome : Except Exn EvaluationJob} :
      Move (starting jobId job) (.replied now (.job outcome)) (afterSetRunning now jobId job outcome)
  | scored {jobId : UUID} {job : EvaluationJob} {outcome : Except Exn EvaluationResult} :
      Move (scoring jobId job) (.scored outcome) (afterScore jobId job outcome)
  | succeeded {jobId : UUID} {job : EvaluationJob} {result : EvaluationResult} {now : DateTime}
      {outcome : Except Exn EvaluationJob} :
      Move (succeeding jobId job result) (.replied now (.job outcome))
        (afterSetSucceeded now jobId job result outcome)
  | failed {jobId : UUID} {job : EvaluationJob} {error : Exn} {now : DateTime}
      {outcome : Except Exn EvaluationJob} :
      Move (recordingFailure jobId job error) (.replied now (.job outcome))
        (afterSetFailed now jobId job error outcome)

theorem move_of_next {state : ServiceState} {signal : Signal}
    {after : ServiceState × List Emission} (ran : state.next signal = some after) :
    Move state signal after := by
  unfold next at ran
  split at ran
  · obtain rfl := Option.some.inj ran
    exact .loaded
  · obtain rfl := Option.some.inj ran
    exact .started
  · obtain rfl := Option.some.inj ran
    exact .scored
  · obtain rfl := Option.some.inj ran
    exact .succeeded
  · obtain rfl := Option.some.inj ran
    exact .failed
  · cases ran

def remaining : ServiceState → Nat
  | loading _ => 5
  | starting _ _ => 4
  | scoring _ _ => 3
  | succeeding _ _ _ => 2
  | recordingFailure _ _ _ => 1
  | finished _ => 0

theorem Move.remaining_lt {state : ServiceState} {signal : Signal}
    {after : ServiceState × List Emission} (move : Move state signal after) :
    after.1.remaining < state.remaining := by
  cases move with
  | @loaded _ _ outcome => cases outcome <;> simp [afterGet, remaining]
  | @started _ _ _ outcome => cases outcome <;> simp [afterSetRunning, remaining]
  | @scored _ _ outcome => cases outcome <;> simp [afterScore, remaining]
  | @succeeded _ _ _ _ outcome => cases outcome <;> simp [afterSetSucceeded, remaining]
  | @failed _ _ _ _ outcome => cases outcome <;> simp [afterSetFailed, raised, remaining]

end ServiceState

/-- What a waiting call may hear of, given the repository call or the scoring it waits for:
one atomic call on the store, an outcome of the evaluator, or nothing of either. -/
def Heard (repository : JobRepository) (evaluator : EvaluatorBehavior)
    (call? : Option RepositoryCall) (request? : Option EvaluationRequest) (store : repository.State) :
    Signal → repository.State → Prop
  | .replied now reply, next => ∃ call ∈ call?, repository.Step store ⟨now, call, reply⟩ next
  | .scored outcome, next => next = store ∧ ∃ request ∈ request?, evaluator request outcome
  | .resumed _, next => next = store
  | .stop, next => next = store

def ServiceStep (repository : JobRepository) (evaluator : EvaluatorBehavior)
    (current : repository.State × ServiceState) (signal : Signal)
    (next : repository.State × ServiceState) : Prop :=
  (∃ after, current.2.next signal = some after ∧ next.2 = after.1) ∧
    Heard repository evaluator current.2.call? current.2.scoring? current.1 signal next.1

theorem exists_serviceStep (repository : JobRepository) (evaluator : EvaluatorBehavior)
    (store : repository.State) {state : ServiceState} {call : RepositoryCall}
    (waits : state.call? = some call) :
    ∃ signal after, ServiceStep repository evaluator (store, state) signal after := by
  have stepped : repository.Step store ⟨0, call, (repository.perform store 0 call).1⟩
      (repository.perform store 0 call).2 := ⟨store, repository.arranges_refl store, rfl⟩
  have heard : Heard repository evaluator state.call? state.scoring? store
      (.replied 0 (repository.perform store 0 call).1) (repository.perform store 0 call).2 :=
    ⟨call, waits, stepped⟩
  cases state with
  | scoring _ _ => cases waits
  | finished _ => cases waits
  | loading _ => cases waits; exact ⟨_, (_, _), ⟨_, rfl, rfl⟩, heard⟩
  | starting _ _ => cases waits; exact ⟨_, (_, _), ⟨_, rfl, rfl⟩, heard⟩
  | succeeding _ _ _ => cases waits; exact ⟨_, (_, _), ⟨_, rfl, rfl⟩, heard⟩
  | recordingFailure _ _ _ => cases waits; exact ⟨_, (_, _), ⟨_, rfl, rfl⟩, heard⟩

end EvaluationService
