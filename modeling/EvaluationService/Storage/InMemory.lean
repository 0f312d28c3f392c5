import EvaluationService.Foundation.Ordering
import EvaluationService.Foundation.Table
import EvaluationService.Storage.Base

/-!
The in-memory repository (`app/storage/in_memory.py`). Its dictionary stores every
job under the job's own identifier and keeps the order of insertion, which is the
order in which `values()` lists the jobs.
-/

set_option autoImplicit false

namespace EvaluationService

open Foundation

structure InMemoryJobRepository where
  jobs : Table EvaluationJob.jobId fun _ => True

namespace InMemoryJobRepository

def empty : InMemoryJobRepository := ⟨Table.empty⟩

def mutate (repository : InMemoryJobRepository) (jobId : UUID)
    (change : EvaluationJob → EvaluationJob) (keeps : ∀ job, (change job).jobId = job.jobId) :
    InMemoryJobRepository :=
  ⟨repository.jobs.modify jobId change keeps fun _ _ => trivial⟩

def create (repository : InMemoryJobRepository) (job : EvaluationJob) :
    Except Exn EvaluationJob × InMemoryJobRepository :=
  (.ok job, ⟨repository.jobs.put job trivial⟩)

def get (repository : InMemoryJobRepository) (jobId : UUID) : Except Exn EvaluationJob :=
  match repository.jobs.find? jobId with
  | some job => .ok job
  | none => .error .notFoundError

def getForTenant (repository : InMemoryJobRepository) (jobId : UUID) (tenantId : String) :
    Except Exn EvaluationJob := do
  let job ← repository.get jobId
  if job.tenantId ≠ tenantId then .error .notFoundError else .ok job

def listRecent (repository : InMemoryJobRepository) (tenantId : String)
    (projectId : Option String) (limit : Nat) : Except Exn (List EvaluationJob) :=
  let jobs := repository.jobs.rows.filter fun job => job.tenantId = tenantId
  let jobs := match projectId with
    | some projectId => jobs.filter fun job => job.projectId = projectId
    | none => jobs
  .ok ((sortByDescending EvaluationJob.createdAt jobs).take limit)

def claimJob (now : DateTime) (job : EvaluationJob) : EvaluationJob :=
  { job with
    status := .running
    attemptCount := job.attemptCount + 1
    claimedAt := some now
    updatedAt := now }

def claimNextQueued (repository : InMemoryJobRepository) (now : DateTime) :
    Except Exn (Option EvaluationJob) × InMemoryJobRepository :=
  let queuedJobs := repository.jobs.rows.filter fun job =>
    job.status = .queued ∧ job.attemptCount < job.maxAttempts
  match (sortBy EvaluationJob.createdAt queuedJobs).head? with
  | none => (.ok none, repository)
  | some job =>
      (.ok (some (claimJob now job)),
        repository.mutate job.jobId (claimJob now) fun _ => rfl)

/-- The test of the recovery loop, as the negation of its two `continue` lines. -/
def isStale (cutoff : DateTime) (job : EvaluationJob) : Bool :=
  if job.status ≠ .running then false
  else
    match job.claimedAt with
    | none => false
    | some claimedAt => !decide (claimedAt ≥ cutoff)

def recoverJob (now : DateTime) (job : EvaluationJob) : EvaluationJob :=
  if job.attemptCount ≥ job.maxAttempts then
    { job with
      status := .failed
      errorMessage := some "Evaluation worker timed out."
      claimedAt := none
      updatedAt := now }
  else
    { job with
      status := .queued
      errorMessage := some "Evaluation worker stopped before completing the job."
      claimedAt := none
      updatedAt := now }

theorem recoverJob_jobId (now : DateTime) (job : EvaluationJob) :
    (recoverJob now job).jobId = job.jobId := by
  unfold recoverJob
  split <;> rfl

def recoverStaleRunning (repository : InMemoryJobRepository) (now cutoff : DateTime) :
    Except Exn Nat × InMemoryJobRepository :=
  let (recovered, repository) := repository.jobs.rows.foldl
    (fun (recovered, repository) job =>
      if isStale cutoff job then
        (recovered + 1, repository.mutate job.jobId (recoverJob now) (recoverJob_jobId now))
      else (recovered, repository))
    (0, repository)
  (.ok recovered, repository)

def moveJob (now : DateTime) (target : JobStatus) (job : EvaluationJob) : EvaluationJob :=
  { job with status := target, updatedAt := now }

def transition (repository : InMemoryJobRepository) (now : DateTime) (jobId : UUID)
    (allowedFrom : List JobStatus) (target : JobStatus) :
    Except Exn EvaluationJob × InMemoryJobRepository :=
  match repository.jobs.find? jobId with
  | none => (.error .notFoundError, repository)
  | some job =>
      if job.status ∉ allowedFrom then (.error .invalidStateTransitionError, repository)
      else (.ok (moveJob now target job), repository.mutate jobId (moveJob now target) fun _ => rfl)

def setRunning (repository : InMemoryJobRepository) (now : DateTime) (jobId : UUID) :
    Except Exn EvaluationJob × InMemoryJobRepository :=
  repository.transition now jobId [.queued] .running

/-- The second critical section of `set_succeeded`. -/
def writeResult (now : DateTime) (result : EvaluationResult) (job : EvaluationJob) : EvaluationJob :=
  { job with result := some result, updatedAt := now }

def setSucceeded (repository : InMemoryJobRepository) (now : DateTime) (jobId : UUID)
    (result : EvaluationResult) : Except Exn EvaluationJob × InMemoryJobRepository :=
  match repository.transition now jobId [.running] .succeeded with
  | (.error error, repository) => (.error error, repository)
  | (.ok job, repository) =>
      (.ok (writeResult now result job),
        repository.mutate jobId (writeResult now result) fun _ => rfl)

/-- The second critical section of `set_failed`. -/
def writeMessage (now : DateTime) (message : String) (job : EvaluationJob) : EvaluationJob :=
  { job with errorMessage := some message, updatedAt := now }

def setFailed (repository : InMemoryJobRepository) (now : DateTime) (jobId : UUID)
    (message : String) : Except Exn EvaluationJob × InMemoryJobRepository :=
  match repository.transition now jobId [.queued, .running] .failed with
  | (.error error, repository) => (.error error, repository)
  | (.ok job, repository) =>
      (.ok (writeMessage now message job),
        repository.mutate jobId (writeMessage now message) fun _ => rfl)

end InMemoryJobRepository

/-- The in-memory repository as a `JobRepository`: iteration order is insertion order. -/
def inMemoryRepository : JobRepository where
  State := InMemoryJobRepository
  empty := InMemoryJobRepository.empty
  create := InMemoryJobRepository.create
  get := InMemoryJobRepository.get
  getForTenant := InMemoryJobRepository.getForTenant
  listRecent := InMemoryJobRepository.listRecent
  claimNextQueued := InMemoryJobRepository.claimNextQueued
  recoverStaleRunning := InMemoryJobRepository.recoverStaleRunning
  setRunning := InMemoryJobRepository.setRunning
  setSucceeded := InMemoryJobRepository.setSucceeded
  setFailed := InMemoryJobRepository.setFailed
  Arranges := fun state layout => layout = state
  arranges_refl := fun _ => rfl

end EvaluationService
