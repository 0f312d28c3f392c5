import EvaluationService.Foundation.Cooperative
import EvaluationService.Storage.InMemory

/-!
The in-memory repository as its tasks share it (`app/storage/in_memory.py`). The dictionary
holds references: callers keep the jobs that they pass and receive, and read them whenever
they run. A method is a program over the job objects, one block for each `async with` of the
lock, and `set_succeeded` and `set_failed` have two of them.
-/

set_option autoImplicit false

namespace EvaluationService

open Foundation Cooperative

/-- Names a job object. -/
abbrev Address : Type := Nat

structure JobObjects where
  objects : Address → EvaluationJob
  entries : Table (Prod.fst : UUID × Address → UUID) fun _ => True

inductive SharedCall where
  | create (job : Address)
  | get (jobId : UUID)
  | getForTenant (jobId : UUID) (tenantId : String)
  | listRecent (tenantId : String) (projectId : Option String) (limit : Nat)
  | claimNextQueued
  | recoverStaleRunning (cutoff : DateTime)
  | setRunning (jobId : UUID)
  | setSucceeded (jobId : UUID) (result : EvaluationResult)
  | setFailed (jobId : UUID) (message : String)
  | healthCheck
  | close

inductive SharedReply where
  | job (outcome : Except Exn Address)
  | jobs (listed : List Address)
  | claim (claimed : Option Address)
  | count (recovered : Nat)
  | health (healthy : Bool)
  | none

namespace JobObjects

variable (jobs : JobObjects)

/-- `self._jobs[job_id] = job`. -/
def store (jobId : UUID) (job : Address) : JobObjects :=
  { jobs with entries := jobs.entries.put (jobId, job) trivial }

/-- Assignments to the fields of an object. -/
def assign (job : Address) (change : EvaluationJob → EvaluationJob) : JobObjects :=
  { jobs with objects := Function.update jobs.objects job (change (jobs.objects job)) }

def find? (jobId : UUID) : Option Address :=
  (jobs.entries.find? jobId).map Prod.snd

/-- `self._jobs.values()`. -/
def values : List Address := jobs.entries.rows.map Prod.snd

def get (jobId : UUID) : Except Exn Address :=
  match jobs.find? jobId with
  | some job => .ok job
  | none => .error .notFoundError

def checkTenant (tenantId : String) (job : Address) : Except Exn Address :=
  if (jobs.objects job).tenantId ≠ tenantId then .error .notFoundError else .ok job

/-- What `list_recent` makes of the objects that it copied under the lock. -/
def recent (copied : List Address) (tenantId : String) (projectId : Option String) (limit : Nat) :
    List Address :=
  let listed := copied.filter fun job => (jobs.objects job).tenantId = tenantId
  let listed := match projectId with
    | some projectId => listed.filter fun job => (jobs.objects job).projectId = projectId
    | none => listed
  (sortByDescending (fun job => (jobs.objects job).createdAt) listed).take limit

def nextQueued? : Option Address :=
  let queuedJobs := jobs.values.filter fun job =>
    (jobs.objects job).status = .queued ∧
      (jobs.objects job).attemptCount < (jobs.objects job).maxAttempts
  (sortBy (fun job => (jobs.objects job).createdAt) queuedJobs).head?

def claimNextQueued (now : DateTime) : JobObjects :=
  match jobs.nextQueued? with
  | none => jobs
  | some job =>
      let claimed := jobs.assign job (InMemoryJobRepository.claimJob now)
      claimed.store (claimed.objects job).jobId job

/-- One round of the recovery loop. -/
def recoverOne (now cutoff : DateTime) (counted : Nat × JobObjects) (job : Address) :
    Nat × JobObjects :=
  if InMemoryJobRepository.isStale cutoff (counted.2.objects job) then
    let recovered := counted.2.assign job (InMemoryJobRepository.recoverJob now)
    (counted.1 + 1, recovered.store (recovered.objects job).jobId job)
  else counted

def recoverStaleRunning (now cutoff : DateTime) : Nat × JobObjects :=
  jobs.values.foldl (recoverOne now cutoff) (0, jobs)

def transition (now : DateTime) (jobId : UUID) (allowedFrom : List JobStatus)
    (target : JobStatus) : Except Exn Address × JobObjects :=
  match jobs.find? jobId with
  | none => (.error .notFoundError, jobs)
  | some job =>
      if (jobs.objects job).status ∉ allowedFrom then (.error .invalidStateTransitionError, jobs)
      else
        (.ok job, (jobs.assign job (InMemoryJobRepository.moveJob now target)).store jobId job)

/-- The second block of `set_succeeded` and of `set_failed`. -/
def writeOutcome (jobId : UUID) (job : Address) (write : EvaluationJob → EvaluationJob) :
    JobObjects :=
  (jobs.assign job write).store jobId job

end JobObjects

abbrev RepositoryProgram : Type := Coroutine JobObjects DateTime SharedReply

/-- `async with self._lock`, with what follows what the block read. -/
def withLock (block : DateTime → JobObjects → JobObjects)
    (rest : DateTime → JobObjects → RepositoryProgram) : RepositoryProgram :=
  .acquire (.access block fun now jobs => .release (rest now jobs))

/-- Code after a block that reads job objects without the lock. -/
def unlocked (rest : JobObjects → RepositoryProgram) : RepositoryProgram :=
  .access (fun _ jobs => jobs) fun _ jobs => rest jobs

/-- `await self.get(job_id)`. -/
def awaitGet (jobId : UUID) (rest : Except Exn Address → RepositoryProgram) : RepositoryProgram :=
  withLock (fun _ jobs => jobs) fun _ jobs => rest (jobs.get jobId)

/-- `await self._transition(...)`. -/
def awaitTransition (jobId : UUID) (allowedFrom : List JobStatus) (target : JobStatus)
    (rest : Except Exn Address → RepositoryProgram) : RepositoryProgram :=
  withLock (fun now jobs => (jobs.transition now jobId allowedFrom target).2)
    fun now jobs => rest (jobs.transition now jobId allowedFrom target).1

/-- `set_succeeded` and `set_failed`. -/
def finishJob (jobId : UUID) (allowedFrom : List JobStatus) (target : JobStatus)
    (write : DateTime → EvaluationJob → EvaluationJob) : RepositoryProgram :=
  awaitTransition jobId allowedFrom target fun
    | .error error => .done (.job (.error error))
    | .ok job =>
        withLock (fun now jobs => jobs.writeOutcome jobId job (write now))
          fun _ _ => .done (.job (.ok job))

def repositoryProgram : SharedCall → RepositoryProgram
  | .create job =>
      withLock (fun _ jobs => jobs.store (jobs.objects job).jobId job)
        fun _ _ => .done (.job (.ok job))
  | .get jobId => awaitGet jobId fun found => .done (.job found)
  | .getForTenant jobId tenantId =>
      awaitGet jobId fun
        | .error error => .done (.job (.error error))
        | .ok job => unlocked fun jobs => .done (.job (jobs.checkTenant tenantId job))
  | .listRecent tenantId projectId limit =>
      withLock (fun _ jobs => jobs) fun _ jobs =>
        let copied := jobs.values
        unlocked fun jobs => .done (.jobs (jobs.recent copied tenantId projectId limit))
  | .claimNextQueued =>
      withLock (fun now jobs => jobs.claimNextQueued now)
        fun _ jobs => .done (.claim jobs.nextQueued?)
  | .recoverStaleRunning cutoff =>
      withLock (fun now jobs => (jobs.recoverStaleRunning now cutoff).2)
        fun now jobs => .done (.count (jobs.recoverStaleRunning now cutoff).1)
  | .setRunning jobId => awaitTransition jobId [.queued] .running fun moved => .done (.job moved)
  | .setSucceeded jobId result =>
      finishJob jobId [.running] .succeeded fun now => InMemoryJobRepository.writeResult now result
  | .setFailed jobId message =>
      finishJob jobId [.queued, .running] .failed
        fun now => InMemoryJobRepository.writeMessage now message
  | .healthCheck => .done (.health true)
  | .close => .done .none

/-! ## No method suspends inside a block -/

theorem prompt_withLock {block : DateTime → JobObjects → JobObjects}
    {rest : DateTime → JobObjects → RepositoryProgram}
    (prompt : ∀ now jobs, Prompt false (rest now jobs)) : Prompt false (withLock block rest) :=
  .acquire (.access fun now jobs => .release (prompt now jobs))

theorem prompt_finishJob (jobId : UUID) (allowedFrom : List JobStatus) (target : JobStatus)
    (write : DateTime → EvaluationJob → EvaluationJob) :
    Prompt false (finishJob jobId allowedFrom target write) := by
  refine prompt_withLock fun now jobs => ?_
  cases (jobs.transition now jobId allowedFrom target).1 with
  | error error => exact .done
  | ok job => exact prompt_withLock fun _ _ => .done

theorem prompt_repositoryProgram (call : SharedCall) : Prompt false (repositoryProgram call) := by
  cases call with
  | create job => exact prompt_withLock fun _ _ => .done
  | get jobId => exact prompt_withLock fun _ _ => .done
  | getForTenant jobId tenantId =>
      refine prompt_withLock fun now jobs => ?_
      cases jobs.get jobId with
      | error error => exact .done
      | ok job => exact .access fun _ _ => .done
  | listRecent tenantId projectId limit =>
      exact prompt_withLock fun _ _ => .access fun _ _ => .done
  | claimNextQueued => exact prompt_withLock fun _ _ => .done
  | recoverStaleRunning cutoff => exact prompt_withLock fun _ _ => .done
  | setRunning jobId => exact prompt_withLock fun _ _ => .done
  | setSucceeded jobId result => exact prompt_finishJob jobId _ _ _
  | setFailed jobId message => exact prompt_finishJob jobId _ _ _
  | healthCheck => exact .done
  | close => exact .done

end EvaluationService
