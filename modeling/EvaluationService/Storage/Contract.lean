import Mathlib.Logic.Function.Basic
import EvaluationService.Storage.Base

/-!
What a job repository is for, stated over the jobs it stores and over nothing else.
`Effect` relates the stored jobs before a call, its reply and the stored jobs after
it. The two repositories of the service differ in one respect only: what a completed
job's `claimed_at` becomes, which is the parameter `release`.
-/

set_option autoImplicit false

namespace EvaluationService

abbrev Lookup : Type := UUID → Option EvaluationJob

namespace EvaluationJob

def Claimable (job : EvaluationJob) : Prop :=
  job.status = .queued ∧ job.attemptCount < job.maxAttempts

def Stale (cutoff : DateTime) (job : EvaluationJob) : Prop :=
  job.status = .running ∧ ∃ claimedAt ∈ job.claimedAt, claimedAt < cutoff

instance (cutoff : DateTime) (job : EvaluationJob) : Decidable (job.Stale cutoff) :=
  inferInstanceAs (Decidable (_ ∧ _))

def claimed (now : DateTime) (job : EvaluationJob) : EvaluationJob :=
  { job with
    status := .running
    attemptCount := job.attemptCount + 1
    claimedAt := some now
    updatedAt := now }

def requeueMessage : String := "Evaluation worker stopped before completing the job."

def requeued (now : DateTime) (job : EvaluationJob) : EvaluationJob :=
  { job with
    status := .queued
    errorMessage := some requeueMessage
    claimedAt := none
    updatedAt := now }

def timeoutMessage : String := "Evaluation worker timed out."

def timedOut (now : DateTime) (job : EvaluationJob) : EvaluationJob :=
  { job with
    status := .failed
    errorMessage := some timeoutMessage
    claimedAt := none
    updatedAt := now }

def recovered (cutoff now : DateTime) (job : EvaluationJob) : EvaluationJob :=
  if job.Stale cutoff then
    if job.attemptCount ≥ job.maxAttempts then job.timedOut now else job.requeued now
  else job

def started (now : DateTime) (job : EvaluationJob) : EvaluationJob :=
  { job with status := .running, updatedAt := now }

def succeeded (release : Option DateTime → Option DateTime) (now : DateTime)
    (result : EvaluationResult) (job : EvaluationJob) : EvaluationJob :=
  { job with
    status := .succeeded
    result := some result
    claimedAt := release job.claimedAt
    updatedAt := now }

def failed (release : Option DateTime → Option DateTime) (now : DateTime) (message : String)
    (job : EvaluationJob) : EvaluationJob :=
  { job with
    status := .failed
    errorMessage := some message
    claimedAt := release job.claimedAt
    updatedAt := now }

def Listed (tenantId : String) (projectId : Option String) (job : EvaluationJob) : Prop :=
  job.tenantId = tenantId ∧ ∀ project ∈ projectId, job.projectId = project

end EvaluationJob

def foundOr404 : Option EvaluationJob → Except Exn EvaluationJob
  | some job => .ok job
  | none => .error .notFoundError

/-- The job a status-changing call is about and the statuses it accepts. -/
def RepositoryCall.guard? : RepositoryCall → Option (UUID × List JobStatus)
  | .setRunning jobId => some (jobId, [.queued])
  | .setSucceeded jobId _ => some (jobId, [.running])
  | .setFailed jobId _ => some (jobId, [.queued, .running])
  | _ => none

inductive Refused (stored : Option EvaluationJob) (accepted : List JobStatus) : Exn → Prop where
  | absent : stored = none → Refused stored accepted .notFoundError
  | notAllowed {job : EvaluationJob} : stored = some job → job.status ∉ accepted →
      Refused stored accepted .invalidStateTransitionError

inductive Effect (release : Option DateTime → Option DateTime) (now : DateTime) (before : Lookup) :
    RepositoryCall → RepositoryReply → Lookup → Prop where
  | create {job : EvaluationJob} : before job.jobId = none →
      Effect release now before (.create job) (.job (.ok job))
        (Function.update before job.jobId (some job))
  | get {jobId : UUID} :
      Effect release now before (.get jobId) (.job (foundOr404 (before jobId))) before
  | getForTenant {jobId : UUID} {tenantId : String} :
      Effect release now before (.getForTenant jobId tenantId)
        (.job (foundOr404 ((before jobId).filter fun job => job.tenantId = tenantId))) before
  | listRecent {tenantId : String} {projectId : Option String} {limit : Nat}
      {listed : List EvaluationJob} :
      listed.Nodup →
      (∀ job, job ∈ listed ↔ before job.jobId = some job ∧ job.Listed tenantId projectId) →
      (listed.Pairwise fun newer older => older.createdAt ≤ newer.createdAt) →
      Effect release now before (.listRecent tenantId projectId limit)
        (.jobs (.ok (listed.take limit))) before
  | claimNone : (∀ jobId job, before jobId = some job → ¬ job.Claimable) →
      Effect release now before .claimNextQueued (.claim (.ok none)) before
  | claim {job : EvaluationJob} : before job.jobId = some job → job.Claimable →
      (∀ jobId other, before jobId = some other → other.Claimable →
        job.createdAt ≤ other.createdAt) →
      Effect release now before .claimNextQueued (.claim (.ok (some (job.claimed now))))
        (Function.update before job.jobId (some (job.claimed now)))
  | recover {cutoff : DateTime} {stale : List UUID} : stale.Nodup →
      (∀ jobId, jobId ∈ stale ↔ ∃ job, before jobId = some job ∧ job.Stale cutoff) →
      Effect release now before (.recoverStaleRunning cutoff) (.count (.ok stale.length))
        (fun jobId => (before jobId).map (·.recovered cutoff now))
  | start {jobId : UUID} {job : EvaluationJob} : before jobId = some job → job.status = .queued →
      Effect release now before (.setRunning jobId) (.job (.ok (job.started now)))
        (Function.update before jobId (some (job.started now)))
  | succeed {jobId : UUID} {job : EvaluationJob} {result : EvaluationResult} :
      before jobId = some job → job.status = .running →
      Effect release now before (.setSucceeded jobId result)
        (.job (.ok (job.succeeded release now result)))
        (Function.update before jobId (some (job.succeeded release now result)))
  | fail {jobId : UUID} {job : EvaluationJob} {message : String} :
      before jobId = some job → job.status = .queued ∨ job.status = .running →
      Effect release now before (.setFailed jobId message)
        (.job (.ok (job.failed release now message)))
        (Function.update before jobId (some (job.failed release now message)))
  | refuse {call : RepositoryCall} {jobId : UUID} {accepted : List JobStatus} {error : Exn} :
      call.guard? = some (jobId, accepted) → Refused (before jobId) accepted error →
      Effect release now before call (.job (.error error)) before

/-- A status-changing call on a stored job either stores `changed` or is refused. -/
def ChangesStatus (before : Lookup) (jobId : UUID) (job : EvaluationJob) (accepted : List JobStatus)
    (changed : EvaluationJob) (reply : RepositoryReply) (after : Lookup) : Prop :=
  (job.status ∈ accepted ∧ reply = .job (.ok changed) ∧
      after = Function.update before jobId (some changed)) ∨
    (job.status ∉ accepted ∧ reply = .job (.error .invalidStateTransitionError) ∧ after = before)

section Calls

variable {release : Option DateTime → Option DateTime} {now : DateTime} {before after : Lookup}
variable {jobId : UUID} {job : EvaluationJob} {reply : RepositoryReply}

theorem foundOr404_eq_ok_iff {entry : Option EvaluationJob} :
    foundOr404 entry = .ok job ↔ entry = some job := by
  cases entry <;> simp [foundOr404]

theorem Effect.get_eq (effect : Effect release now before (.get jobId) reply after) :
    reply = .job (foundOr404 (before jobId)) ∧ after = before := by
  cases effect with
  | get => exact ⟨rfl, rfl⟩
  | refuse guarded _ => cases guarded

theorem Effect.getForTenant_eq {tenantId : String}
    (effect : Effect release now before (.getForTenant jobId tenantId) reply after) :
    reply = .job (foundOr404 ((before jobId).filter fun job => job.tenantId = tenantId)) ∧
      after = before := by
  cases effect with
  | getForTenant => exact ⟨rfl, rfl⟩
  | refuse guarded _ => cases guarded

theorem Effect.listRecent_eq {tenantId : String} {projectId : Option String} {limit : Nat}
    (effect : Effect release now before (.listRecent tenantId projectId limit) reply after) :
    after = before ∧ ∃ listed : List EvaluationJob, reply = .jobs (.ok (listed.take limit)) ∧
      listed.Nodup ∧
      (∀ job, job ∈ listed ↔ before job.jobId = some job ∧ job.Listed tenantId projectId) ∧
      listed.Pairwise fun newer older => older.createdAt ≤ newer.createdAt := by
  cases effect with
  | listRecent nodup members ordered => exact ⟨rfl, _, rfl, nodup, members, ordered⟩
  | refuse guarded _ => cases guarded

theorem Effect.create_eq
    (effect : Effect release now before (.create job) reply after) :
    reply = .job (.ok job) ∧ after = Function.update before job.jobId (some job) := by
  cases effect with
  | create _ => exact ⟨rfl, rfl⟩
  | refuse guarded _ => cases guarded

theorem Effect.create_stored (effect : Effect release now before (.create job) reply after) :
    after job.jobId = some job := by
  rw [effect.create_eq.2]
  exact Function.update_self _ _ _

theorem Effect.claim_stored
    (effect : Effect release now before .claimNextQueued (.claim (.ok (some job))) after) :
    after job.jobId = some job := by
  cases effect with
  | claim _ _ _ => exact Function.update_self _ _ _

theorem ChangesStatus.of_refused {call : RepositoryCall} {accepted expected : List JobStatus}
    {other : UUID} {changed : EvaluationJob} {error : Exn} (stored : before jobId = some job)
    (expects : call.guard? = some (jobId, expected)) (guarded : call.guard? = some (other, accepted))
    (refused : Refused (before other) accepted error) :
    ChangesStatus before jobId job expected changed (.job (.error error)) before := by
  rw [expects] at guarded
  cases guarded
  cases refused with
  | absent none =>
      rw [stored] at none
      cases none
  | notAllowed found notAccepted =>
      rw [stored] at found
      cases found
      exact .inr ⟨notAccepted, rfl, rfl⟩

theorem Effect.setRunning (effect : Effect release now before (.setRunning jobId) reply after)
    (stored : before jobId = some job) :
    ChangesStatus before jobId job [.queued] (job.started now) reply after := by
  cases effect with
  | start found queued =>
      rw [stored] at found
      cases found
      exact .inl ⟨by simp [queued], rfl, rfl⟩
  | refuse guarded refused => exact .of_refused stored rfl guarded refused

theorem Effect.setSucceeded {result : EvaluationResult}
    (effect : Effect release now before (.setSucceeded jobId result) reply after)
    (stored : before jobId = some job) :
    ChangesStatus before jobId job [.running] (job.succeeded release now result) reply after := by
  cases effect with
  | succeed found running =>
      rw [stored] at found
      cases found
      exact .inl ⟨by simp [running], rfl, rfl⟩
  | refuse guarded refused => exact .of_refused stored rfl guarded refused

theorem Effect.setFailed {message : String}
    (effect : Effect release now before (.setFailed jobId message) reply after)
    (stored : before jobId = some job) :
    ChangesStatus before jobId job [.queued, .running] (job.failed release now message) reply
      after := by
  cases effect with
  | fail found unfinished =>
      rw [stored] at found
      cases found
      exact .inl ⟨by simpa using unfinished, rfl, rfl⟩
  | refuse guarded refused => exact .of_refused stored rfl guarded refused

theorem ChangesStatus.stored {accepted : List JobStatus} {changed : EvaluationJob}
    (changes : ChangesStatus before jobId job accepted changed reply after)
    (allowed : job.status ∈ accepted) : after jobId = some changed := by
  rcases changes with ⟨_, _, rfl⟩ | ⟨refused, _⟩
  · exact Function.update_self _ _ _
  · exact absurd allowed refused

end Calls

theorem eq_update_of_changed {before after : Lookup} {jobId : UUID} {job : EvaluationJob}
    (change : EvaluationJob → EvaluationJob) (stored : before jobId = some job)
    (changed : ∀ other, after other =
      (before other).map fun current => if other = jobId then change current else current) :
    after = Function.update before jobId (some (change job)) := by
  funext other
  rw [changed]
  by_cases same : other = jobId
  · subst same
    simp [stored]
  · simp [same]

def RepositoryCall.Fresh (before : Lookup) (call : RepositoryCall) : Prop :=
  ∀ job, call = .create job → before job.jobId = none

/-- A repository refines the contract: every call has an effect the contract allows. -/
structure Implements (repository : JobRepository) (release : Option DateTime → Option DateTime) :
    Prop where
  empty : ∀ jobId, repository.job? repository.empty jobId = none
  identified : ∀ {state jobId job}, repository.job? state jobId = some job → job.jobId = jobId
  arranged : ∀ {state layout}, repository.Arranges state layout →
    repository.job? layout = repository.job? state
  effect : ∀ {state next now call reply}, call.Fresh (repository.job? state) →
    repository.perform state now call = (reply, next) →
    Effect release now (repository.job? state) call reply (repository.job? next)

theorem Implements.step {repository : JobRepository} {release : Option DateTime → Option DateTime}
    (implements : Implements repository release) {state next : repository.State}
    {event : RepositoryEvent} (fresh : event.call.Fresh (repository.job? state))
    (taken : repository.Step state event next) :
    Effect release event.now (repository.job? state) event.call event.reply
      (repository.job? next) := by
  obtain ⟨layout, arranged, performed⟩ := taken
  have same := implements.arranged arranged
  rw [← same] at fresh ⊢
  exact implements.effect fresh performed

end EvaluationService
