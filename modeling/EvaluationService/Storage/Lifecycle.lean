import EvaluationService.Storage.Factory
import EvaluationService.Storage.History

/-!
The lifecycle of a job. Every history keeps each stored job consistent: its attempts
stay within its budget, a queued job has budget left and no claim, and only a
succeeded job has a result. Every change of a job uses up a part of a finite
allowance, so a job's status changes only a bounded number of times.
-/

set_option autoImplicit false

namespace EvaluationService

open Foundation

namespace EvaluationJob

/-- The inductive invariant of one stored job. -/
structure Consistent (job : EvaluationJob) : Prop where
  nonnegative : 0 ≤ job.attemptCount
  withinBudget : job.attemptCount ≤ job.maxAttempts
  queuedBudget : job.status = .queued → job.attemptCount < job.maxAttempts
  queuedUnclaimed : job.status = .queued → job.claimedAt = none
  resultIff : job.result.isSome ↔ job.status = .succeeded
  failedMessage : job.status = .failed → job.errorMessage.isSome

structure SameSubmission (job next : EvaluationJob) : Prop where
  jobId : next.jobId = job.jobId
  tenantId : next.tenantId = job.tenantId
  projectId : next.projectId = job.projectId
  request : next.request = job.request
  createdAt : next.createdAt = job.createdAt
  maxAttempts : next.maxAttempts = job.maxAttempts

theorem SameSubmission.refl (job : EvaluationJob) : SameSubmission job job :=
  ⟨rfl, rfl, rfl, rfl, rfl, rfl⟩

theorem SameSubmission.trans {job middle next : EvaluationJob} (first : SameSubmission job middle)
    (last : SameSubmission middle next) : SameSubmission job next :=
  ⟨last.jobId.trans first.jobId, last.tenantId.trans first.tenantId,
    last.projectId.trans first.projectId, last.request.trans first.request,
    last.createdAt.trans first.createdAt, last.maxAttempts.trans first.maxAttempts⟩

/-- How many more status changes a job can go through. A job that `set_running`
started has no claim to recover, so only its completion is left. -/
def remainingChanges (job : EvaluationJob) : Int :=
  match job.status with
  | .queued => 2 * (job.maxAttempts - job.attemptCount)
  | .running => if job.claimedAt.isSome then 2 * (job.maxAttempts - job.attemptCount) + 1 else 1
  | .succeeded | .failed => 0

theorem Submitted.consistent {job : EvaluationJob} (submitted : job.Submitted) : job.Consistent where
  nonnegative := by rw [submitted.unattempted]
  withinBudget := by
    have budget := submitted.budget
    rw [submitted.unattempted]
    omega
  queuedBudget := by
    have budget := submitted.budget
    rw [submitted.unattempted]
    omega
  queuedUnclaimed := fun _ => submitted.unclaimed
  resultIff := by simp [submitted.noResult, submitted.queued]
  failedMessage := by simp [submitted.queued]

end EvaluationJob

/-- The status changes of the lifecycle; only recovery returns a job to the queue. -/
inductive StatusEdge : RepositoryCall → JobStatus → JobStatus → Prop where
  | start {call : RepositoryCall} : StatusEdge call .queued .running
  | requeue {cutoff : DateTime} : StatusEdge (.recoverStaleRunning cutoff) .running .queued
  | fail {call : RepositoryCall} : StatusEdge call .queued .failed
  | failRunning {call : RepositoryCall} : StatusEdge call .running .failed
  | succeed {call : RepositoryCall} : StatusEdge call .running .succeeded

namespace JobChange

variable {release : Option DateTime → Option DateTime} {now : DateTime} {jobId : UUID}
variable {job next : EvaluationJob} {call : RepositoryCall} {reply : RepositoryReply}

theorem sameSubmission (changed : JobChange release now jobId job call reply next) :
    job.SameSubmission next := by
  cases changed <;> exact ⟨rfl, rfl, rfl, rfl, rfl, rfl⟩

theorem statusEdge (changed : JobChange release now jobId job call reply next) :
    StatusEdge call job.status next.status := by
  cases changed with
  | claimed _ claimable =>
      rw [claimable.1]
      exact .start
  | requeued stale _ =>
      rw [stale.1]
      exact .requeue
  | timedOut stale _ =>
      rw [stale.1]
      exact .failRunning
  | started queued =>
      rw [queued]
      exact .start
  | succeeded running =>
      rw [running]
      exact .succeed
  | failed unfinished =>
      rcases unfinished with queued | running
      · rw [queued]
        exact .fail
      · rw [running]
        exact .failRunning

theorem not_terminal (changed : JobChange release now jobId job call reply next) :
    ¬ job.status.Terminal := by
  have edge := changed.statusEdge
  intro terminal
  rcases terminal with succeeded | failed
  · rw [succeeded] at edge
    cases edge
  · rw [failed] at edge
    cases edge

theorem consistent (changed : JobChange release now jobId job call reply next)
    (sound : job.Consistent) : next.Consistent := by
  obtain ⟨nonnegative, withinBudget, queuedBudget, queuedUnclaimed, resultIff, failedMessage⟩ := sound
  cases changed with
  | claimed _ claimable =>
      obtain ⟨queued, budget⟩ := claimable
      constructor
      · change 0 ≤ job.attemptCount + 1
        omega
      · change job.attemptCount + 1 ≤ job.maxAttempts
        omega
      · intro stillQueued
        cases stillQueued
      · intro stillQueued
        cases stillQueued
      · rw [queued] at resultIff
        simpa [EvaluationJob.claimed] using resultIff
      · intro failed
        cases failed
  | requeued stale budget =>
      obtain ⟨running, _⟩ := stale
      constructor <;> simp_all [EvaluationJob.requeued]
  | timedOut stale _ =>
      obtain ⟨running, _⟩ := stale
      constructor <;> simp_all [EvaluationJob.timedOut]
  | started queued => constructor <;> simp_all [EvaluationJob.started]
  | succeeded running => constructor <;> simp_all [EvaluationJob.succeeded]
  | failed unfinished =>
      rcases unfinished with queued | running
      · constructor <;> simp_all [EvaluationJob.failed]
      · constructor <;> simp_all [EvaluationJob.failed]

theorem remainingChanges_lt (changed : JobChange release now jobId job call reply next)
    (sound : job.Consistent) :
    0 ≤ next.remainingChanges ∧ next.remainingChanges + 1 ≤ job.remainingChanges := by
  have withinBudget := sound.withinBudget
  have queuedBudget := sound.queuedBudget
  cases changed with
  | claimed _ claimable =>
      obtain ⟨queued, budget⟩ := claimable
      simp only [EvaluationJob.remainingChanges, EvaluationJob.claimed, queued, Option.isSome_some,
        if_true]
      omega
  | requeued stale budget =>
      obtain ⟨running, claimedAt, claimed, _⟩ := stale
      simp only [EvaluationJob.remainingChanges, EvaluationJob.requeued, running,
        Option.mem_def.mp claimed, Option.isSome_some, if_true]
      omega
  | timedOut stale _ =>
      obtain ⟨running, claimedAt, claimed, _⟩ := stale
      simp only [EvaluationJob.remainingChanges, EvaluationJob.timedOut, running,
        Option.mem_def.mp claimed, Option.isSome_some, if_true]
      omega
  | started queued =>
      have unclaimed := sound.queuedUnclaimed queued
      have budget := queuedBudget queued
      simp only [EvaluationJob.remainingChanges, EvaluationJob.started, queued, unclaimed,
        Option.isSome_none, Bool.false_eq_true, if_false]
      omega
  | succeeded running =>
      simp only [EvaluationJob.remainingChanges, EvaluationJob.succeeded, running]
      split <;> omega
  | failed unfinished =>
      rcases unfinished with queued | running
      · have budget := queuedBudget queued
        simp only [EvaluationJob.remainingChanges, EvaluationJob.failed, queued]
        omega
      · simp only [EvaluationJob.remainingChanges, EvaluationJob.failed, running]
        split <;> omega

end JobChange

/-! ## Whole histories -/

namespace JobRepository

def changesStatus (repository : JobRepository) (jobId : UUID)
    (taken : Transition repository.State RepositoryEvent) : Bool :=
  match repository.job? taken.source jobId, repository.job? taken.target jobId with
  | some job, some next => job.status ≠ next.status
  | _, _ => false

def statusChanges (repository : JobRepository) (jobId : UUID) (history : repository.History) : Nat :=
  history.countP (repository.changesStatus jobId)

variable {repository : JobRepository} {release : Option DateTime → Option DateTime}
variable {history later : repository.History} {state final : repository.State}
variable {jobId : UUID} {job : EvaluationJob}

theorem Reaches.consistent (implements : Implements repository release)
    (reached : repository.Reaches history state) (stored : repository.job? state jobId = some job) :
    job.Consistent := by
  unfold Reaches at reached
  induction reached generalizing job with
  | nil =>
      rw [implements.empty] at stored
      cases stored
  | @snoc earlier middle next event prior operates ih =>
      have entry := implements.entry operates jobId
      rw [stored] at entry
      generalize beforeEntry : repository.job? middle jobId = before at entry
      cases entry with
      | kept _ => exact ih beforeEntry
      | created isCreate _ _ => exact (operates.1 job isCreate).1.consistent
      | changed change => exact change.consistent (ih beforeEntry)

/-- Induction over a history as one job sees it: a call leaves its entry alone, creates
it, or changes the consistent job stored there. -/
theorem Reaches.entry_induction (implements : Implements repository release) (jobId : UUID)
    {motive : repository.History → Option EvaluationJob → Prop} (initial : motive [] none)
    (kept : ∀ earlier taken entry, motive earlier entry →
      repository.job? taken.source jobId = entry → repository.job? taken.target jobId = entry →
      (∀ job, taken.event.reply = .claim (.ok (some job)) → job.jobId ≠ jobId) →
      motive (earlier ++ [taken]) entry)
    (created : ∀ earlier taken job, motive earlier none →
      repository.job? taken.source jobId = none → repository.job? taken.target jobId = some job →
      taken.event.reply = .job (.ok job) → job.Submitted →
      motive (earlier ++ [taken]) (some job))
    (changed : ∀ earlier taken job next, motive earlier (some job) →
      repository.job? taken.source jobId = some job → repository.job? taken.target jobId = some next →
      job.Consistent →
      JobChange release taken.event.now jobId job taken.event.call taken.event.reply next →
      motive (earlier ++ [taken]) (some next))
    (reached : repository.Reaches history state) :
    motive history (repository.job? state jobId) := by
  unfold Reaches at reached
  induction reached with
  | nil =>
      rw [implements.empty]
      exact initial
  | @snoc earlier middle next event prior operates ih =>
      have entry := implements.entry operates jobId
      generalize beforeEntry : repository.job? middle jobId = before at entry ih
      generalize afterEntry : repository.job? next jobId = after at entry
      cases entry with
      | kept unclaimed => exact kept _ _ _ ih beforeEntry afterEntry unclaimed
      | created isCreate _ replied =>
          exact created _ _ _ ih beforeEntry afterEntry replied (operates.1 _ isCreate).1
      | changed change =>
          exact changed _ _ _ _ ih beforeEntry afterEntry (Reaches.consistent implements prior beforeEntry)
            change

theorem sameSubmission_of_run (implements : Implements repository release)
    (run : Run repository.Operates state later final)
    (stored : repository.job? state jobId = some job) :
    ∃ next, repository.job? final jobId = some next ∧ job.SameSubmission next := by
  induction run with
  | nil => exact ⟨job, stored, .refl job⟩
  | @snoc earlier middle next event prior operates ih =>
      obtain ⟨current, currentStored, same⟩ := ih
      have entry := implements.entry operates jobId
      rw [currentStored] at entry
      generalize afterEntry : repository.job? next jobId = after at entry
      cases entry with
      | kept _ => exact ⟨current, rfl, same⟩
      | changed change => exact ⟨_, rfl, same.trans change.sameSubmission⟩

/-- No call changes a succeeded or failed job, in any field. -/
theorem terminal_of_run (implements : Implements repository release)
    (run : Run repository.Operates state later final)
    (stored : repository.job? state jobId = some job) (terminal : job.status.Terminal) :
    repository.job? final jobId = some job := by
  induction run with
  | nil => exact stored
  | @snoc earlier middle next event prior operates ih =>
      have entry := implements.entry operates jobId
      rw [ih] at entry
      generalize afterEntry : repository.job? next jobId = after at entry
      cases entry with
      | kept _ => rfl
      | changed change => exact absurd terminal change.not_terminal

theorem statusChanges_snoc (history : repository.History)
    (taken : Transition repository.State RepositoryEvent) :
    repository.statusChanges jobId (history ++ [taken]) =
      repository.statusChanges jobId history +
        (if repository.changesStatus jobId taken then 1 else 0) := by
  simp [statusChanges, List.countP_append, List.countP_cons]

/-- The status changes so far and those still possible stay within twice the budget. -/
def WithinAllowance (changes : Nat) : Option EvaluationJob → Prop
  | none => changes = 0
  | some job => (changes : Int) + job.remainingChanges ≤ 2 * job.maxAttempts

theorem Reaches.allowance (implements : Implements repository release)
    (reached : repository.Reaches history state) (jobId : UUID) :
    WithinAllowance (repository.statusChanges jobId history) (repository.job? state jobId) := by
  refine reached.entry_induction implements jobId (motive := fun history entry =>
    WithinAllowance (repository.statusChanges jobId history) entry) rfl ?_ ?_ ?_
  · intro earlier taken entry within source target _
    have same : repository.changesStatus jobId taken = false := by
      unfold changesStatus
      rw [source, target]
      cases entry <;> simp
    simpa [statusChanges_snoc, same] using within
  · intro earlier taken job within source target _ submitted
    have same : repository.changesStatus jobId taken = false := by
      simp [changesStatus, source]
    have none : repository.statusChanges jobId earlier = 0 := within
    simp [WithinAllowance, statusChanges_snoc, same, none, EvaluationJob.remainingChanges,
      submitted.queued, submitted.unattempted]
  · intro earlier taken job next within source target sound change
    obtain ⟨_, less⟩ := change.remainingChanges_lt sound
    have budget := change.sameSubmission.maxAttempts
    dsimp only [WithinAllowance] at within ⊢
    rw [statusChanges_snoc, budget]
    split <;> push_cast <;> omega

structure Lifecycle (repository : JobRepository) (history : repository.History)
    (state : repository.State) (jobId : UUID) : Prop where
  edges : ∀ taken ∈ history, ∀ job, repository.job? taken.source jobId = some job →
    ∃ next, repository.job? taken.target jobId = some next ∧
      (job.status ≠ next.status → StatusEdge taken.event.call job.status next.status)
  frozen : ∀ job, repository.job? state jobId = some job → job.status.Terminal →
    ∀ later final, Run repository.Operates state later final →
      ∃ next, repository.job? final jobId = some next ∧ next.status = job.status ∧
        next.result = job.result ∧ next.errorMessage = job.errorMessage ∧
        next.attemptCount = job.attemptCount
  result : ∀ job, repository.job? state jobId = some job →
    (job.result.isSome ↔ job.status = .succeeded)
  message : ∀ job, repository.job? state jobId = some job → job.status = .failed →
    job.errorMessage.isSome
  bounded : ∀ job, repository.job? state jobId = some job →
    (repository.statusChanges jobId history : Int) ≤ 2 * job.maxAttempts

end JobRepository

open JobRepository

/-- Jobs of either repository follow the lifecycle in every history. -/
theorem job_lifecycle (backend : StorageBackend)
    (history : (buildRepository backend).History) (state : (buildRepository backend).State)
    (reached : (buildRepository backend).Reaches history state) (jobId : UUID) :
    Lifecycle (buildRepository backend) history state jobId := by
  have implements := buildRepository_implements backend
  constructor
  · intro taken member job stored
    have entry := implements.entry (Run.step_of_mem reached member) jobId
    rw [stored] at entry
    generalize afterEntry : (buildRepository backend).job? taken.target jobId = after at entry
    cases entry with
    | kept _ => exact ⟨job, rfl, fun different => absurd rfl different⟩
    | changed change => exact ⟨_, rfl, fun _ => change.statusEdge⟩
  · intro job stored terminal later final run
    exact ⟨job, terminal_of_run implements run stored terminal, rfl, rfl, rfl, rfl⟩
  · intro job stored
    exact (reached.consistent implements stored).resultIff
  · intro job stored
    exact (reached.consistent implements stored).failedMessage
  · intro job stored
    have allowance := reached.allowance implements jobId
    rw [stored] at allowance
    dsimp only [WithinAllowance] at allowance
    have nonnegative : 0 ≤ job.remainingChanges := by
      have withinBudget := (reached.consistent implements stored).withinBudget
      unfold EvaluationJob.remainingChanges
      split
      · omega
      · split <;> omega
      · omega
      · omega
    omega

/-- A job with two attempts uses all its status changes when the first attempt is lost. -/
theorem job_lifecycle_requeued :
    let calls : List (DateTime × RepositoryCall) :=
      [(0, .create (demoJob 7 2)), (1, .claimNextQueued), (2, .recoverStaleRunning 2),
        (3, .claimNextQueued), (4, .setSucceeded 7 demoResult)]
    let run := postgresRepository.replay postgresRepository.empty calls
    postgresRepository.statusChanges 7 run.1 = 4 ∧
      Lifecycle (buildRepository .postgres) run.1 run.2 7 := by
  refine ⟨by decide, job_lifecycle .postgres _ _ ?_ 7⟩
  exact postgresRepository.reaches_replay _ (by decide)

end EvaluationService
