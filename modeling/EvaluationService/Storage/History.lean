import EvaluationService.Foundation.Run
import EvaluationService.Storage.Contract

/-!
Histories of a repository: any finite sequence of calls, by any callers, from the
empty store, in which every created job is a freshly submitted one. Each call is
read as what it does to one job at a time.
-/

set_option autoImplicit false

namespace EvaluationService

open Foundation

/-- The shape in which `EvaluationJobService.submit` creates jobs. -/
structure EvaluationJob.Submitted (job : EvaluationJob) : Prop where
  queued : job.status = .queued
  unattempted : job.attemptCount = 0
  budget : 1 ≤ job.maxAttempts
  unclaimed : job.claimedAt = none
  noResult : job.result = none
  noMessage : job.errorMessage = none

instance (job : EvaluationJob) : Decidable job.Submitted :=
  decidable_of_iff (job.status = .queued ∧ job.attemptCount = 0 ∧ 1 ≤ job.maxAttempts ∧
      job.claimedAt = none ∧ job.result = none ∧ job.errorMessage = none)
    ⟨fun ⟨queued, unattempted, budget, unclaimed, noResult, noMessage⟩ =>
      ⟨queued, unattempted, budget, unclaimed, noResult, noMessage⟩,
    fun submitted => ⟨submitted.queued, submitted.unattempted, submitted.budget,
      submitted.unclaimed, submitted.noResult, submitted.noMessage⟩⟩

namespace JobRepository

variable (repository : JobRepository)

/-- A call that may occur in a history: it creates only fresh, submitted jobs. -/
def Admissible (state : repository.State) (call : RepositoryCall) : Prop :=
  ∀ job, call = .create job → job.Submitted ∧ repository.job? state job.jobId = none

instance (state : repository.State) (call : RepositoryCall) :
    Decidable (repository.Admissible state call) :=
  match call with
  | .create job =>
      decidable_of_iff (job.Submitted ∧ repository.job? state job.jobId = none)
        ⟨fun fresh _ same => RepositoryCall.create.inj same ▸ fresh, fun fresh => fresh job rfl⟩
  | .get _ | .getForTenant _ _ | .listRecent _ _ _ | .claimNextQueued | .recoverStaleRunning _
  | .setRunning _ | .setSucceeded _ _ | .setFailed _ _ => isTrue (by intro _ same; cases same)

def Operates (state : repository.State) (event : RepositoryEvent) (next : repository.State) : Prop :=
  repository.Admissible state event.call ∧ repository.Step state event next

abbrev History : Type := List (Transition repository.State RepositoryEvent)

def Reaches (history : repository.History) (state : repository.State) : Prop :=
  Run repository.Operates repository.empty history state

def replay (state : repository.State) : List (DateTime × RepositoryCall) →
    repository.History × repository.State
  | [] => ([], state)
  | (now, call) :: rest =>
      let (reply, next) := repository.perform state now call
      let (history, final) := replay next rest
      (⟨state, ⟨now, call, reply⟩, next⟩ :: history, final)

def Replayable (state : repository.State) : List (DateTime × RepositoryCall) → Prop
  | [] => True
  | (now, call) :: rest =>
      repository.Admissible state call ∧ Replayable (repository.perform state now call).2 rest

instance decidableReplayable (state : repository.State) :
    (calls : List (DateTime × RepositoryCall)) → Decidable (repository.Replayable state calls)
  | [] => isTrue trivial
  | (now, call) :: rest =>
      have := decidableReplayable (repository.perform state now call).2 rest
      inferInstanceAs (Decidable (_ ∧ _))

theorem run_replay {state : repository.State} {calls : List (DateTime × RepositoryCall)}
    (replayable : repository.Replayable state calls) :
    Run repository.Operates state (repository.replay state calls).1
      (repository.replay state calls).2 := by
  induction calls generalizing state with
  | nil => exact .nil
  | cons head rest ih =>
      obtain ⟨now, call⟩ := head
      obtain ⟨admissible, remaining⟩ := replayable
      have first : repository.Operates state ⟨now, call, (repository.perform state now call).1⟩
          (repository.perform state now call).2 :=
        ⟨admissible, state, repository.arranges_refl state, rfl⟩
      exact (Run.single first).append (ih remaining)

theorem reaches_replay (calls : List (DateTime × RepositoryCall))
    (replayable : repository.Replayable repository.empty calls) :
    repository.Reaches (repository.replay repository.empty calls).1
      (repository.replay repository.empty calls).2 :=
  repository.run_replay replayable

end JobRepository

def demoRequest : EvaluationRequest where
  tenantId := "tenant-a"
  projectId := "project-a"
  question := "Why use typed errors?"
  answer := "Typed errors make API behavior predictable."
  tenantIdLength := by decide
  projectIdLength := by decide
  questionLength := by decide
  answerLength := by decide
  rubricLength := by decide

def demoJob (jobId : UUID) (maxAttempts : Int) : EvaluationJob where
  jobId := jobId
  tenantId := demoRequest.tenantId
  projectId := demoRequest.projectId
  status := .queued
  request := demoRequest
  maxAttempts := maxAttempts
  createdAt := 0
  updatedAt := 0

def demoResult : EvaluationResult := ⟨80, "Good answer.", false, by decide, by decide⟩

/-! ## What one call does to one job -/

inductive JobChange (release : Option DateTime → Option DateTime) (now : DateTime) (jobId : UUID)
    (job : EvaluationJob) : RepositoryCall → RepositoryReply → EvaluationJob → Prop where
  | claimed : job.jobId = jobId → job.Claimable →
      JobChange release now jobId job .claimNextQueued (.claim (.ok (some (job.claimed now))))
        (job.claimed now)
  | requeued {cutoff : DateTime} {count : Nat} : job.Stale cutoff →
      job.attemptCount < job.maxAttempts →
      JobChange release now jobId job (.recoverStaleRunning cutoff) (.count (.ok count))
        (job.requeued now)
  | timedOut {cutoff : DateTime} {count : Nat} : job.Stale cutoff →
      job.maxAttempts ≤ job.attemptCount →
      JobChange release now jobId job (.recoverStaleRunning cutoff) (.count (.ok count))
        (job.timedOut now)
  | started : job.status = .queued →
      JobChange release now jobId job (.setRunning jobId) (.job (.ok (job.started now)))
        (job.started now)
  | succeeded {result : EvaluationResult} : job.status = .running →
      JobChange release now jobId job (.setSucceeded jobId result)
        (.job (.ok (job.succeeded release now result))) (job.succeeded release now result)
  | failed {message : String} : job.status = .queued ∨ job.status = .running →
      JobChange release now jobId job (.setFailed jobId message)
        (.job (.ok (job.failed release now message))) (job.failed release now message)

/-- What can happen to the entry of one identifier. -/
inductive EntryChange (release : Option DateTime → Option DateTime) (now : DateTime) (jobId : UUID)
    (call : RepositoryCall) (reply : RepositoryReply) :
    Option EvaluationJob → Option EvaluationJob → Prop where
  | kept {entry : Option EvaluationJob} :
      (∀ job, reply = .claim (.ok (some job)) → job.jobId ≠ jobId) →
      EntryChange release now jobId call reply entry entry
  | created {job : EvaluationJob} : call = .create job → job.jobId = jobId →
      reply = .job (.ok job) → EntryChange release now jobId call reply none (some job)
  | changed {job next : EvaluationJob} : JobChange release now jobId job call reply next →
      EntryChange release now jobId call reply (some job) (some next)

variable {release : Option DateTime → Option DateTime} {now : DateTime} {before after : Lookup}
variable {call : RepositoryCall} {reply : RepositoryReply}

private theorem updated_entry {jobId other : UUID} {job : EvaluationJob} (next : EvaluationJob)
    (stored : before jobId = some job)
    (handed : ∀ given, reply = .claim (.ok (some given)) → given.jobId = jobId)
    (changed : JobChange release now jobId job call reply next) :
    EntryChange release now other call reply (before other)
      (Function.update before jobId (some next) other) := by
  by_cases same : other = jobId
  · subst same
    rw [Function.update_self, stored]
    exact .changed changed
  · rw [Function.update_of_ne same]
    exact .kept fun given claimed equal => same (equal.symm.trans (handed given claimed))

theorem Effect.entry (effect : Effect release now before call reply after) (jobId : UUID) :
    EntryChange release now jobId call reply (before jobId) (after jobId) := by
  cases effect with
  | get => exact .kept (by simp)
  | getForTenant => exact .kept (by simp)
  | listRecent _ _ _ => exact .kept (by simp)
  | claimNone _ => exact .kept (by simp)
  | @create job absent =>
      by_cases same : jobId = job.jobId
      · subst same
        rw [Function.update_self, absent]
        exact .created rfl rfl rfl
      · rw [Function.update_of_ne same]
        exact .kept (by simp)
  | @claim job stored claimable _ =>
      refine updated_entry _ stored ?_ (.claimed rfl claimable)
      intro given claimed
      cases claimed
      rfl
  | @recover cutoff stale _ _ =>
      dsimp only
      cases stored : before jobId with
      | none => exact .kept (by simp)
      | some job =>
          rw [Option.map_some, EvaluationJob.recovered]
          split
          · rename_i isStale
            split
            · rename_i exhausted
              exact .changed (.timedOut isStale exhausted)
            · rename_i remaining
              exact .changed (.requeued isStale (by omega))
          · exact .kept (by simp)
  | @start target job stored queued =>
      exact updated_entry _ stored (by simp) (.started queued)
  | @succeed target job result stored running =>
      exact updated_entry _ stored (by simp) (.succeeded running)
  | @fail target job message stored unfinished =>
      exact updated_entry _ stored (by simp) (.failed unfinished)
  | refuse _ _ => exact .kept (by simp)

theorem Implements.operates {repository : JobRepository}
    (implements : Implements repository release)
    {state next : repository.State} {event : RepositoryEvent}
    (operates : repository.Operates state event next) :
    Effect release event.now (repository.job? state) event.call event.reply
      (repository.job? next) := by
  obtain ⟨admissible, taken⟩ := operates
  exact implements.step (fun job created => (admissible job created).2) taken

theorem Implements.entry {repository : JobRepository} (implements : Implements repository release)
    {state next : repository.State} {event : RepositoryEvent}
    (operates : repository.Operates state event next) (jobId : UUID) :
    EntryChange release event.now jobId event.call event.reply (repository.job? state jobId)
      (repository.job? next jobId) :=
  (implements.operates operates).entry jobId

end EvaluationService
