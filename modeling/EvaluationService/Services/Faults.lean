import EvaluationService.Services.Completion

/-!
Database errors. A repository call may end in an exception of the driver, before its
transaction is committed or after it: the store is as it was or as the call leaves it, and
the caller hears the exception in place of the reply. The service has no retry for any of
them, so a run with such errors is a run of the same threads over a store that may fail.
-/

set_option autoImplicit false

namespace EvaluationService

open Foundation

variable {repository : JobRepository} {release : Option DateTime → Option DateTime}
variable {evaluator : EvaluatorBehavior} {staleJobSeconds : Int}

/-- An exception that is no application error, where the reply of the call is awaited. -/
def RepositoryCall.raised (className : String) : RepositoryCall → RepositoryReply
  | create _ | get _ | getForTenant _ _ | setRunning _ | setSucceeded _ _ | setFailed _ _ =>
      .job (.error (.other className))
  | listRecent _ _ _ => .jobs (.error (.other className))
  | claimNextQueued => .claim (.error (.other className))
  | recoverStaleRunning _ => .count (.error (.other className))

def JobRepository.Fails (repository : JobRepository) (state : repository.State)
    (event : RepositoryEvent) (next : repository.State) : Prop :=
  (∃ className, event.reply = event.call.raised className) ∧
    (next = state ∨ ∃ reply, repository.Step state ⟨event.now, event.call, reply⟩ next)

/-- What a thread may hear when calls may fail. -/
def HeardUnreliably (repository : JobRepository) (evaluator : EvaluatorBehavior)
    (call? : Option RepositoryCall) (request? : Option EvaluationRequest) (store : repository.State)
    (signal : Signal) (next : repository.State) : Prop :=
  Heard repository evaluator call? request? store signal next ∨
    ∃ call ∈ call?, ∃ now reply, signal = .replied now reply ∧
      repository.Fails store ⟨now, call, reply⟩ next

/-- An awaited call is answered, or raises an exception of the driver. -/
theorem HeardUnreliably.step_or_raised {call : RepositoryCall}
    {request? : Option EvaluationRequest} {store next : repository.State} {now : DateTime}
    {reply : RepositoryReply}
    (heard : HeardUnreliably repository evaluator (some call) request? store (.replied now reply)
      next) :
    repository.Step store ⟨now, call, reply⟩ next ∨ ∃ className, reply = call.raised className := by
  rcases heard with ⟨_, waits, stepped⟩ | ⟨_, waits, _, _, same, raised, -⟩
  · cases waits
    exact .inl stepped
  · cases waits
    cases same
    exact .inr raised

/-- `submit` whose `create` fails: the job may be stored all the same. -/
def World.FailsToSubmit (world : World repository) (submission : Submission)
    (next : World repository) : Prop :=
  repository.job? world.store submission.jobId = none ∧
    next.telemetry = world.telemetry ++ [createSpan submission.job] ∧
    (next.store = world.store ∧ next.submissions = world.submissions ∨
      (∃ outcome, repository.Step world.store ⟨submission.now, .create submission.job, .job outcome⟩
        next.store) ∧ next.submissions = world.submissions ++ [submission])

def World.ActsUnreliably (evaluator : EvaluatorBehavior) (staleJobSeconds : Int)
    (world : World repository) (thread : Thread) (signal : Signal) (next : World repository)
    (following : Thread) : Prop :=
  ∃ after, thread.next staleJobSeconds signal = some after ∧ following = after.1 ∧
    HeardUnreliably repository evaluator thread.call? thread.scoring? world.store signal next.store ∧
    next.submissions = world.submissions ∧ next.telemetry = world.telemetry ++ after.2

/-- The service over a repository whose calls may fail at any time. -/
def unreliableSystem (repository : JobRepository) (evaluator : EvaluatorBehavior)
    (staleJobSeconds : Int) : Program (World repository) Thread Submission Signal where
  arrives world submission next :=
    World.Submits repository world submission next ∨ world.FailsToSubmit submission next
  starts := World.Starts repository
  acts := World.ActsUnreliably evaluator staleJobSeconds

def UnreliableReaches (repository : JobRepository) (evaluator : EvaluatorBehavior)
    (staleJobSeconds : Int) (trace : SystemTrace repository)
    (pool : Pool (World repository) Thread) : Prop :=
  Run (unreliableSystem repository evaluator staleJobSeconds).Step (.idle (.initial repository)) trace
    pool

section Steps

variable {pool next : Pool (World repository) Thread} {event : SystemEvent}

/-- Calls need not fail. -/
theorem unreliable_of_system
    (stepped : (system repository evaluator staleJobSeconds).Step pool event next) :
    (unreliableSystem repository evaluator staleJobSeconds).Step pool event next := by
  cases stepped with
  | arrive submits => exact .arrive (.inl submits)
  | start free starts => exact .start free starts
  | act found acted =>
      obtain ⟨after, moved, isAfter, heard, kept⟩ := acted
      exact .act found ⟨after, moved, isAfter, .inl heard, kept⟩

theorem SystemReaches.unreliable {trace : SystemTrace repository}
    (reached : SystemReaches repository evaluator staleJobSeconds trace pool) :
    UnreliableReaches repository evaluator staleJobSeconds trace pool :=
  Run.mono (fun _ _ _ => unreliable_of_system) reached

/-- Whatever a thread hears, the store has taken one call of it or none. -/
theorem HeardUnreliably.operates {thread : Thread} {signal : Signal} {store after : repository.State}
    (heard : HeardUnreliably repository evaluator thread.call? thread.scoring? store signal after) :
    after = store ∨ ∃ call now reply, thread.call? = some call ∧
      repository.Operates store ⟨now, call, reply⟩ after := by
  have admissible {call : RepositoryCall} (waits : thread.call? = some call) :
      repository.Admissible store call :=
    fun job create => absurd create (Thread.call?_ne_create waits job)
  rcases heard with heard | ⟨call, waits, now, _, -, -, same | ⟨reply, stepped⟩⟩
  · cases signal with
    | replied now reply =>
        obtain ⟨call, waits, stepped⟩ := heard
        exact .inr ⟨call, now, reply, waits, admissible waits, stepped⟩
    | scored _ => exact .inl heard.1
    | resumed _ => exact .inl heard
    | stop => exact .inl heard
  · exact .inl same
  · exact .inr ⟨call, now, reply, waits, admissible waits, stepped⟩

theorem submission_admissible {store : repository.State} {submission : Submission}
    (fresh : repository.job? store submission.jobId = none) :
    repository.Admissible store (.create submission.job) := by
  intro job create
  cases create
  exact ⟨submission.submitted, fresh⟩

/-- With failures too, every step is a repository call, or nothing to the repository. -/
theorem unreliable_step_operates
    (stepped : (unreliableSystem repository evaluator staleJobSeconds).Step pool event next) :
    next.store.store = pool.store.store ∨
      ∃ seen, repository.Operates pool.store.store seen next.store.store := by
  cases stepped with
  | arrive submits =>
      rcases submits with submits | ⟨fresh, -, ⟨same, -⟩ | ⟨⟨outcome, stepped⟩, -⟩⟩
      · obtain ⟨outcome, operates⟩ := World.Submits.operates submits
        exact .inr ⟨_, operates⟩
      · exact .inl same
      · exact .inr ⟨_, submission_admissible fresh, stepped⟩
  | start _ starts =>
      rcases starts with ⟨_, _, rfl⟩ | ⟨_, rfl⟩
      · exact .inl rfl
      · exact .inl rfl
  | act _ acts =>
      obtain ⟨after, -, -, heard, -⟩ := acts
      rcases heard.operates with same | ⟨call, now, reply, -, operates⟩
      · exact .inl same
      · exact .inr ⟨_, operates⟩

def KeepsFinished (before after : Lookup) : Prop :=
  ∀ jobId stored, before jobId = some stored → stored.status.Terminal → after jobId = some stored

theorem keepsFinished_of_step (implements : Implements repository release)
    (stepped : (unreliableSystem repository evaluator staleJobSeconds).Step pool event next) :
    KeepsFinished (repository.job? pool.store.store) (repository.job? next.store.store) := by
  intro jobId stored found terminal
  rcases unreliable_step_operates stepped with same | ⟨seen, operates⟩
  · rw [same]
    exact found
  · exact JobRepository.terminal_of_run implements (.single operates) found terminal

theorem keepsSubmissions_of_step (implements : Implements repository release)
    (stepped : (unreliableSystem repository evaluator staleJobSeconds).Step pool event next) :
    KeepsSubmissions (repository.job? pool.store.store) (repository.job? next.store.store) := by
  rcases unreliable_step_operates stepped with same | ⟨seen, operates⟩
  · rw [same]
    exact .refl _
  · exact keepsSubmissions_of_operates implements operates

end Steps

/-! ## Jobs and submissions -/

/-- The stored jobs are those of the submissions, failed ones included whose job was stored. -/
structure World.Recorded (world : World repository) : Prop where
  stored : ∀ submission ∈ world.submissions,
    ∃ job, repository.job? world.store submission.jobId = some job
  submitted : ∀ jobId job, repository.job? world.store jobId = some job →
    ∃ submission ∈ world.submissions, submission.jobId = jobId

section Recorded

variable {world next : World repository}

theorem World.Recorded.operates (implements : Implements repository release)
    (recorded : world.Recorded) {event : RepositoryEvent}
    (operates : repository.Operates world.store event next.store)
    (notCreated : ∀ job, event.call ≠ .create job) (same : next.submissions = world.submissions) :
    next.Recorded := by
  refine ⟨?_, ?_⟩
  · intro submission member
    rw [same] at member
    obtain ⟨job, found⟩ := recorded.stored submission member
    obtain ⟨kept, isKept, -⟩ := keepsSubmissions_of_operates implements operates _ _ found
    exact ⟨kept, isKept⟩
  · intro jobId job found
    rw [same]
    have entry := implements.entry operates jobId
    rw [found] at entry
    generalize before : repository.job? world.store jobId = earlier at entry
    cases entry with
    | kept _ => exact recorded.submitted jobId job before
    | created create _ _ => exact absurd create (notCreated _)
    | changed _ => exact recorded.submitted jobId _ before

theorem World.Recorded.creates (implements : Implements repository release)
    (recorded : world.Recorded) {submission : Submission} {outcome : Except Exn EvaluationJob}
    (operates : repository.Operates world.store
      ⟨submission.now, .create submission.job, .job outcome⟩ next.store)
    (added : next.submissions = world.submissions ++ [submission]) : next.Recorded := by
  refine ⟨?_, ?_⟩
  · intro other member
    rw [added] at member
    rcases List.mem_append.mp member with earlier | last
    · obtain ⟨job, found⟩ := recorded.stored other earlier
      obtain ⟨kept, isKept, -⟩ := keepsSubmissions_of_operates implements operates _ _ found
      exact ⟨kept, isKept⟩
    · rw [List.mem_singleton.mp last]
      exact ⟨_, (implements.operates operates).create_stored⟩
  · intro jobId job found
    rw [added]
    have entry := implements.entry operates jobId
    rw [found] at entry
    generalize before : repository.job? world.store jobId = earlier at entry
    cases entry with
    | kept _ =>
        obtain ⟨other, member, isOther⟩ := recorded.submitted jobId job before
        exact ⟨other, List.mem_append_left _ member, isOther⟩
    | created create identified _ =>
        cases create
        exact ⟨submission, List.mem_append_right _ List.mem_cons_self, identified⟩
    | changed change => cases change

theorem UnreliableReaches.recorded (implements : Implements repository release)
    {trace : SystemTrace repository} {pool : Pool (World repository) Thread}
    (reached : UnreliableReaches repository evaluator staleJobSeconds trace pool) :
    pool.store.Recorded := by
  refine Run.preserves (fun pool => pool.store.Recorded) ?_ reached ?_
  · intro pool event next stepped recorded
    cases stepped with
    | arrive submits =>
        rcases submits with submits | ⟨fresh, -, ⟨same, unchanged⟩ | ⟨⟨outcome, stepped⟩, added⟩⟩
        · obtain ⟨outcome, operates⟩ := World.Submits.operates submits
          obtain ⟨-, -, -, added, -⟩ := submits
          exact recorded.creates implements operates added
        · refine ⟨?_, ?_⟩
          · rw [unchanged, same]
            exact recorded.stored
          · rw [unchanged, same]
            exact recorded.submitted
        · exact recorded.creates implements ⟨submission_admissible fresh, stepped⟩ added
    | start _ starts =>
        rcases starts with ⟨_, _, rfl⟩ | ⟨_, rfl⟩
        · exact recorded
        · exact ⟨recorded.stored, recorded.submitted⟩
    | act _ acts =>
        obtain ⟨after, -, -, heard, unchanged, -⟩ := acts
        rcases heard.operates with same | ⟨call, now, reply, waits, operates⟩
        · refine ⟨?_, ?_⟩
          · rw [unchanged, same]
            exact recorded.stored
          · rw [unchanged, same]
            exact recorded.submitted
        · exact recorded.operates implements operates
            (fun job create => Thread.call?_ne_create waits job create) unchanged
  · constructor
    · intro submission member
      cases member
    · intro jobId job found
      have absent : repository.job? repository.empty jobId = none := implements.empty jobId
      exact nomatch absent.symm.trans found

end Recorded

end EvaluationService
