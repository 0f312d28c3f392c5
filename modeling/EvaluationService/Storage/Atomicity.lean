import EvaluationService.Storage.History
import EvaluationService.Storage.SharedJobs

/-!
The methods of the in-memory repository are atomic to other tasks. No method suspends: it
finds the lock free, because every other task is outside the repository while one runs. So
tasks see the job objects only between whole methods, with the outcome of every status.
-/

set_option autoImplicit false

namespace EvaluationService

open Foundation Cooperative

/-! ## What a method does to an object -/

/-- What a whole method makes of a job object. -/
inductive ObjectChange (job : EvaluationJob) : EvaluationJob → Prop where
  | same : ObjectChange job job
  | claimed {now : DateTime} : job.status = .queued →
      ObjectChange job (InMemoryJobRepository.claimJob now job)
  | recovered {now : DateTime} : job.status = .running →
      ObjectChange job (InMemoryJobRepository.recoverJob now job)
  | started {now : DateTime} : job.status = .queued →
      ObjectChange job (InMemoryJobRepository.moveJob now .running job)
  | succeeded {first second : DateTime} {result : EvaluationResult} : job.status = .running →
      ObjectChange job (InMemoryJobRepository.writeResult second result
        (InMemoryJobRepository.moveJob first .succeeded job))
  | failed {first second : DateTime} {message : String} :
      job.status = .queued ∨ job.status = .running →
      ObjectChange job (InMemoryJobRepository.writeMessage second message
        (InMemoryJobRepository.moveJob first .failed job))

/-- A job that ended has what it ended with. -/
structure HasOutcome (job : EvaluationJob) : Prop where
  result : job.status = .succeeded → job.result ≠ none
  message : job.status = .failed → job.errorMessage ≠ none

theorem HasOutcome.of_unfinished {job : EvaluationJob}
    (unfinished : job.status = .queued ∨ job.status = .running) : HasOutcome job := by
  constructor
  · intro ended
    rw [ended] at unfinished
    rcases unfinished with isOther | isOther <;> cases isOther
  · intro ended
    rw [ended] at unfinished
    rcases unfinished with isOther | isOther <;> cases isOther

theorem HasOutcome.of_result {job : EvaluationJob} {result : EvaluationResult}
    (ended : job.status = .succeeded) (written : job.result = some result) : HasOutcome job := by
  constructor
  · rw [written]
    exact fun _ => Option.some_ne_none result
  · rw [ended]
    exact fun isFailed => nomatch isFailed

theorem HasOutcome.of_message {job : EvaluationJob} {message : String}
    (ended : job.status = .failed) (written : job.errorMessage = some message) :
    HasOutcome job := by
  constructor
  · rw [ended]
    exact fun isSucceeded => nomatch isSucceeded
  · rw [written]
    exact fun _ => Option.some_ne_none message

theorem ObjectChange.hasOutcome {job changed : EvaluationJob} (change : ObjectChange job changed)
    (has : HasOutcome job) : HasOutcome changed := by
  cases change with
  | same => exact has
  | claimed _ => exact .of_unfinished (.inr rfl)
  | recovered _ =>
      unfold InMemoryJobRepository.recoverJob
      split
      · exact .of_message rfl rfl
      · exact .of_unfinished (.inl rfl)
  | started _ => exact .of_unfinished (.inr rfl)
  | succeeded _ => exact .of_result rfl rfl
  | failed _ => exact .of_message rfl rfl

/-- A method leaves a job alone that has ended. -/
theorem ObjectChange.eq_of_ended {job changed : EvaluationJob} (change : ObjectChange job changed)
    (ended : job.status = .succeeded ∨ job.status = .failed) : changed = job := by
  cases change with
  | same => rfl
  | claimed status | recovered status | started status | succeeded status =>
      rw [status] at ended
      rcases ended with isEnded | isEnded <;> cases isEnded
  | failed status =>
      rcases status with status | status <;> rw [status] at ended <;>
        rcases ended with isEnded | isEnded <;> cases isEnded

namespace JobObjects

variable {jobs : JobObjects}

@[simp] theorem objects_store (jobId : UUID) (job : Address) :
    (jobs.store jobId job).objects = jobs.objects := rfl

theorem objects_assign (job : Address) (change : EvaluationJob → EvaluationJob) (other : Address) :
    (jobs.assign job change).objects other =
      if other = job then change (jobs.objects job) else jobs.objects other :=
  Function.update_apply _ _ _ _

theorem change_assign {job : Address} {change : EvaluationJob → EvaluationJob}
    (changes : ObjectChange (jobs.objects job) (change (jobs.objects job))) (other : Address) :
    ObjectChange (jobs.objects other) ((jobs.assign job change).objects other) := by
  rw [objects_assign]
  split
  · rename_i same
    rw [same]
    exact changes
  · exact .same

theorem change_claimNextQueued (now : DateTime) (job : Address) :
    ObjectChange (jobs.objects job) ((jobs.claimNextQueued now).objects job) := by
  unfold claimNextQueued
  cases found : jobs.nextQueued? with
  | none => exact .same
  | some claimed =>
      have queued := (sortBy_perm _ _).mem_iff.mp (List.mem_of_head? found)
      have isQueued : (jobs.objects claimed).status = .queued := by
        have test := List.of_mem_filter queued
        rw [decide_eq_true_eq] at test
        exact test.1
      exact change_assign (.claimed isQueued) job

/-- The recovery loop changes an object at most once: it is not running afterwards. -/
theorem change_recoverOne {start : JobObjects} {now cutoff : DateTime} {counted : Nat × JobObjects}
    {visited : Address} (unvisited : ∀ job, counted.2.objects job = start.objects job ∨
      (start.objects job).status = .running ∧
        counted.2.objects job = InMemoryJobRepository.recoverJob now (start.objects job)) :
    ∀ job, (recoverOne now cutoff counted visited).2.objects job = start.objects job ∨
      (start.objects job).status = .running ∧
        (recoverOne now cutoff counted visited).2.objects job =
          InMemoryJobRepository.recoverJob now (start.objects job) := by
  intro job
  unfold recoverOne
  split
  · rename_i stale
    have isRunning : (counted.2.objects visited).status = .running := by
      unfold InMemoryJobRepository.isStale at stale
      split at stale
      · cases stale
      · rename_i running
        exact not_not.mp running
    simp only [objects_store, objects_assign]
    split
    · rename_i same
      subst same
      rcases unvisited job with earlier | ⟨_, recovered⟩
      · rw [← earlier]
        exact .inr ⟨isRunning, rfl⟩
      · rw [recovered, InMemoryJobRepository.recoverJob] at isRunning
        split at isRunning <;> cases isRunning
    · exact unvisited job
  · exact unvisited job

theorem change_recoverStaleRunning (now cutoff : DateTime) (job : Address) :
    ObjectChange (jobs.objects job) ((jobs.recoverStaleRunning now cutoff).2.objects job) := by
  have changed := List.foldlRecOn (motive := fun counted : Nat × JobObjects => ∀ job,
    counted.2.objects job = jobs.objects job ∨ (jobs.objects job).status = .running ∧
      counted.2.objects job = InMemoryJobRepository.recoverJob now (jobs.objects job))
    jobs.values (recoverOne now cutoff) (b := (0, jobs)) (fun job => .inl rfl)
    (fun counted unvisited visited _ => change_recoverOne unvisited)
  rcases changed job with same | ⟨isRunning, recovered⟩
  · rw [recoverStaleRunning, same]
    exact .same
  · rw [recoverStaleRunning, recovered]
    exact .recovered isRunning

theorem transition_cases (now : DateTime) (jobId : UUID) (allowedFrom : List JobStatus)
    (target : JobStatus) :
    (∃ error, jobs.transition now jobId allowedFrom target = (.error error, jobs)) ∨
      ∃ job, (jobs.objects job).status ∈ allowedFrom ∧
        jobs.transition now jobId allowedFrom target = (.ok job,
          (jobs.assign job (InMemoryJobRepository.moveJob now target)).store jobId job) := by
  unfold transition
  cases jobs.find? jobId with
  | none => exact .inl ⟨_, rfl⟩
  | some job =>
      by_cases allowed : (jobs.objects job).status ∈ allowedFrom
      · exact .inr ⟨job, allowed, if_neg (not_not.mpr allowed)⟩
      · exact .inl ⟨_, if_pos allowed⟩

end JobObjects

/-! ## Whole methods -/

section

variable {jobs next : JobObjects} {reply : SharedReply}

theorem of_runs_done {result : SharedReply}
    (runs : Runs (.done result : RepositoryProgram) jobs reply next) :
    reply = result ∧ next = jobs := by
  cases runs
  exact ⟨rfl, rfl⟩

theorem of_runs_withLock {block : DateTime → JobObjects → JobObjects}
    {rest : DateTime → JobObjects → RepositoryProgram}
    (runs : Runs (withLock block rest) jobs reply next) :
    ∃ now, Runs (rest now jobs) (block now jobs) reply next := by
  cases runs with
  | acquire inner =>
      cases inner with
      | access now after =>
          cases after with
          | release outer => exact ⟨now, outer⟩

theorem of_runs_unlocked {rest : JobObjects → RepositoryProgram}
    (runs : Runs (unlocked rest) jobs reply next) : Runs (rest jobs) jobs reply next := by
  cases runs with
  | access now after => exact after

theorem of_runs_finishJob {jobId : UUID} {allowedFrom : List JobStatus} {target : JobStatus}
    {write : DateTime → EvaluationJob → EvaluationJob}
    (runs : Runs (finishJob jobId allowedFrom target write) jobs reply next) :
    (∃ error, reply = .job (.error error) ∧ next = jobs) ∨
      ∃ first second job, (jobs.objects job).status ∈ allowedFrom ∧ reply = .job (.ok job) ∧
        ∀ other, next.objects other =
          if other = job then
            write second (InMemoryJobRepository.moveJob first target (jobs.objects job))
          else jobs.objects other := by
  obtain ⟨first, runs⟩ := of_runs_withLock runs
  rcases jobs.transition_cases first jobId allowedFrom target with ⟨error, refused⟩ | ⟨job, allowed, moved⟩
  · rw [refused] at runs
    obtain ⟨isReply, same⟩ := of_runs_done runs
    exact .inl ⟨error, isReply, same⟩
  · rw [moved] at runs
    obtain ⟨second, runs⟩ := of_runs_withLock runs
    obtain ⟨isReply, rfl⟩ := of_runs_done runs
    refine .inr ⟨first, second, job, allowed, isReply, fun other => ?_⟩
    simp only [JobObjects.writeOutcome, JobObjects.objects_store, JobObjects.objects_assign, if_true]
    split <;> rfl

theorem change_of_runs_finishJob {jobId : UUID} {allowedFrom : List JobStatus} {target : JobStatus}
    {write : DateTime → EvaluationJob → EvaluationJob}
    (changes : ∀ {first second job}, job.status ∈ allowedFrom →
      ObjectChange job (write second (InMemoryJobRepository.moveJob first target job)))
    (runs : Runs (finishJob jobId allowedFrom target write) jobs reply next) (job : Address) :
    ObjectChange (jobs.objects job) (next.objects job) := by
  rcases of_runs_finishJob runs with ⟨_, _, rfl⟩ | ⟨first, second, ended, allowed, _, objects⟩
  · exact .same
  · rw [objects job]
    split
    · rename_i same
      rw [same]
      exact changes allowed
    · exact .same

/-- What a whole method makes of the job objects. -/
theorem change_of_runs {call : SharedCall} (runs : Runs (repositoryProgram call) jobs reply next)
    (job : Address) : ObjectChange (jobs.objects job) (next.objects job) := by
  cases call with
  | create _ | get _ =>
      obtain ⟨_, runs⟩ := of_runs_withLock runs
      obtain ⟨_, rfl⟩ := of_runs_done runs
      exact .same
  | getForTenant jobId tenantId =>
      obtain ⟨_, runs⟩ := of_runs_withLock runs
      cases found : jobs.get jobId with
      | error error =>
          rw [found] at runs
          obtain ⟨_, rfl⟩ := of_runs_done runs
          exact .same
      | ok found' =>
          rw [found] at runs
          obtain ⟨_, rfl⟩ := of_runs_done (of_runs_unlocked runs)
          exact .same
  | listRecent tenantId projectId limit =>
      obtain ⟨_, runs⟩ := of_runs_withLock runs
      obtain ⟨_, rfl⟩ := of_runs_done (of_runs_unlocked runs)
      exact .same
  | claimNextQueued =>
      obtain ⟨now, runs⟩ := of_runs_withLock runs
      obtain ⟨_, rfl⟩ := of_runs_done runs
      exact JobObjects.change_claimNextQueued now job
  | recoverStaleRunning cutoff =>
      obtain ⟨now, runs⟩ := of_runs_withLock runs
      obtain ⟨_, rfl⟩ := of_runs_done runs
      exact JobObjects.change_recoverStaleRunning now cutoff job
  | setRunning jobId =>
      obtain ⟨now, runs⟩ := of_runs_withLock runs
      obtain ⟨_, rfl⟩ := of_runs_done runs
      rcases jobs.transition_cases now jobId [.queued] .running with
        ⟨error, refused⟩ | ⟨moved, allowed, isMoved⟩
      · rw [refused]
        exact .same
      · rw [isMoved]
        exact JobObjects.change_assign (.started (List.mem_singleton.mp allowed)) job
  | setSucceeded jobId result =>
      exact change_of_runs_finishJob (fun status => .succeeded (List.mem_singleton.mp status)) runs job
  | setFailed jobId message =>
      exact change_of_runs_finishJob (fun status => .failed (by simpa using status)) runs job
  | healthCheck | close =>
      obtain ⟨_, rfl⟩ := of_runs_done runs
      exact .same

/-- What the answer of an operation says about its object. -/
def Delivered (jobs : JobObjects) : Completed SharedCall SharedReply → Prop
  | ⟨.setSucceeded _ result, .job (.ok job)⟩ =>
      (jobs.objects job).status = .succeeded ∧ (jobs.objects job).result = some result
  | ⟨.setFailed _ message, .job (.ok job)⟩ =>
      (jobs.objects job).status = .failed ∧ (jobs.objects job).errorMessage = some message
  | _ => True

theorem delivered_of_runs {operation : Completed SharedCall SharedReply}
    (runs : Runs (repositoryProgram operation.call) jobs operation.reply next) :
    Delivered next operation := by
  unfold Delivered
  split
  · rcases of_runs_finishJob runs with ⟨_, refused, _⟩ | ⟨_, _, _, _, answered, objects⟩
    · cases refused
    · cases answered
      rw [objects, if_pos rfl]
      exact ⟨rfl, rfl⟩
  · rcases of_runs_finishJob runs with ⟨_, refused, _⟩ | ⟨_, _, _, _, answered, objects⟩
    · cases refused
    · cases answered
      rw [objects, if_pos rfl]
      exact ⟨rfl, rfl⟩
  · trivial

theorem Delivered.step {call : SharedCall} {operation : Completed SharedCall SharedReply}
    (delivered : Delivered jobs operation)
    (runs : Runs (repositoryProgram call) jobs reply next) : Delivered next operation := by
  unfold Delivered at delivered ⊢
  split at delivered
  · rw [(change_of_runs runs _).eq_of_ended (.inl delivered.1)]
    exact delivered
  · rw [(change_of_runs runs _).eq_of_ended (.inr delivered.1)]
    exact delivered
  · trivial

/-- After a sequence of whole operations, each answer is still true. -/
theorem delivered_of_run {start final : JobObjects} {order : Order JobObjects SharedCall SharedReply}
    (run : Run (Atomically repositoryProgram) start order final) :
    ∀ taken ∈ order, Delivered final taken.event.2 := by
  induction run with
  | nil =>
      intro taken member
      cases member
  | snoc _ last ih =>
      intro taken member
      rcases List.mem_append.mp member with earlier | isLast
      · exact (ih taken earlier).step last
      · rw [List.mem_singleton.mp isLast]
        exact delivered_of_runs last

theorem hasOutcome_of_run {start final : JobObjects}
    {order : Order JobObjects SharedCall SharedReply} {job : Address}
    (run : Run (Atomically repositoryProgram) start order final)
    (made : HasOutcome (start.objects job)) : HasOutcome (final.objects job) :=
  run.preserves (fun jobs => HasOutcome (jobs.objects job))
    (fun _ _ _ taken has => (change_of_runs taken job).hasOutcome has) made

end

/-! ## Concurrent tasks -/

abbrev RepositoryTasks : Type := Configuration JobObjects DateTime SharedCall SharedReply

/-- Other tasks meet no operation that has only begun. -/
structure AtomicToOthers (start : JobObjects) (tasks : RepositoryTasks) : Prop where
  whole : ∀ task, tasks.running ≠ some task → tasks.tasks task = .idle
  unlocked : tasks.running = none → tasks.locked = false ∧ tasks.waiters = []
  serial : tasks.BetweenOperations → ∃ order,
    Run (Atomically repositoryProgram) start order tasks.shared ∧
      ∀ task, ownOperations order task = tasks.history task
  delivered : tasks.BetweenOperations → ∀ task, ∀ operation ∈ tasks.history task,
    Delivered tasks.shared operation
  complete : tasks.BetweenOperations → ∀ job, HasOutcome (start.objects job) →
    HasOutcome (tasks.shared.objects job)

/-- Operations of any number of tasks, in any order, are atomic. -/
theorem operations_atomic (start : JobObjects) (tasks : RepositoryTasks)
    (reached : Reachable repositoryProgram start tasks) : AtomicToOthers start tasks := by
  obtain ⟨order, before, serial⟩ := reached.serial prompt_repositoryProgram
  have sequential : tasks.BetweenOperations →
      Run (Atomically repositoryProgram) start order tasks.shared := by
    intro between
    rw [serial.shared_eq between]
    exact serial.run
  constructor
  · intro task suspended
    exact serial.idle_of_suspended suspended
  · intro suspended
    exact ⟨(serial.inside.of_suspended suspended).2.1, serial.unawaited⟩
  · intro between
    exact ⟨order, sequential between, serial.own⟩
  · intro between task operation member
    rw [← serial.own task] at member
    obtain ⟨taken, isOwn, rfl⟩ := List.mem_map.mp member
    exact delivered_of_run (sequential between) taken (List.mem_of_mem_filter isOwn)
  · intro between job made
    exact hasOutcome_of_run (sequential between) made

/-- One task creates a job and fails it, and another reads it. -/
theorem operations_atomic_two_tasks :
    let start : JobObjects := ⟨fun _ => demoJob 7 3, Table.empty⟩
    ∃ tasks : RepositoryTasks,
      tasks.history 0 = [⟨.create 0, .job (.ok 0)⟩, ⟨.setFailed 7 "stopped", .job (.ok 0)⟩] ∧
      tasks.history 1 = [⟨.get 7, .job (.ok 0)⟩] ∧ AtomicToOthers start tasks := by
  intro start
  let created := (repositoryProgram (.create 0)).run 1 start
  let failed := (repositoryProgram (.setFailed 7 "stopped")).run 2 created.2
  let read := (repositoryProgram (.get 7)).run 3 failed.2
  have first : Atomically repositoryProgram start (0, ⟨.create 0, .job (.ok 0)⟩) created.2 :=
    Coroutine.runs_run 1 (repositoryProgram (.create 0)) start
  have second : Atomically repositoryProgram created.2
      (0, ⟨.setFailed 7 "stopped", .job (.ok 0)⟩) failed.2 :=
    Coroutine.runs_run 2 (repositoryProgram (.setFailed 7 "stopped")) created.2
  have third : Atomically repositoryProgram failed.2 (1, ⟨.get 7, .job (.ok 0)⟩) read.2 :=
    Coroutine.runs_run 3 (repositoryProgram (.get 7)) failed.2
  have reached := reachable_of_run prompt_repositoryProgram
    (((Run.single first).snoc second).snoc third)
  exact ⟨_, rfl, rfl, operations_atomic start _ reached⟩

end EvaluationService
