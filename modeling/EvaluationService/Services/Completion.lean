import EvaluationService.Services.SystemProperties

/-!
Completions. A worker completes the job that it claimed by `set_succeeded` or, when it
records a failure, by `set_failed`. Neither call says which attempt it is for: the
repository looks at the status of the stored job only, so a worker whose claim was
recovered can still complete the job, until some worker has.
-/

set_option autoImplicit false

namespace EvaluationService

open Foundation

variable {repository : JobRepository} {release : Option DateTime → Option DateTime}
variable {evaluator : EvaluatorBehavior} {staleJobSeconds : Int} {trace : SystemTrace repository}
variable {pool : Pool (World repository) Thread} {held : EvaluationJob} {call : RepositoryCall}

/-- The job that a worker claimed and the call by which it is about to complete it. -/
def Thread.completion? : Thread → Option (EvaluationJob × RepositoryCall)
  | .worker ⟨_, .processing (.succeeding jobId held result)⟩ =>
      some (held, .setSucceeded jobId result)
  | .worker ⟨_, .processing (.recordingFailure _ held _)⟩ =>
      some (held, .setFailed held.jobId ServiceState.failureMessage)
  | _ => none

def completion? (taken : Transition (Pool (World repository) Thread) SystemEvent) :
    Option (EvaluationJob × RepositoryCall) :=
  match taken.event with
  | .act index (.replied _ _) => (taken.source.threads index).bind Thread.completion?
  | _ => none

def RepositoryCall.accepted (call : RepositoryCall) : List JobStatus :=
  (call.guard?.map (·.2)).getD []

/-- A completion call for an attempt that is no longer the current one changes nothing. -/
def NoStaleCompletion (repository : JobRepository) : Prop :=
  ∀ evaluator staleJobSeconds trace pool,
    SystemReaches repository evaluator staleJobSeconds trace pool →
    ∀ taken ∈ trace, ∀ held call stored, completion? taken = some (held, call) →
      repository.job? taken.source.store.store held.jobId = some stored →
      held.attemptCount < stored.attemptCount →
      repository.job? taken.target.store.store held.jobId = some stored

/-- A completion call changes the stored job exactly when the stored status admits it, and
the first one that does is final. -/
structure CompletesByStatus (repository : JobRepository) (trace : SystemTrace repository) : Prop where
  changes : ∀ taken ∈ trace, ∀ held call stored, completion? taken = some (held, call) →
    repository.job? taken.source.store.store held.jobId = some stored →
    (repository.job? taken.target.store.store held.jobId ≠ some stored ↔
      stored.status ∈ call.accepted)
  final : ∀ earlier taken between other later held call,
    trace = earlier ++ taken :: (between ++ other :: later) →
    completion? taken = some (held, call) →
    repository.job? taken.target.store.store held.jobId ≠
      repository.job? taken.source.store.store held.jobId →
    repository.job? other.target.store.store held.jobId =
      repository.job? other.source.store.store held.jobId

theorem Thread.completion?_cases {thread : Thread}
    (completes : thread.completion? = some (held, call)) :
    thread.call? = some call ∧
      ((∃ jobId result, thread.task? = some (.succeeding jobId held result) ∧
          call = .setSucceeded jobId result) ∨
        ∃ jobId error, thread.task? = some (.recordingFailure jobId held error) ∧
          call = .setFailed held.jobId ServiceState.failureMessage) := by
  unfold Thread.completion? at completes
  split at completes
  · cases completes
    exact ⟨rfl, .inl ⟨_, _, rfl, rfl⟩⟩
  · cases completes
    exact ⟨rfl, .inr ⟨_, _, rfl, rfl⟩⟩
  · cases completes

theorem Holding.stored (implements : Implements repository release) {store : repository.State}
    {jobId : UUID} (holding : Holding (repository.job? store) jobId held) :
    held.jobId = jobId ∧ ∃ stored, repository.job? store held.jobId = some stored := by
  obtain ⟨current, stored, same⟩ := holding
  have identified : held.jobId = jobId := same.jobId.symm.trans (implements.identified stored)
  exact ⟨identified, current, by rw [identified]; exact stored⟩

theorem completion_operates (implements : Implements repository release)
    {taken : Transition (Pool (World repository) Thread) SystemEvent}
    (holds : taken.source.Holds (World.Traced evaluator) fun world thread =>
      thread.Sound evaluator world)
    (stepped : (system repository evaluator staleJobSeconds).Step taken.source taken.event
      taken.target) (completes : completion? taken = some (held, call)) :
    (∃ now reply, repository.Operates taken.source.store.store ⟨now, call, reply⟩
        taken.target.store.store) ∧
      ((∃ result, call = .setSucceeded held.jobId result) ∨
        ∃ message, call = .setFailed held.jobId message) ∧
      ∃ stored, repository.job? taken.source.store.store held.jobId = some stored := by
  obtain ⟨source, event, target⟩ := taken
  dsimp only at holds stepped ⊢
  unfold completion? at completes
  dsimp only at completes
  split at completes
  · rename_i index now reply
    obtain ⟨thread, found, completes⟩ := Option.bind_eq_some_iff.mp completes
    obtain ⟨calls, kinds⟩ := Thread.completion?_cases completes
    have sound := holds.2 index thread found
    cases stepped with
    | act actor acts =>
        rw [found, Option.some_inj] at actor
        subst actor
        obtain ⟨heard, waits, operates⟩ := World.Acts.replied acts
        rw [calls, Option.some_inj] at waits
        subst waits
        refine ⟨⟨now, reply, operates⟩, ?_⟩
        rcases kinds with ⟨jobId, result, working, rfl⟩ | ⟨jobId, error, working, rfl⟩
        · obtain ⟨identified, stored⟩ := Holding.stored implements (sound _ working).1
          exact ⟨.inl ⟨result, by rw [identified]⟩, stored⟩
        · obtain ⟨_, stored⟩ := Holding.stored implements (sound _ working)
          exact ⟨.inr ⟨_, rfl⟩, stored⟩
  · cases completes

/-- A completion of a stored job is accepted or refused by its status alone; an accepted
one leaves it finished. -/
theorem completion_effect (implements : Implements repository release)
    {before after : repository.State} {now : DateTime} {reply : RepositoryReply}
    {stored : EvaluationJob}
    (operates : repository.Operates before ⟨now, call, reply⟩ after)
    (completes : (∃ result, call = .setSucceeded held.jobId result) ∨
      ∃ message, call = .setFailed held.jobId message)
    (found : repository.job? before held.jobId = some stored) :
    (stored.status ∈ call.accepted ∧ ∃ finished, finished.status.Terminal ∧
        repository.job? after held.jobId = some finished) ∨
      (stored.status ∉ call.accepted ∧ repository.job? after held.jobId = some stored) := by
  have effect := implements.operates operates
  dsimp only at effect
  rcases completes with ⟨result, rfl⟩ | ⟨message, rfl⟩
  · rcases effect.setSucceeded found with ⟨allowed, _, updated⟩ | ⟨refused, _, kept⟩
    · refine .inl ⟨allowed, stored.succeeded release now result, .inl rfl, ?_⟩
      rw [updated, Function.update_self]
    · refine .inr ⟨refused, ?_⟩
      rw [kept, found]
  · rcases effect.setFailed found with ⟨allowed, _, updated⟩ | ⟨refused, _, kept⟩
    · refine .inl ⟨allowed, stored.failed release now message, .inr rfl, ?_⟩
      rw [updated, Function.update_self]
    · refine .inr ⟨refused, ?_⟩
      rw [kept, found]

theorem not_terminal_of_accepted {stored : EvaluationJob}
    (completes : (∃ result, call = .setSucceeded held.jobId result) ∨
      ∃ message, call = .setFailed held.jobId message)
    (allowed : stored.status ∈ call.accepted) : ¬ stored.status.Terminal := by
  rcases completes with ⟨result, rfl⟩ | ⟨message, rfl⟩
  · have running : stored.status = .running := by
      simpa [RepositoryCall.accepted, RepositoryCall.guard?] using allowed
    rw [running]
    decide
  · have unfinished : stored.status = .queued ∨ stored.status = .running := by
      simpa [RepositoryCall.accepted, RepositoryCall.guard?] using allowed
    rcases unfinished with queued | running
    · rw [queued]
      decide
    · rw [running]
      decide

theorem terminal_of_system_run (implements : Implements repository release)
    {start finish : Pool (World repository) Thread} {stored : EvaluationJob} {jobId : UUID}
    (run : Run (system repository evaluator staleJobSeconds).Step start trace finish)
    (found : repository.job? start.store.store jobId = some stored)
    (terminal : stored.status.Terminal) :
    repository.job? finish.store.store jobId = some stored := by
  obtain ⟨seen, history⟩ :=
    Run.abstracts (fun pool => pool.store.store) (fun _ _ _ => system_step_operates) run
  exact JobRepository.terminal_of_run implements history found terminal

/-- Completions go by the status of the stored job, in every run of any number of workers. -/
theorem completes_by_status (backend : StorageBackend) (evaluator : EvaluatorBehavior)
    (staleJobSeconds : Int) (trace : SystemTrace (buildRepository backend))
    (pool : Pool (World (buildRepository backend)) Thread)
    (reached : SystemReaches (buildRepository backend) evaluator staleJobSeconds trace pool) :
    CompletesByStatus (buildRepository backend) trace := by
  have implements := buildRepository_implements backend
  constructor
  · intro taken member held call stored completes found
    obtain ⟨earlier, later, rfl⟩ := List.append_of_mem member
    obtain ⟨prior, stepped, _⟩ := Run.around reached
    obtain ⟨⟨now, reply, operates⟩, kinds, _⟩ := completion_operates implements
      (SystemReaches.holds implements prior) stepped completes
    rcases completion_effect implements operates kinds found with
      ⟨allowed, finished, terminal, storedFinished⟩ | ⟨refused, kept⟩
    · refine ⟨fun _ => allowed, fun _ same => ?_⟩
      rw [storedFinished, Option.some_inj] at same
      rw [same] at terminal
      exact not_terminal_of_accepted kinds allowed terminal
    · exact ⟨fun changed => absurd kept changed, fun allowed => absurd allowed refused⟩
  · intro earlier taken between other later held call split completes changed
    subst split
    obtain ⟨prior, stepped, rest⟩ := Run.around reached
    obtain ⟨middle, otherStepped, _⟩ := Run.around rest
    obtain ⟨⟨now, reply, operates⟩, kinds, stored, found⟩ := completion_operates implements
      (SystemReaches.holds implements prior) stepped completes
    rcases completion_effect implements operates kinds found with
      ⟨_, finished, terminal, storedFinished⟩ | ⟨_, kept⟩
    · have before := terminal_of_system_run implements middle storedFinished terminal
      have after := terminal_of_system_run implements (.single otherStepped) before terminal
      rw [after, before]
    · exact absurd (kept.trans found.symm) changed

def overwrites (taken : Transition (Pool (World repository) Thread) SystemEvent) : Bool :=
  match completion? taken with
  | none => false
  | some (held, _) =>
      match repository.job? taken.source.store.store held.jobId with
      | none => false
      | some stored => held.attemptCount < stored.attemptCount ∧
          repository.job? taken.target.store.store held.jobId ≠ some stored

theorem not_noStaleCompletion_of_execute (repository : JobRepository) (turns : List Turn)
    (overwritten : (execute repository (fun _ => .ok demoResult) 300 (.idle (.initial repository))
      turns).1.any overwrites) : ¬ NoStaleCompletion repository := by
  intro unchanged
  have reached : SystemReaches repository Evaluator.arbitrary 300 _ _ :=
    run_execute (fun _ => .ok demoResult) (fun _ => trivial) (.idle (.initial repository)) turns
  obtain ⟨taken, member, isOverwrite⟩ := List.any_eq_true.mp overwritten
  unfold overwrites at isOverwrite
  split at isOverwrite
  · cases isOverwrite
  · rename_i held call completes
    split at isOverwrite
    · cases isOverwrite
    · rename_i stored found
      obtain ⟨stale, changed⟩ := of_decide_eq_true isOverwrite
      exact changed (unchanged _ _ _ _ reached taken member held call stored completes found stale)

/-- A worker that has lost its claim completes the job under the next claimant, in either
repository. -/
theorem not_noStaleCompletion :
    ¬ NoStaleCompletion (buildRepository .memory) ∧ ¬ NoStaleCompletion (buildRepository .postgres) :=
  ⟨not_noStaleCompletion_of_execute _ overtakenSchedule (by decide),
    not_noStaleCompletion_of_execute _ overtakenSchedule (by decide)⟩

/-- The worker that claimed the job last finds it completed by the overtaken one: its own
completion comes too late. -/
theorem completes_by_status_overtaken :
    let run := execute (buildRepository .postgres) (fun _ => .ok demoResult) 300
      (.idle (.initial _)) (overtakenSchedule ++ [.act 1 .score, .act 1 (.reply 403)])
    CompletesByStatus (buildRepository .postgres) run.1 ∧ run.1.length = 13 ∧
      ((buildRepository .postgres).job? run.2.store.store 7).map (·.updatedAt) = some 402 := by
  refine ⟨?_, by decide, by decide⟩
  exact completes_by_status .postgres Evaluator.arbitrary 300 _ _
    (run_execute (fun _ => .ok demoResult) (fun _ => trivial) (.idle (.initial _)) _)

end EvaluationService
