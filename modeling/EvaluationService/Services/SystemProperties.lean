import EvaluationService.Services.JobServiceProperties
import EvaluationService.Services.System
import EvaluationService.Storage.Factory
import EvaluationService.Storage.Lifecycle

/-!
The store of the running service is a store of the repository's own histories, so every
result about those holds of it. Beyond them, each thread's job and the stored one come
from one submission, whatever the other threads do.
-/

set_option autoImplicit false

namespace EvaluationService

open Foundation

variable {repository : JobRepository} {release : Option DateTime → Option DateTime}
variable {evaluator : EvaluatorBehavior} {staleJobSeconds : Int}
variable {world next : World repository} {thread following : Thread} {signal : Signal}
variable {jobId : UUID} {job : EvaluationJob}

namespace Thread

def task? : Thread → Option ServiceState
  | service state => some state
  | worker ⟨_, .processing task⟩ => some task
  | worker _ => none

theorem call?_of_task {task : ServiceState} (working : thread.task? = some task) :
    thread.call? = task.call? ∧ thread.scoring? = task.scoring? := by
  cases thread with
  | service state =>
      cases working
      exact ⟨rfl, rfl⟩
  | worker state =>
      obtain ⟨stopping, phase⟩ := state
      cases phase with
      | processing current =>
          cases working
          exact ⟨rfl, rfl⟩
      | _ => cases working

theorem call?_cases {call : RepositoryCall} (waits : thread.call? = some call) :
    (∃ task, thread.task? = some task ∧ task.call? = some call) ∨
      (∃ cutoff, call = .recoverStaleRunning cutoff) ∨ call = .claimNextQueued := by
  cases thread with
  | service state => exact .inl ⟨state, rfl, waits⟩
  | worker state =>
      obtain ⟨stopping, phase⟩ := state
      cases phase with
      | processing task => exact .inl ⟨task, rfl, waits⟩
      | recovering cutoff =>
          cases waits
          exact .inr (.inl ⟨cutoff, rfl⟩)
      | claiming =>
          cases waits
          exact .inr (.inr rfl)
      | polling => cases waits
      | sleeping => cases waits
      | left _ => cases waits

theorem call?_ne_create {call : RepositoryCall} (waits : thread.call? = some call)
    (created : EvaluationJob) : call ≠ .create created := by
  intro create
  subst create
  rcases call?_cases waits with ⟨task, _, calls⟩ | ⟨cutoff, recovers⟩ | claims
  · cases task <;> cases calls
  · cases recovers
  · cases claims

theorem task?_afterProcess (stopping : Bool) (emit : List Emission → List Emission)
    (state : ServiceState) :
    (worker ⟨stopping, ((WorkerPhase.afterProcess state).map id emit).1⟩).task? = none ∨
      (worker ⟨stopping, ((WorkerPhase.afterProcess state).map id emit).1⟩).task? = some state := by
  cases state with
  | finished outcome => exact .inl (by rcases outcome with _ | _ <;> rfl)
  | _ => exact .inr rfl

/-- The task of a thread after a step: none, the same one, the next stage of it, or the job
that the thread has just claimed. -/
theorem next_cases {after : Thread × List Emission}
    (ran : thread.next staleJobSeconds signal = some after) :
    after.1.task? = none ∨ after.1.task? = thread.task? ∨
      (∃ task moved, thread.task? = some task ∧ task.Move signal moved ∧
        after.1.task? = some moved.1) ∨
      ∃ now claimed, thread.call? = some .claimNextQueued ∧
        signal = .replied now (.claim (.ok (some claimed))) ∧
        after.1.task? = some (.scoring claimed.jobId claimed) := by
  cases move_of_next ran with
  | @service state _ reached move => exact .inr (.inr (.inl ⟨state, reached, rfl, move, rfl⟩))
  | @stop _ phase =>
      -- `stop` leaves the phase as it is
      exact .inr (.inl (by cases phase <;> rfl))
  | @loop stopping _ _ _ move =>
      cases move with
      | stopped _ => exact .inl rfl
      | polled _ => exact .inl rfl
      | slept => exact .inl rfl
      | @recovered _ _ outcome => exact .inl (by rcases outcome with _ | _ | _ <;> rfl)
      | @claimed now outcome =>
          rcases outcome with error | none | claimed
          · exact .inl rfl
          · exact .inl rfl
          · exact .inr (.inr (.inr ⟨now, claimed, rfl, rfl, rfl⟩))
      | @processed task _ after advanced =>
          rcases task?_afterProcess stopping (after.2 ++ ·) after.1 with ended | goesOn
          · exact .inl ended
          · exact .inr (.inr (.inl ⟨task, after, rfl, advanced, goesOn⟩))

end Thread

/-! ## The repository under the service -/

theorem Submission.submitted (submission : Submission) : submission.job.Submitted :=
  ⟨rfl, rfl, by change (1 : Int) ≤ 3; decide, rfl, rfl, rfl⟩

theorem World.Submits.operates {submission : Submission}
    (submits : World.Submits repository world submission next) :
    ∃ outcome, repository.Operates world.store
      ⟨submission.now, .create submission.job, .job outcome⟩ next.store := by
  obtain ⟨fresh, outcome, stepped, _⟩ := submits
  refine ⟨outcome, ?_, stepped⟩
  intro job create
  cases create
  exact ⟨submission.submitted, fresh⟩

theorem World.Acts.replied {now : DateTime} {reply : RepositoryReply}
    (acts : World.Acts repository evaluator staleJobSeconds world thread (.replied now reply) next
      following) :
    ∃ call, thread.call? = some call ∧
      repository.Operates world.store ⟨now, call, reply⟩ next.store := by
  obtain ⟨after, _, _, ⟨call, waits, stepped⟩, _⟩ := acts
  refine ⟨call, waits, ?_, stepped⟩
  intro job create
  exact absurd create (Thread.call?_ne_create waits job)

theorem World.Acts.operates
    (acts : World.Acts repository evaluator staleJobSeconds world thread signal next following) :
    next.store = world.store ∨ ∃ call now reply, thread.call? = some call ∧
      repository.Operates world.store ⟨now, call, reply⟩ next.store := by
  cases signal with
  | replied now reply =>
      obtain ⟨call, waits, operates⟩ := acts.replied
      exact .inr ⟨call, now, reply, waits, operates⟩
  | scored _ =>
      obtain ⟨_, _, _, heard, _⟩ := acts
      exact .inl heard.1
  | resumed _ =>
      obtain ⟨_, _, _, heard, _⟩ := acts
      exact .inl heard
  | stop =>
      obtain ⟨_, _, _, heard, _⟩ := acts
      exact .inl heard

/-- Every step of the service is a repository call, or nothing to the repository. -/
theorem system_step_operates {pool target : Pool (World repository) Thread} {event : SystemEvent}
    (stepped : (system repository evaluator staleJobSeconds).Step pool event target) :
    target.store.store = pool.store.store ∨
      ∃ seen, repository.Operates pool.store.store seen target.store.store := by
  cases stepped with
  | arrive submits =>
      obtain ⟨outcome, operates⟩ := World.Submits.operates submits
      exact .inr ⟨_, operates⟩
  | start _ starts =>
      rcases starts with ⟨_, _, rfl⟩ | ⟨_, rfl⟩
      · exact .inl rfl
      · exact .inl rfl
  | act _ acts =>
      rcases World.Acts.operates acts with same | ⟨call, now, reply, _, operates⟩
      · exact .inl same
      · exact .inr ⟨_, operates⟩

/-- The store of the running service is always one that a history of the repository reaches. -/
theorem SystemReaches.history {trace : SystemTrace repository} {pool : Pool (World repository) Thread}
    (reached : SystemReaches repository evaluator staleJobSeconds trace pool) :
    ∃ history, repository.Reaches history pool.store.store :=
  Run.abstracts (fun pool => pool.store.store) (fun _ _ _ => system_step_operates) reached

/-! ## Results and the submissions they come from -/

/-- The thread's copy of a job and the stored job come from one submission. -/
def Holding (store : Lookup) (jobId : UUID) (held : EvaluationJob) : Prop :=
  ∃ current, store jobId = some current ∧ held.SameSubmission current

def ServiceState.Sound (evaluator : EvaluatorBehavior) (store : Lookup) : ServiceState → Prop
  | .loading _ | .finished _ => True
  | .starting jobId held | .scoring jobId held | .recordingFailure jobId held _ =>
      Holding store jobId held
  | .succeeding jobId held result => Holding store jobId held ∧ evaluator held.request (.ok result)

def Thread.Sound (evaluator : EvaluatorBehavior) (world : World repository) (thread : Thread) :
    Prop :=
  ∀ task, thread.task? = some task → task.Sound evaluator (repository.job? world.store)

/-- The stored jobs are the submitted ones, and a success has a result that the evaluator
gave for the submitted request. -/
structure World.Traced (evaluator : EvaluatorBehavior) (world : World repository) : Prop where
  origin : ∀ jobId job, repository.job? world.store jobId = some job →
    ∃ submission ∈ world.submissions, submission.jobId = jobId ∧
      submission.job.SameSubmission job ∧
      (job.status = .succeeded →
        ∃ result, job.result = some result ∧ evaluator submission.request (.ok result))
  stored : ∀ submission ∈ world.submissions,
    ∃ job, repository.job? world.store submission.jobId = some job
  unique : (world.submissions.map (·.jobId)).Nodup

def KeepsSubmissions (before after : Lookup) : Prop :=
  ∀ jobId job, before jobId = some job → ∃ next, after jobId = some next ∧ job.SameSubmission next

theorem KeepsSubmissions.refl (store : Lookup) : KeepsSubmissions store store :=
  fun _ job stored => ⟨job, stored, .refl job⟩

theorem keepsSubmissions_of_operates (implements : Implements repository release)
    {store after : repository.State} {event : RepositoryEvent}
    (operates : repository.Operates store event after) :
    KeepsSubmissions (repository.job? store) (repository.job? after) :=
  fun _ _ stored => JobRepository.sameSubmission_of_run implements (Run.single operates) stored

theorem Holding.stable {before after : Lookup} {held : EvaluationJob}
    (holding : Holding before jobId held) (keeps : KeepsSubmissions before after) :
    Holding after jobId held := by
  obtain ⟨current, stored, same⟩ := holding
  obtain ⟨next, kept, sameNext⟩ := keeps jobId current stored
  exact ⟨next, kept, same.trans sameNext⟩

theorem ServiceState.Sound.stable {before after : Lookup} {state : ServiceState}
    (sound : state.Sound evaluator before) (keeps : KeepsSubmissions before after) :
    state.Sound evaluator after := by
  cases state with
  | loading _ => trivial
  | finished _ => trivial
  | starting _ _ => exact Holding.stable sound keeps
  | scoring _ _ => exact Holding.stable sound keeps
  | recordingFailure _ _ _ => exact Holding.stable sound keeps
  | succeeding _ _ _ => exact ⟨Holding.stable sound.1 keeps, sound.2⟩

/-- A step of a call keeps its copy of the job and scores that copy's request. -/
theorem ServiceState.Sound.move (implements : Implements repository release)
    {state : ServiceState} {moved : ServiceState × List Emission}
    {store after : repository.State} (sound : state.Sound evaluator (repository.job? store))
    (keeps : KeepsSubmissions (repository.job? store) (repository.job? after))
    (heard : Heard repository evaluator state.call? state.scoring? store signal after)
    (move : state.Move signal moved) : moved.1.Sound evaluator (repository.job? after) := by
  cases move with
  | @loaded jobId now outcome =>
      cases outcome with
      | error _ => trivial
      | ok job =>
          obtain ⟨call, waits, effect⟩ := heard.effect implements
          cases waits
          obtain ⟨replied, kept⟩ := effect.get_eq
          have stored : repository.job? after jobId = some job := by
            rw [kept]
            exact foundOr404_eq_ok_iff.mp (RepositoryReply.job.inj replied).symm
          exact ⟨job, stored, .refl job⟩
  | @started _ _ _ outcome =>
      have holding := Holding.stable sound keeps
      cases outcome with
      | error _ => exact holding
      | ok _ => exact holding
  | @scored _ _ outcome =>
      have holding := Holding.stable sound keeps
      cases outcome with
      | error _ => exact holding
      | ok result =>
          obtain ⟨_, request, waits, scored⟩ := heard
          cases waits
          exact ⟨holding, scored⟩
  | @succeeded _ _ _ _ outcome =>
      have holding := Holding.stable sound.1 keeps
      cases outcome with
      | error _ => exact holding
      | ok _ => trivial
  | @failed _ _ _ _ outcome => cases outcome <;> trivial

theorem World.Acts.keeps (implements : Implements repository release)
    (acts : World.Acts repository evaluator staleJobSeconds world thread signal next following) :
    KeepsSubmissions (repository.job? world.store) (repository.job? next.store) := by
  rcases acts.operates with same | ⟨call, now, reply, _, operates⟩
  · rw [same]
    exact .refl _
  · exact keepsSubmissions_of_operates implements operates

theorem Thread.Sound.acts (implements : Implements repository release)
    (sound : thread.Sound evaluator world)
    (acts : World.Acts repository evaluator staleJobSeconds world thread signal next following) :
    following.Sound evaluator next := by
  have keeps := acts.keeps implements
  obtain ⟨after, ran, rfl, heard, _⟩ := acts
  intro task working
  rcases Thread.next_cases ran with none | same | advanced | claims
  · rw [none] at working
    cases working
  · rw [same] at working
    exact (sound task working).stable keeps
  · obtain ⟨current, moved, currentTask, move, target⟩ := advanced
    rw [target] at working
    cases working
    obtain ⟨calls, scores⟩ := Thread.call?_of_task currentTask
    rw [calls, scores] at heard
    exact (sound current currentTask).move implements keeps heard move
  · obtain ⟨now, claimed, calls, replied, target⟩ := claims
    rw [target] at working
    cases working
    subst replied
    have effect := heard.effect_of_call implements calls (by rintro _ ⟨⟩)
    exact ⟨claimed, effect.claim_stored, .refl claimed⟩

theorem Thread.succeeding_of_call? {result : EvaluationResult}
    (waits : thread.call? = some (.setSucceeded jobId result)) :
    ∃ held, thread.task? = some (.succeeding jobId held result) := by
  rcases Thread.call?_cases waits with ⟨task, working, calls⟩ | ⟨cutoff, recovers⟩ | claims
  · cases task with
    | succeeding _ held _ =>
        cases calls
        exact ⟨held, working⟩
    | _ => cases calls
  · cases recovers
  · cases claims

theorem JobChange.result_of_succeeded {now : DateTime} {call : RepositoryCall}
    {reply : RepositoryReply} {after : EvaluationJob}
    (change : JobChange release now jobId job call reply after) (succeeded : after.status = .succeeded) :
    ∃ result, call = .setSucceeded jobId result ∧ after.result = some result := by
  cases change with
  | succeeded _ => exact ⟨_, rfl, rfl⟩
  | claimed _ _ => cases succeeded
  | requeued _ _ => cases succeeded
  | timedOut _ _ => cases succeeded
  | started _ => cases succeeded
  | failed _ => cases succeeded

theorem World.Traced.acts (implements : Implements repository release)
    (traced : world.Traced evaluator) (sound : thread.Sound evaluator world)
    (acts : World.Acts repository evaluator staleJobSeconds world thread signal next following) :
    next.Traced evaluator := by
  have keeps := acts.keeps implements
  have operated := acts.operates
  obtain ⟨after, _, _, _, submissions, _⟩ := acts
  refine ⟨?_, ?_, ?_⟩
  · intro jobId job stored
    rw [submissions]
    rcases operated with same | ⟨call, now, reply, waits, operates⟩
    · rw [same] at stored
      exact traced.origin jobId job stored
    · have entry := implements.entry operates jobId
      rw [stored] at entry
      generalize beforeEntry : repository.job? world.store jobId = before at entry
      cases entry with
      | kept _ => exact traced.origin jobId job beforeEntry
      | created create _ _ => exact absurd create (Thread.call?_ne_create waits job)
      | @changed current _ change =>
          obtain ⟨submission, member, identified, same, _⟩ := traced.origin jobId current beforeEntry
          refine ⟨submission, member, identified, same.trans change.sameSubmission, ?_⟩
          intro succeeded
          obtain ⟨result, isCall, hasResult⟩ := change.result_of_succeeded succeeded
          dsimp only at isCall
          subst isCall
          obtain ⟨held, working⟩ := Thread.succeeding_of_call? waits
          obtain ⟨⟨owned, ownedStored, sameHeld⟩, scored⟩ := sound _ working
          rw [beforeEntry] at ownedStored
          cases ownedStored
          have request : held.request = submission.request := sameHeld.request.symm.trans same.request
          rw [request] at scored
          exact ⟨result, hasResult, scored⟩
  · intro submission member
    rw [submissions] at member
    obtain ⟨job, stored⟩ := traced.stored submission member
    obtain ⟨kept, keptStored, _⟩ := keeps submission.jobId job stored
    exact ⟨kept, keptStored⟩
  · rw [submissions]
    exact traced.unique

theorem World.Traced.submits (implements : Implements repository release)
    (traced : world.Traced evaluator) {submission : Submission}
    (submits : World.Submits repository world submission next) :
    next.Traced evaluator ∧
      KeepsSubmissions (repository.job? world.store) (repository.job? next.store) := by
  obtain ⟨outcome, operates⟩ := submits.operates
  obtain ⟨fresh, _, _, submissions, _⟩ := submits
  have keeps := keepsSubmissions_of_operates implements operates
  refine ⟨⟨?_, ?_, ?_⟩, keeps⟩
  · intro jobId job stored
    rw [submissions]
    have entry := implements.entry operates jobId
    rw [stored] at entry
    generalize beforeEntry : repository.job? world.store jobId = before at entry
    cases entry with
    | kept _ =>
        obtain ⟨origin, member, traceable⟩ := traced.origin jobId job beforeEntry
        exact ⟨origin, List.mem_append_left _ member, traceable⟩
    | created create identified _ =>
        cases create
        refine ⟨submission, List.mem_append_right _ (List.mem_singleton_self _), identified,
          .refl _, ?_⟩
        intro succeeded
        cases succeeded
    | changed change => cases change
  · intro other member
    rw [submissions] at member
    rcases List.mem_append.mp member with earlier | last
    · obtain ⟨job, stored⟩ := traced.stored other earlier
      obtain ⟨kept, keptStored, _⟩ := keeps other.jobId job stored
      exact ⟨kept, keptStored⟩
    · rw [List.mem_singleton] at last
      subst last
      exact ⟨_, (implements.operates operates).create_stored⟩
  · rw [submissions, List.map_append, List.nodup_append]
    refine ⟨traced.unique, List.nodup_singleton _, ?_⟩
    intro jobId member other isLast same
    obtain ⟨earlier, among, rfl⟩ := List.mem_map.mp member
    obtain ⟨job, stored⟩ := traced.stored earlier among
    rw [List.map_singleton, List.mem_singleton] at isLast
    rw [same, isLast, fresh] at stored
    cases stored

theorem World.traced_initial (implements : Implements repository release) :
    (World.initial repository).Traced evaluator := by
  refine ⟨?_, ?_, List.nodup_nil⟩
  · intro jobId job stored
    have absent := implements.empty jobId
    rw [show repository.job? (World.initial repository).store jobId = none from absent] at stored
    cases stored
  · intro submission member
    cases member

theorem SystemReaches.holds (implements : Implements repository release)
    {trace : SystemTrace repository} {pool : Pool (World repository) Thread}
    (reached : SystemReaches repository evaluator staleJobSeconds trace pool) :
    pool.Holds (World.Traced evaluator) fun world thread => thread.Sound evaluator world := by
  refine Pool.holds_of_run (World.Traced evaluator)
    (fun world thread => thread.Sound evaluator world)
    (fun world next => KeepsSubmissions (repository.job? world.store) (repository.job? next.store))
    ?_ ?_ ?_ ?_ reached (World.traced_initial implements)
  · intro world next thread sound keeps task working
    exact (sound task working).stable keeps
  · intro world submission next traced submits
    exact traced.submits implements submits
  · intro world next thread traced starts
    rcases starts with ⟨jobId, rfl, rfl⟩ | ⟨rfl, rfl⟩
    · refine ⟨traced, ?_, .refl _⟩
      intro task working
      cases working
      trivial
    · refine ⟨⟨traced.origin, traced.stored, traced.unique⟩, ?_, .refl _⟩
      intro task working
      cases working
  · intro world thread signal next following traced sound acts
    exact ⟨traced.acts implements sound acts, sound.acts implements acts, acts.keeps implements⟩

/-- Every job comes from the one call of `submit` that drew its identifier, and a success
has the mock score of the request that this call was given. -/
theorem end_to_end_result (backend : StorageBackend) (lower : String → String)
    (staleJobSeconds : Int) (trace : SystemTrace (buildRepository backend))
    (pool : Pool (World (buildRepository backend)) Thread)
    (reached : SystemReaches (buildRepository backend) (Evaluator.mock lower) staleJobSeconds trace
      pool)
    (jobId : UUID) (job : EvaluationJob)
    (stored : (buildRepository backend).job? pool.store.store jobId = some job) :
    ∃ submission ∈ pool.store.submissions, submission.jobId = jobId ∧
      (∀ other ∈ pool.store.submissions, other.jobId = jobId → other = submission) ∧
      submission.job.SameSubmission job ∧
      (job.status = .succeeded → job.result = some (scoreMockResponse lower submission.request)) := by
  obtain ⟨traced, _⟩ := reached.holds (buildRepository_implements backend)
  obtain ⟨submission, member, identified, same, scored⟩ := traced.origin jobId job stored
  refine ⟨submission, member, identified, ?_, same, ?_⟩
  · intro other otherMember otherIdentified
    exact List.inj_on_of_nodup_map traced.unique otherMember member
      (otherIdentified.trans identified.symm)
  · intro succeeded
    obtain ⟨result, hasResult, isScore⟩ := scored succeeded
    rw [hasResult, Evaluator.eq_of_mock_ok isScore]

def demoSubmission : Submission := ⟨demoRequest, 7, 0, 0, 0⟩

/-- A worker that loses its claim completes the job after another worker has claimed it. -/
def overtakenSchedule : List Turn :=
  [.submit demoSubmission, .work 0, .act 0 (.resume 1), .act 0 (.reply 1), .act 0 (.reply 2),
    .work 1, .act 1 (.resume 400), .act 1 (.reply 400), .act 1 (.reply 401),
    .act 0 .score, .act 0 (.reply 402)]

/-- The overtaken worker's result is that of the job's own request. -/
theorem end_to_end_result_overtaken :
    let pool := (execute (buildRepository .memory) (Evaluator.score id fun _ => false) 300
      (.idle (.initial _)) overtakenSchedule).2
    ∃ job, (buildRepository .memory).job? pool.store.store 7 = some job ∧
      job.status = .succeeded ∧ job.result = some (scoreMockResponse id demoRequest) := by
  intro pool
  have reached : SystemReaches (buildRepository .memory) (Evaluator.mock id) 300 _ pool :=
    run_execute (Evaluator.score id fun _ => false) (fun _ => ⟨fun _ => false, rfl⟩)
      (.idle (.initial _)) overtakenSchedule
  have succeeded : ((buildRepository .memory).job? pool.store.store 7).map (·.status) =
      some .succeeded := by decide
  obtain ⟨job, stored, status⟩ := Option.map_eq_some_iff.mp succeeded
  obtain ⟨submission, member, _, _, _, result⟩ :=
    end_to_end_result .memory id 300 _ pool reached 7 job stored
  have submitted : pool.store.submissions = [demoSubmission] := rfl
  rw [submitted, List.mem_singleton] at member
  subst member
  exact ⟨job, stored, status, result status⟩

end EvaluationService
