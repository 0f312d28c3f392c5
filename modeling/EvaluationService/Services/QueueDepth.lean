import EvaluationService.Services.CombinedRole
import EvaluationService.Services.SystemProperties

/-!
What the queue of a deployment holds. In the combined role the consumer takes every job
before anyone runs it. In the other roles nobody takes jobs from the queue, which goes on
holding them when a worker has claimed them.
-/

set_option autoImplicit false

namespace EvaluationService

open Foundation

variable {repository : JobRepository} {release : Option DateTime → Option DateTime}
variable {evaluator : EvaluatorBehavior} {staleJobSeconds : Int} {role : ProcessRole}

/-- Nobody takes jobs from the queue, and no worker has claimed one. -/
structure Unclaimed (deployment : Deployment repository) : Prop where
  tasks : deployment.queue.tasks = []
  handler : deployment.handler = none
  queued : ∀ jobId job, repository.job? deployment.store jobId = some job → job.status = .queued
  stored : ∀ jobId ∈ deployment.underway, (repository.job? deployment.store jobId).isSome
  absent : none ∉ deployment.queue.queue
  gauge : deployment.depths.getLast?.getD 0 = deployment.queue.qsize
  workers : ∀ index worker task, deployment.workers index = some worker →
    worker.phase ≠ .processing task

theorem EvaluationJob.recovered_of_queued {cutoff now : DateTime} {job : EvaluationJob}
    (queued : job.status = .queued) : job.recovered cutoff now = job := by
  have fresh : ¬ job.Stale cutoff := by
    rintro ⟨running, _⟩
    rw [queued] at running
    cases running
  rw [EvaluationJob.recovered, if_neg fresh]

/-- Where every job is queued and none is claimable, recovery and claims find nothing. -/
theorem Effect.nothing_found {now : DateTime} {before after : Lookup} {call : RepositoryCall}
    {reply : RepositoryReply} (effect : Effect release now before call reply after)
    (isCall : (∃ cutoff, call = .recoverStaleRunning cutoff) ∨
      call = .claimNextQueued ∧ ∀ jobId job, before jobId = some job → ¬ job.Claimable)
    (queued : ∀ jobId job, before jobId = some job → job.status = .queued) :
    after = before ∧ ∀ job, reply ≠ .claim (.ok (some job)) := by
  rcases isCall with ⟨cutoff, rfl⟩ | ⟨rfl, unclaimable⟩
  · cases effect with
    | recover _ _ =>
        refine ⟨?_, by simp⟩
        funext jobId
        cases stored : before jobId with
        | none => rfl
        | some job =>
            rw [Option.map_some, EvaluationJob.recovered_of_queued (queued jobId job stored)]
    | refuse guarded _ => cases guarded
  · cases effect with
    | claimNone _ => exact ⟨rfl, by simp⟩
    | claim stored claimable _ => exact absurd claimable (unclaimable _ _ stored)
    | refuse guarded _ => cases guarded

/-- A worker that claims nothing has no job to process. -/
theorem WorkerState.next_unclaimed {worker : WorkerState} {signal : Signal}
    {after : WorkerState × List Emission} (ran : worker.next staleJobSeconds signal = some after)
    (unclaimed : ∀ task, worker.phase ≠ .processing task)
    (nothing : ∀ now job, signal ≠ .replied now (.claim (.ok (some job)))) (task : ServiceState) :
    after.1.phase ≠ .processing task := by
  rcases WorkerState.next_cases ran with stopped | ⟨moved, reached, move⟩
  · rw [stopped]
    exact unclaimed task
  · rw [reached]
    generalize worker.phase = phase at move unclaimed
    cases move with
    | stopped _ => simp [WorkerPhase.leave]
    | polled _ => simp
    | @recovered _ _ outcome =>
        rcases outcome with error | _ | count <;> simp [WorkerPhase.afterRecover, WorkerPhase.leave]
    | @claimed now outcome =>
        rcases outcome with error | _ | job
        · simp [WorkerPhase.afterClaim, WorkerPhase.leave]
        · simp [WorkerPhase.afterClaim]
        · exact absurd rfl (nothing now job)
    | slept => simp
    | processed _ => exact absurd rfl (unclaimed _)

namespace Unclaimed

variable {deployment : Deployment repository}

theorem initial (implements : Implements repository release) (split : role ≠ .combined) :
    Unclaimed (Deployment.initial repository role) := by
  have unstarted : (Deployment.initial repository role).queue = .empty := if_neg split
  constructor
  · rw [unstarted]
    rfl
  · rfl
  · intro jobId job stored
    cases (implements.empty jobId).symm.trans stored
  · intro jobId member
    rw [Deployment.underway, unstarted] at member
    cases member
  · rw [unstarted]
    exact List.not_mem_nil
  · rw [unstarted]
    rfl
  · intro index worker task found
    cases found

theorem create (implements : Implements repository release) {submission : Submission}
    {outcome : Except Exn EvaluationJob} {store : repository.State}
    (unclaimed : Unclaimed deployment)
    (fresh : repository.job? deployment.store submission.jobId = none)
    (stepped : repository.Step deployment.store
      ⟨submission.now, .create submission.job, .job outcome⟩ store) :
    Unclaimed { deployment with
      store := store
      submitting := deployment.submitting ++ createdIds submission.jobId outcome } := by
  obtain ⟨rfl, updated⟩ := created_store implements fresh stepped
  refine ⟨unclaimed.tasks, unclaimed.handler, ?_, ?_, unclaimed.absent, unclaimed.gauge,
    unclaimed.workers⟩
  · intro jobId job stored
    dsimp only at stored
    rw [updated] at stored
    by_cases same : jobId = submission.jobId
    · rw [same, Function.update_self, Option.some_inj] at stored
      rw [← stored]
      rfl
    · rw [Function.update_of_ne same] at stored
      exact unclaimed.queued jobId job stored
  · intro jobId member
    dsimp only
    rw [updated]
    by_cases same : jobId = submission.jobId
    · rw [same, Function.update_self]
      rfl
    · rw [Function.update_of_ne same]
      refine unclaimed.stored jobId ?_
      simpa [Deployment.underway, createdIds, same] using member

theorem enqueue {jobId : UUID} (unclaimed : Unclaimed deployment)
    (member : jobId ∈ deployment.submitting) :
    Unclaimed { deployment with
      submitting := deployment.submitting.erase jobId
      queue := (deployment.queue.enqueue jobId).1
      depths := deployment.depths ++
        (deployment.queue.enqueue jobId).2.filterMap QueueOutput.depth? } := by
  refine ⟨unclaimed.tasks, unclaimed.handler, unclaimed.queued, ?_, ?_, ?_, unclaimed.workers⟩
  · intro other underway
    exact unclaimed.stored other ((enqueue_underway member).mem_iff.mp underway)
  · simpa [InMemoryJobQueue.enqueue, InMemoryJobQueue.put] using unclaimed.absent
  · simp [InMemoryJobQueue.enqueue, QueueOutput.depth?]

theorem work (implements : Implements repository release) {index : Nat} {worker : WorkerState}
    {signal : Signal} {after : WorkerState × List Emission} {store : repository.State}
    (unclaimed : Unclaimed deployment) (found : deployment.workers index = some worker)
    (ran : worker.next staleJobSeconds signal = some after)
    (heard : Heard repository evaluator worker.phase.call? worker.phase.scoring? deployment.store
      signal store)
    (keeps : ∀ now reply, signal = .replied now reply → worker.phase = .claiming →
      ∀ jobId job, repository.job? deployment.store jobId = some job → ¬ job.Claimable) :
    Unclaimed { deployment with
      store := store
      workers := Function.update deployment.workers index (some after.1) } := by
  have idle := fun task => unclaimed.workers index worker task found
  have nothing : repository.job? store = repository.job? deployment.store ∧
      ∀ now job, signal ≠ .replied now (.claim (.ok (some job))) := by
    cases signal with
    | replied now reply =>
        obtain ⟨call, waits, stepped⟩ := heard
        have isCall : (∃ cutoff, call = .recoverStaleRunning cutoff) ∨ call = .claimNextQueued ∧
            ∀ jobId job, repository.job? deployment.store jobId = some job → ¬ job.Claimable := by
          have unclaimable := keeps now reply rfl
          cases phase : worker.phase with
          | recovering cutoff =>
              rw [phase] at waits
              cases waits
              exact .inl ⟨cutoff, rfl⟩
          | claiming =>
              rw [phase] at waits
              cases waits
              exact .inr ⟨rfl, unclaimable phase⟩
          | processing task => exact absurd phase (idle task)
          | _ =>
              rw [phase] at waits
              cases waits
        have fresh : call.Fresh (repository.job? deployment.store) := by
          rintro job rfl
          rcases isCall with ⟨_, create⟩ | ⟨create, _⟩ <;> cases create
        obtain ⟨same, unclaimedReply⟩ :=
          (implements.step fresh stepped).nothing_found isCall unclaimed.queued
        exact ⟨same, fun _ job replied => unclaimedReply job (Signal.replied.inj replied).2⟩
    | scored outcome => exact ⟨by rw [heard.1], by simp⟩
    | resumed now => exact ⟨by rw [heard], by simp⟩
    | stop => exact ⟨by rw [heard], by simp⟩
  obtain ⟨same, unclaimedSignal⟩ := nothing
  refine ⟨unclaimed.tasks, unclaimed.handler, ?_, ?_, unclaimed.absent, unclaimed.gauge, ?_⟩
  · intro jobId job stored
    dsimp only at stored
    rw [same] at stored
    exact unclaimed.queued jobId job stored
  · intro jobId member
    dsimp only
    rw [same]
    exact unclaimed.stored jobId member
  · intro other current task foundOther
    dsimp only at foundOther
    by_cases isSame : other = index
    · rw [isSame, Function.update_self, Option.some_inj] at foundOther
      rw [← foundOther]
      exact WorkerState.next_unclaimed ran idle unclaimedSignal task
    · rw [Function.update_of_ne isSame] at foundOther
      exact unclaimed.workers other current task foundOther

theorem step (implements : Implements repository release) (split : role ≠ .combined)
    {event : DeploymentEvent} {next : Deployment repository} (unclaimed : Unclaimed deployment)
    (stepped : DeploymentStep repository evaluator staleJobSeconds role deployment event next)
    (keeps : KeepsToQueue role ⟨deployment, event, next⟩) : Unclaimed next := by
  cases stepped with
  | create fresh created => exact unclaimed.create implements fresh created
  | enqueue member => exact unclaimed.enqueue member
  | @consume action _ _ acts taken =>
      -- there is no task that could take a turn
      rcases acts with rfl | ⟨outcome, rfl, _⟩ <;>
        simp [InMemoryJobQueue.step?, unclaimed.tasks] at taken
  | handle working _ _ => cases working.symm.trans unclaimed.handler
  | shutdown =>
      have stopped : deployment.queue.stop = { deployment.queue with stopping := true } := by
        simp [InMemoryJobQueue.stop, unclaimed.tasks]
      rw [stopped]
      exact ⟨unclaimed.tasks, unclaimed.handler, unclaimed.queued, unclaimed.stored,
        unclaimed.absent, unclaimed.gauge, unclaimed.workers⟩
  | @startWorker index _ free =>
      refine ⟨unclaimed.tasks, unclaimed.handler, unclaimed.queued, unclaimed.stored,
        unclaimed.absent, unclaimed.gauge, ?_⟩
      intro other worker task found
      dsimp only at found
      by_cases same : other = index
      · rw [same, Function.update_self, Option.some_inj] at found
        rw [← found]
        simp [WorkerState.started]
      · rw [Function.update_of_ne same] at found
        exact unclaimed.workers other worker task found
  | work found ran heard =>
      refine unclaimed.work implements found ran heard ?_
      rintro now reply rfl
      cases role with
      | combined => exact absurd rfl split
      | api => exact keeps _ now reply _ rfl found
      | worker => exact keeps _ now reply _ rfl found

theorem queuesWaiting (unclaimed : Unclaimed deployment) : deployment.QueuesWaiting := by
  have waiting : ∀ jobId, some jobId ∈ deployment.queue.queue →
      Waits (repository.job? deployment.store) jobId := by
    intro jobId member
    have underway : jobId ∈ deployment.underway :=
      List.mem_append_right _ (List.mem_filterMap.mpr ⟨_, member, rfl⟩)
    obtain ⟨job, stored⟩ := Option.isSome_iff_exists.mp (unclaimed.stored jobId underway)
    exact ⟨job, stored, unclaimed.queued jobId job stored⟩
  exact queuesWaiting_of_gauge waiting unclaimed.absent unclaimed.gauge

end Unclaimed

/-- Where steps keep to the queue, it holds waiting jobs only, whenever no call is in flight. -/
theorem queue_holds_waiting (backend : StorageBackend) (evaluator : EvaluatorBehavior)
    (staleJobSeconds : Int) (role : ProcessRole) (trace : DeploymentTrace (buildRepository backend))
    (deployment : Deployment (buildRepository backend))
    (reached : DeploymentReaches (buildRepository backend) evaluator staleJobSeconds role trace
      deployment)
    (keeps : ∀ taken ∈ trace, KeepsToQueue role taken) (rests : deployment.AtRest) :
    deployment.QueuesWaiting := by
  have implements := buildRepository_implements backend
  by_cases combined : role = .combined
  · subst combined
    obtain ⟨phase, consuming⟩ := Run.preserves_along (fun deployment => ∃ phase, Consuming phase deployment)
      (KeepsToQueue .combined)
      (fun _ _ _ stepped keeps ⟨_, consuming⟩ => consuming.step implements stepped keeps)
      reached ⟨_, Consuming.initial⟩ keeps
    exact consuming.queuesWaiting rests
  · have unclaimed := Run.preserves_along Unclaimed (KeepsToQueue role)
      (fun _ _ _ stepped keeps unclaimed => unclaimed.step implements combined stepped keeps)
      reached (Unclaimed.initial implements combined) keeps
    exact unclaimed.queuesWaiting

instance (taken : Transition (Deployment repository) DeploymentEvent) :
    Decidable (KeepsToQueue .combined taken) :=
  inferInstanceAs (Decidable (_ → _ ∧ _))

/-- The consumer handles a job, and the process shuts down while it waits for another. -/
theorem queue_holds_waiting_handled :
    let run := (Deployment.initial (buildRepository .memory) .combined).execute _
      (fun _ => .ok demoResult) 300 .combined
      [.create demoSubmission, .enqueue 7, .consume, .handle (.reply 1), .handle (.reply 2),
        .handle .score, .handle (.reply 3), .consume, .shutdown, .consume]
    run.2.depths = [1, 0, 0] ∧ run.2.QueuesWaiting := by
  intro run
  refine ⟨by decide, ?_⟩
  refine queue_holds_waiting .memory Evaluator.arbitrary 300 .combined run.1 run.2
    (Deployment.run_execute (fun _ => trivial) _ _) ?_ ⟨by decide, by decide, by decide, ?_⟩
  · have keeps : (run.1.all fun taken => decide (KeepsToQueue .combined taken)) = true := by decide
    intro taken member
    exact of_decide_eq_true (List.all_eq_true.mp keeps taken member)
  · intro index worker found
    cases found

/-- A worker of a split deployment has completed the job, and the queue still holds it. -/
theorem not_queuesWaiting :
    ¬ ∀ evaluator staleJobSeconds role trace deployment,
      DeploymentReaches (buildRepository .postgres) evaluator staleJobSeconds role trace deployment →
      deployment.AtRest → deployment.QueuesWaiting := by
  intro always
  let run := (Deployment.initial (buildRepository .postgres) .api).execute _
    (fun _ => .ok demoResult) 300 .api
    [.create demoSubmission, .enqueue 7, .startWorker 0, .work 0 (.resume 1), .work 0 (.reply 1),
      .work 0 (.reply 2), .work 0 .score, .work 0 (.reply 3)]
  have rests : run.2.AtRest := by
    refine ⟨by decide, by decide, by decide, ?_⟩
    intro index worker found
    cases index with
    | zero =>
        cases found
        exact ⟨rfl, rfl⟩
    | succ other => cases found
  obtain ⟨job, stored, queued⟩ := (always Evaluator.arbitrary 300 .api run.1 run.2
    (Deployment.run_execute (fun _ => trivial) _ _) rests).waiting 7 (by decide)
  have succeeded : ((buildRepository .postgres).job? run.2.store 7).map (·.status) =
      some .succeeded := by decide
  rw [stored, Option.map_some, queued] at succeeded
  cases succeeded

end EvaluationService
