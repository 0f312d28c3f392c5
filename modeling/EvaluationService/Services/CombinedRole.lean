import EvaluationService.Services.Deployment
import EvaluationService.Services.JobServiceProperties
import EvaluationService.Services.QueueProperties

/-!
The combined role. The process that accepts jobs also runs them: its consumer takes a job
from the queue before `process` starts it, so that a job in the queue has not been started,
and the recorded depth is that of the queue whenever no job is being handled.
-/

set_option autoImplicit false

namespace EvaluationService

open Foundation

variable {repository : JobRepository} {release : Option DateTime → Option DateTime}
variable {evaluator : EvaluatorBehavior} {staleJobSeconds : Int} {role : ProcessRole}

def DeploymentEvent.isShutdown : DeploymentEvent → Bool
  | .shutdown => true
  | _ => false

/-- In the combined role the process stops its queue only while the consumer waits on an
empty one; in the other roles no worker's claim finds a claimable job. -/
def KeepsToQueue (role : ProcessRole) (taken : Transition (Deployment repository) DeploymentEvent) :
    Prop :=
  match role with
  | .combined => taken.event.isShutdown = true →
      taken.source.queue.tasks = [.waiting] ∧ taken.source.queue.queue = []
  | .api | .worker => ∀ index now reply worker, taken.event = .work index (.replied now reply) →
      taken.source.workers index = some worker → worker.phase = .claiming →
      ∀ jobId job, repository.job? taken.source.store jobId = some job → ¬ job.Claimable

/-! ## What a call of `process` changes -/

/-- The call is about this job and no other. -/
def ServiceState.About (jobId : UUID) : ServiceState → Prop
  | .loading current => current = jobId
  | .starting current job | .scoring current job | .succeeding current job _
  | .recordingFailure current job _ => current = jobId ∧ job.jobId = jobId
  | .finished _ => True

/-- The calls that `process` makes on its job. -/
inductive JobCall (jobId : UUID) : RepositoryCall → Prop where
  | get : JobCall jobId (.get jobId)
  | setRunning : JobCall jobId (.setRunning jobId)
  | setSucceeded {result : EvaluationResult} : JobCall jobId (.setSucceeded jobId result)
  | setFailed {message : String} : JobCall jobId (.setFailed jobId message)

theorem ServiceState.About.jobCall {jobId : UUID} {task : ServiceState} {call : RepositoryCall}
    (about : task.About jobId) (waits : task.call? = some call) : JobCall jobId call := by
  cases task with
  | loading current =>
      obtain rfl := about
      cases waits
      exact .get
  | starting current job =>
      obtain ⟨rfl, _⟩ := about
      cases waits
      exact .setRunning
  | scoring current job => cases waits
  | succeeding current job result =>
      obtain ⟨rfl, _⟩ := about
      cases waits
      exact .setSucceeded
  | recordingFailure current job error =>
      obtain ⟨_, rfl⟩ := about
      cases waits
      exact .setFailed
  | finished outcome => cases waits

section Entries

variable {now : DateTime} {before after : Lookup} {call : RepositoryCall} {reply : RepositoryReply}
variable {jobId other : UUID}

theorem JobCall.other_entry (isCall : JobCall jobId call)
    (effect : Effect release now before call reply after) (different : other ≠ jobId) :
    after other = before other := by
  have entry := effect.entry other
  generalize before other = entryBefore at entry ⊢
  generalize after other = entryAfter at entry ⊢
  cases entry with
  | kept _ => rfl
  | created isCreate _ _ =>
      subst isCreate
      cases isCall
  | changed change =>
      cases isCall with
      | get => cases change
      | setRunning =>
          cases change
          exact absurd rfl different
      | setSucceeded =>
          cases change
          exact absurd rfl different
      | setFailed =>
          cases change
          exact absurd rfl different

theorem Effect.isSome_entry (effect : Effect release now before call reply after) (jobId : UUID)
    (stored : (before jobId).isSome) : (after jobId).isSome := by
  have entry := effect.entry jobId
  generalize before jobId = entryBefore at entry stored
  generalize after jobId = entryAfter at entry ⊢
  cases entry with
  | kept _ => exact stored
  | created _ _ _ => rfl
  | changed _ => rfl

end Entries

theorem ServiceState.About.next (implements : Implements repository release) {jobId : UUID}
    {task : ServiceState} {signal : Signal} {after : ServiceState × List Emission}
    {store next : repository.State} (about : task.About jobId) (ran : task.next signal = some after)
    (heard : Heard repository evaluator task.call? task.scoring? store signal next) :
    after.1.About jobId := by
  cases ServiceState.move_of_next ran with
  | @loaded current now outcome =>
      obtain rfl := about
      cases outcome with
      | error error => trivial
      | ok job =>
          obtain ⟨call, waits, effect⟩ := Heard.effect implements heard
          cases waits
          have replied := effect.get_eq.1
          rw [RepositoryReply.job.injEq] at replied
          have stored := foundOr404_eq_ok_iff.mp replied.symm
          exact ⟨rfl, implements.identified stored⟩
  | @started _ _ _ outcome => cases outcome <;> exact about
  | @scored _ _ outcome => cases outcome <;> exact about
  | @succeeded _ _ _ _ outcome =>
      cases outcome with
      | error error => exact about
      | ok updated => trivial
  | @failed _ _ _ _ outcome => cases outcome <;> trivial

/-- A created job is stored under an identifier that was not in use. -/
theorem created_store (implements : Implements repository release) {submission : Submission}
    {outcome : Except Exn EvaluationJob} {before store : repository.State}
    (fresh : repository.job? before submission.jobId = none)
    (stepped : repository.Step before
      ⟨submission.now, .create submission.job, .job outcome⟩ store) :
    outcome = .ok submission.job ∧ repository.job? store =
      Function.update (repository.job? before) submission.jobId (some submission.job) := by
  have effect := implements.step (by intro job same; cases same; exact fresh) stepped
  obtain ⟨replied, updated⟩ := effect.create_eq
  exact ⟨by simpa using replied, updated⟩

/-! ## The combined role -/

def Waits (store : Lookup) (jobId : UUID) : Prop :=
  ∃ job, store jobId = some job ∧ job.status = .queued

theorem Waits.isSome {store : Lookup} {jobId : UUID} (waits : Waits store jobId) :
    (store jobId).isSome := by
  obtain ⟨job, stored, _⟩ := waits
  rw [stored]
  rfl

/-- A queue without a sentinel whose depth is recorded is empty, and recorded so, when every
job is finished. -/
theorem queuesWaiting_of_gauge {deployment : Deployment repository}
    (waiting : ∀ jobId, some jobId ∈ deployment.queue.queue →
      Waits (repository.job? deployment.store) jobId)
    (absent : none ∉ deployment.queue.queue)
    (gauge : deployment.depths.getLast?.getD 0 = deployment.queue.qsize) :
    deployment.QueuesWaiting := by
  refine ⟨waiting, fun finished => ?_⟩
  have empty : deployment.queue.queue = [] := by
    rw [List.eq_nil_iff_forall_not_mem]
    intro item member
    cases item with
    | none => exact absent member
    | some jobId =>
        obtain ⟨job, stored, queued⟩ := waiting jobId member
        exact absurd (finished jobId job stored) (by rw [queued]; decide)
  refine ⟨empty, ?_⟩
  intro depth last
  rw [last, InMemoryJobQueue.qsize, empty] at gauge
  exact gauge

def ConsumerPhase.current : ConsumerPhase → List UUID
  | .handling jobId => [jobId]
  | .created | .waiting | .done => []

/-- The consumer waits for a call of `process` exactly while it handles a job. -/
def ConsumerPhase.Calls (handler : Option ServiceState) : ConsumerPhase → Prop
  | .handling jobId => ∃ task, handler = some task ∧ task.About jobId
  | .created | .waiting | .done => handler = none

/-- The identifiers that a job's way to the consumer leads through. -/
def Deployment.underway (deployment : Deployment repository) : List UUID :=
  deployment.submitting ++ deployment.queue.queue.filterMap id

theorem enqueue_underway {deployment : Deployment repository} {jobId : UUID}
    (member : jobId ∈ deployment.submitting) :
    (deployment.submitting.erase jobId ++
      (deployment.queue.queue ++ [some jobId]).filterMap id).Perm deployment.underway := by
  unfold Deployment.underway
  rw [List.filterMap_append, ← List.append_assoc]
  refine List.perm_append_comm.trans ?_
  exact (List.perm_cons_erase member).symm.append_right _

structure Consuming (phase : ConsumerPhase) (deployment : Deployment repository) : Prop where
  tasks : deployment.queue.tasks = [phase]
  calls : phase.Calls deployment.handler
  alone : ∀ index, deployment.workers index = none
  waiting : ∀ jobId ∈ deployment.underway, Waits (repository.job? deployment.store) jobId
  distinct : (phase.current ++ deployment.underway).Nodup
  running : ∀ jobId ∈ phase.current, (repository.job? deployment.store jobId).isSome
  stopping : deployment.queue.stopping = true →
    (phase = .waiting ∧ none ∈ deployment.queue.queue) ∨ phase = .done
  sentinel : none ∈ deployment.queue.queue → phase = .waiting ∧ deployment.queue.stopping = true ∧
    ∃ rest, deployment.queue.queue = none :: rest ∧ none ∉ rest
  gauge : phase.isHandling = false → none ∉ deployment.queue.queue →
    deployment.depths.getLast?.getD 0 = deployment.queue.qsize

namespace Consuming

variable {phase : ConsumerPhase} {deployment : Deployment repository}

theorem initial :
    Consuming .created (Deployment.initial repository .combined) where
  tasks := rfl
  calls := rfl
  alone := fun _ => rfl
  waiting := by intro jobId member; cases member
  distinct := List.nodup_nil
  running := by intro jobId member; cases member
  stopping := by intro stopping; cases stopping
  sentinel := by intro member; cases member
  gauge := fun _ _ => rfl

theorem create (implements : Implements repository release) {submission : Submission}
    {outcome : Except Exn EvaluationJob} {store : repository.State}
    (consuming : Consuming phase deployment)
    (fresh : repository.job? deployment.store submission.jobId = none)
    (stepped : repository.Step deployment.store
      ⟨submission.now, .create submission.job, .job outcome⟩ store) :
    Consuming phase { deployment with
      store := store
      submitting := deployment.submitting ++ createdIds submission.jobId outcome } := by
  obtain ⟨rfl, updated⟩ := created_store implements fresh stepped
  have unused : ∀ jobId, (repository.job? deployment.store jobId).isSome →
      jobId ≠ submission.jobId := by
    rintro jobId stored rfl
    rw [fresh] at stored
    cases stored
  have moved : (deployment.submitting ++ [submission.jobId] ++
      deployment.queue.queue.filterMap id).Perm (submission.jobId :: deployment.underway) := by
    unfold Deployment.underway
    rw [List.append_assoc]
    exact List.perm_middle
  refine ⟨consuming.tasks, consuming.calls, consuming.alone, ?_, ?_, ?_, consuming.stopping,
    consuming.sentinel, consuming.gauge⟩
  · intro jobId member
    rcases List.mem_cons.mp (moved.mem_iff.mp member) with rfl | earlier
    · refine ⟨submission.job, ?_, rfl⟩
      rw [updated]
      exact Function.update_self _ _ _
    · obtain ⟨job, stored, queued⟩ := consuming.waiting jobId earlier
      refine ⟨job, ?_, queued⟩
      rw [updated, Function.update_of_ne (unused jobId (by rw [stored]; rfl)), stored]
  · have distinct : (submission.jobId :: (phase.current ++ deployment.underway)).Nodup := by
      refine List.nodup_cons.mpr ⟨?_, consuming.distinct⟩
      intro member
      rcases List.mem_append.mp member with handled | earlier
      · exact unused _ (consuming.running _ handled) rfl
      · exact unused _ (consuming.waiting _ earlier).isSome rfl
    refine (List.Perm.nodup_iff ?_).mpr distinct
    exact (moved.append_left phase.current).trans List.perm_middle
  · intro jobId handled
    have stored := consuming.running jobId handled
    rw [updated, Function.update_of_ne (unused jobId stored)]
    exact stored

theorem enqueue {jobId : UUID} (consuming : Consuming phase deployment)
    (member : jobId ∈ deployment.submitting) :
    Consuming phase { deployment with
      submitting := deployment.submitting.erase jobId
      queue := (deployment.queue.enqueue jobId).1
      depths := deployment.depths ++
        (deployment.queue.enqueue jobId).2.filterMap QueueOutput.depth? } := by
  have moved := enqueue_underway member
  refine ⟨consuming.tasks, consuming.calls, consuming.alone, ?_, ?_, consuming.running, ?_, ?_, ?_⟩
  · intro other underway
    exact consuming.waiting other (moved.mem_iff.mp underway)
  · exact ((moved.append_left phase.current).nodup_iff).mpr consuming.distinct
  · intro stopping
    rcases consuming.stopping stopping with ⟨waiting, sentinel⟩ | done
    · exact .inl ⟨waiting, List.mem_append_left _ sentinel⟩
    · exact .inr done
  · intro sentinel
    have earlier : none ∈ deployment.queue.queue := by
      simpa [InMemoryJobQueue.enqueue, InMemoryJobQueue.put] using sentinel
    obtain ⟨waiting, stopping, rest, split, clean⟩ := consuming.sentinel earlier
    refine ⟨waiting, stopping, rest ++ [some jobId], ?_, by simpa using clean⟩
    simp [InMemoryJobQueue.enqueue, InMemoryJobQueue.put, split]
  · intro _ _
    simp [InMemoryJobQueue.enqueue, QueueOutput.depth?]

/-- A consumer that has not left can find the flag set, or a sentinel further back, only if
it waits with the sentinel first in the queue. -/
theorem clean (consuming : Consuming phase deployment) (unfinished : phase ≠ .done)
    (unsent : ∀ rest, phase = .waiting → deployment.queue.queue ≠ none :: rest) :
    deployment.queue.stopping = false ∧ none ∉ deployment.queue.queue := by
  have absent : none ∉ deployment.queue.queue := by
    intro sentinel
    obtain ⟨waiting, _, rest, split, _⟩ := consuming.sentinel sentinel
    exact unsent rest waiting split
  refine ⟨?_, absent⟩
  by_contra stopping
  rcases consuming.stopping (by simpa using stopping) with ⟨_, sentinel⟩ | done
  · exact absent sentinel
  · exact unfinished done

/-- The consumer takes the first identifier and calls its handler. -/
theorem takes {jobId : UUID} {rest : List (Option UUID)} {unfinished : Nat} {depths : List Nat}
    (consuming : Consuming phase deployment) (live : phase ≠ .done)
    (first : deployment.queue.queue = some jobId :: rest) :
    Consuming (.handling jobId) { deployment with
      queue := ⟨rest, unfinished, [.handling jobId], deployment.queue.stopping⟩
      handler := some (.loading jobId)
      depths := depths } := by
  obtain ⟨unstopped, absent⟩ := consuming.clean live (by intro _ _; rw [first]; simp)
  rw [first] at absent
  have moved : (deployment.submitting ++ jobId :: rest.filterMap id).Perm
      (jobId :: (deployment.submitting ++ rest.filterMap id)) := List.perm_middle
  have underway : deployment.underway = deployment.submitting ++ jobId :: rest.filterMap id := by
    rw [Deployment.underway, first]
    rfl
  refine ⟨rfl, ⟨_, rfl, rfl⟩, consuming.alone, ?_, ?_, ?_, ?_, ?_, ?_⟩
  · intro other member
    refine consuming.waiting other ?_
    rw [underway, moved.mem_iff]
    exact List.mem_cons_of_mem _ member
  · have distinct := consuming.distinct.of_append_right
    rw [underway] at distinct
    exact moved.nodup_iff.mp distinct
  · intro other isCurrent
    obtain rfl := List.mem_singleton.mp isCurrent
    refine (consuming.waiting other ?_).isSome
    rw [underway]
    simp
  · intro stopping
    rw [unstopped] at stopping
    cases stopping
  · intro sentinel
    exact absurd (List.mem_cons_of_mem _ sentinel) absent
  · intro handling
    cases handling

/-- The consumer finds the queue empty. -/
theorem rests {unfinished : Nat} {depths : List Nat} (consuming : Consuming phase deployment)
    (live : phase ≠ .done) (empty : deployment.queue.queue = [])
    (gauge : depths.getLast?.getD 0 = 0) :
    Consuming .waiting { deployment with
      queue := ⟨deployment.queue.queue, unfinished, [.waiting], deployment.queue.stopping⟩
      handler := none
      depths := depths } := by
  obtain ⟨unstopped, absent⟩ := consuming.clean live (by intro _ _; rw [empty]; simp)
  refine ⟨rfl, rfl, consuming.alone, consuming.waiting, consuming.distinct.of_append_right, ?_, ?_,
    fun sentinel => absurd sentinel absent, ?_⟩
  · intro jobId isCurrent
    cases isCurrent
  · intro stopping
    rw [unstopped] at stopping
    cases stopping
  · intro _ _
    rw [gauge]
    simp [InMemoryJobQueue.qsize, empty]

/-- The consumer takes the sentinel and leaves. -/
theorem leaves {rest : List (Option UUID)} {unfinished : Nat}
    (consuming : Consuming phase deployment) (sentinel : deployment.queue.queue = none :: rest) :
    Consuming .done { deployment with
      queue := ⟨rest, unfinished, [.done], deployment.queue.stopping⟩
      handler := none
      depths := deployment.depths ++ [rest.length] } := by
  obtain ⟨_, _, others, split, absent⟩ :=
    consuming.sentinel (by rw [sentinel]; exact List.mem_cons_self)
  rw [sentinel, List.cons.injEq] at split
  obtain ⟨_, rfl⟩ := split
  have underway : deployment.underway = deployment.submitting ++ rest.filterMap id := by
    rw [Deployment.underway, sentinel]
    rfl
  refine ⟨rfl, rfl, consuming.alone, ?_, ?_, ?_, fun _ => .inr rfl,
    fun more => absurd more absent, ?_⟩
  · intro jobId member
    exact consuming.waiting jobId (underway ▸ member)
  · have distinct := consuming.distinct.of_append_right
    rw [underway] at distinct
    exact distinct
  · intro jobId isCurrent
    cases isCurrent
  · intro _ _
    simp [InMemoryJobQueue.qsize]

theorem phase_eq {found : ConsumerPhase} (consuming : Consuming phase deployment)
    (isFirst : deployment.queue.tasks[0]? = some found) : phase = found := by
  rw [consuming.tasks] at isFirst
  exact Option.some.inj isFirst

/-- A turn of a consumer that has not waited for it. -/
theorem turn {unfinished : Nat} {depths : List Nat} {queue : InMemoryJobQueue}
    {outputs : List QueueOutput} (consuming : Consuming phase deployment) (live : phase ≠ .done)
    (busy : phase ≠ .waiting)
    (gauge : deployment.queue.queue = [] → depths.getLast?.getD 0 = 0)
    (turned : ConsumerTurn { deployment.queue with unfinished := unfinished } 0 queue outputs) :
    ∃ next, Consuming next { deployment with
      queue := queue
      handler := handlerOf outputs
      depths := depths ++ outputs.filterMap QueueOutput.depth? } := by
  obtain ⟨unstopped, absent⟩ := consuming.clean live fun _ waiting => absurd waiting busy
  have set : ∀ next, deployment.queue.tasks.set 0 next = [next] := by
    intro next
    rw [consuming.tasks]
    rfl
  cases turned with
  | stopped stopping =>
      rw [unstopped] at stopping
      cases stopping
  | waits empty =>
      rw [InMemoryJobQueue.setTask, set, List.filterMap_nil, List.append_nil]
      exact ⟨_, consuming.rests live empty (gauge empty)⟩
  | woken sentinel => exact absurd (by rw [sentinel]; exact List.mem_cons_self) absent
  | takes first =>
      dsimp only at first
      rw [set]
      exact ⟨_, consuming.takes live first⟩

theorem consume {action : QueueAction} {queue : InMemoryJobQueue} {outputs : List QueueOutput}
    (consuming : Consuming phase deployment)
    (acts : action = .resume 0 ∨
      ∃ outcome, action = .handled 0 outcome ∧ deployment.handler = some (.finished outcome))
    (stepped : deployment.queue.step? action = some (queue, outputs)) :
    ∃ next, Consuming next { deployment with
      queue := queue
      handler := handlerOf outputs
      depths := deployment.depths ++ outputs.filterMap QueueOutput.depth? } := by
  have taken : QueueStep deployment.queue ⟨action, outputs⟩ queue := stepped
  have move := taken.move
  dsimp only at move
  rcases acts with rfl | ⟨outcome, rfl, _⟩
  · cases move with
    | resumed waits turned =>
        rcases waits with created | ⟨waiting, nonempty, received⟩
        · obtain rfl := consuming.phase_eq created
          refine consuming.turn (by decide) (by decide) ?_ turned
          intro empty
          rw [consuming.gauge rfl (by rw [empty]; simp), InMemoryJobQueue.qsize, empty]
          rfl
        · obtain rfl := consuming.phase_eq waiting
          have set : ∀ next, deployment.queue.tasks.set 0 next = [next] := by
            intro next
            rw [consuming.tasks]
            rfl
          unfold InMemoryJobQueue.receive at received
          split at received
          · rename_i empty
            exact absurd empty nonempty
          · rename_i rest sentinel
            cases received
            rw [InMemoryJobQueue.setTask, InMemoryJobQueue.taskDone, set]
            exact ⟨_, consuming.leaves sentinel⟩
          · rename_i jobId rest first
            cases received
            rw [InMemoryJobQueue.setTask, set]
            exact ⟨_, consuming.takes (by decide) first⟩
  · cases move with
    | @handled _ jobId _ _ outputs handling turned =>
        obtain rfl := consuming.phase_eq handling
        have reported : handlerOf (InMemoryJobQueue.failureLog jobId outcome ++
            [.depth deployment.queue.qsize] ++ outputs) = handlerOf outputs := by
          cases outcome <;> rfl
        have recorded : (InMemoryJobQueue.failureLog jobId outcome ++
            [QueueOutput.depth deployment.queue.qsize] ++ outputs).filterMap QueueOutput.depth? =
              deployment.queue.qsize :: outputs.filterMap QueueOutput.depth? := by
          cases outcome <;> rfl
        rw [reported, recorded, ← List.singleton_append, ← List.append_assoc]
        refine consuming.turn (by simp) (by simp) ?_ turned
        intro empty
        simp [InMemoryJobQueue.qsize, empty]

theorem handle (implements : Implements repository release) {task : ServiceState} {signal : Signal}
    {after : ServiceState × List Emission} {store : repository.State}
    (consuming : Consuming phase deployment) (working : deployment.handler = some task)
    (ran : task.next signal = some after)
    (heard : Heard repository evaluator task.call? task.scoring? deployment.store signal store) :
    Consuming phase { deployment with store := store, handler := some after.1 } := by
  obtain ⟨jobId, rfl, about⟩ : ∃ jobId, phase = .handling jobId ∧ task.About jobId := by
    have calls := consuming.calls
    cases phase with
    | handling jobId =>
        obtain ⟨current, found, about⟩ := calls
        rw [working, Option.some_inj] at found
        subst found
        exact ⟨jobId, rfl, about⟩
    | _ => cases working.symm.trans calls
  have others : ∀ other, other ≠ jobId →
      repository.job? store other = repository.job? deployment.store other := by
    intro other different
    cases signal with
    | replied now reply =>
        obtain ⟨call, waits, effect⟩ := Heard.effect implements heard
        exact (about.jobCall waits).other_entry effect different
    | scored outcome => rw [heard.1]
    | resumed now => rw [heard]
    | stop => rw [heard]
  have unhandled : ∀ other ∈ deployment.underway, other ≠ jobId := by
    rintro other member rfl
    exact (List.nodup_cons.mp consuming.distinct).1 member
  refine ⟨consuming.tasks, ⟨_, rfl, about.next implements ran heard⟩, consuming.alone, ?_,
    consuming.distinct, ?_, consuming.stopping, consuming.sentinel, consuming.gauge⟩
  · intro other member
    obtain ⟨job, stored, queued⟩ := consuming.waiting other member
    refine ⟨job, ?_, queued⟩
    rw [others other (unhandled other member), stored]
  · intro other isCurrent
    have stored := consuming.running other isCurrent
    cases signal with
    | replied now reply =>
        obtain ⟨call, waits, effect⟩ := Heard.effect implements heard
        exact effect.isSome_entry other stored
    | scored outcome =>
        rw [heard.1]
        exact stored
    | resumed now =>
        rw [heard]
        exact stored
    | stop =>
        rw [heard]
        exact stored

theorem shutdown (consuming : Consuming phase deployment)
    (waits : deployment.queue.tasks = [.waiting]) (empty : deployment.queue.queue = []) :
    Consuming phase { deployment with queue := deployment.queue.stop } := by
  have isWaiting : phase = .waiting := by simpa [waits] using consuming.tasks.symm
  subst isWaiting
  have stopped : deployment.queue.stop =
      ⟨[none], deployment.queue.unfinished + 1, [.waiting], true⟩ := by
    simp [InMemoryJobQueue.stop, InMemoryJobQueue.put, waits, empty]
  have underway : deployment.underway = deployment.submitting ++ [] := by
    rw [Deployment.underway, empty]
    rfl
  rw [stopped]
  refine ⟨rfl, consuming.calls, consuming.alone, ?_, ?_, consuming.running, ?_, ?_, ?_⟩
  · intro jobId member
    exact consuming.waiting jobId (underway ▸ member)
  · have distinct := consuming.distinct
    rw [underway] at distinct
    exact distinct
  · intro _
    exact .inl ⟨rfl, List.mem_singleton_self _⟩
  · intro _
    exact ⟨rfl, rfl, [], rfl, List.not_mem_nil⟩
  · intro _ absent
    exact absurd (List.mem_singleton_self _) absent

theorem step (implements : Implements repository release) {event : DeploymentEvent}
    {next : Deployment repository} (consuming : Consuming phase deployment)
    (stepped : DeploymentStep repository evaluator staleJobSeconds .combined deployment event next)
    (keeps : KeepsToQueue .combined ⟨deployment, event, next⟩) :
    ∃ following, Consuming following next := by
  cases stepped with
  | create fresh created => exact ⟨_, consuming.create implements fresh created⟩
  | enqueue member => exact ⟨_, consuming.enqueue member⟩
  | consume acts taken => exact consuming.consume acts taken
  | handle working ran heard => exact ⟨_, consuming.handle implements working ran heard⟩
  | shutdown =>
      obtain ⟨waits, empty⟩ := keeps rfl
      exact ⟨_, consuming.shutdown waits empty⟩
  | startWorker split _ => exact absurd rfl split
  | work found _ _ =>
      rw [consuming.alone] at found
      cases found

theorem queuesWaiting (consuming : Consuming phase deployment) (rests : deployment.AtRest) :
    deployment.QueuesWaiting := by
  have waiting : ∀ jobId, some jobId ∈ deployment.queue.queue →
      Waits (repository.job? deployment.store) jobId := by
    intro jobId member
    refine consuming.waiting jobId (List.mem_append_right _ ?_)
    exact List.mem_filterMap.mpr ⟨_, member, rfl⟩
  have absent : none ∉ deployment.queue.queue := by
    intro sentinel
    obtain ⟨isWaiting, stopping, _⟩ := consuming.sentinel sentinel
    have idle := rests.stops stopping
    rw [InMemoryJobQueue.idle, consuming.tasks, isWaiting] at idle
    cases idle
  have unhandled : phase.isHandling = false := by
    have calls := consuming.calls
    cases phase with
    | handling jobId =>
        obtain ⟨task, working, _⟩ := calls
        cases working.symm.trans rests.handles
    | _ => rfl
  exact queuesWaiting_of_gauge waiting absent (consuming.gauge unhandled absent)

end Consuming

end EvaluationService
