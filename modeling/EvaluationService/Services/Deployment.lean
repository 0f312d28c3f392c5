import EvaluationService.Services.Queue
import EvaluationService.Services.System

/-!
A deployment of the API process (`lifespan` of `app/main.py`). Calls of `submit` store
jobs and enqueue them in every role. In the combined role the process starts a consumer of
its queue, whose handler is `process`; in the other roles separate workers claim the jobs
from the repository that they share with it.
-/

set_option autoImplicit false

namespace EvaluationService

open Foundation

inductive ProcessRole where
  | combined
  | api
  | worker
deriving DecidableEq, Repr

structure Deployment (repository : JobRepository) where
  store : repository.State
  /-- Jobs that a call of `submit` has created and is about to enqueue. -/
  submitting : List UUID
  queue : InMemoryJobQueue
  /-- The call of `process` that the consumer waits for. -/
  handler : Option ServiceState
  /-- The queue depths recorded, the last one being the value of the gauge. -/
  depths : List Nat
  workers : Nat → Option WorkerState

inductive DeploymentEvent where
  | create (submission : Submission)
  | enqueue (jobId : UUID)
  /-- The consumer runs up to its next suspension. -/
  | consume (action : QueueAction)
  /-- The handler hears what it waited for. -/
  | handle (signal : Signal)
  /-- The process shuts down and calls `stop`. -/
  | shutdown
  | startWorker (index : Nat)
  | work (index : Nat) (signal : Signal)

def QueueOutput.depth? : QueueOutput → Option Nat
  | .depth size => some size
  | _ => none

/-- The handler call that a turn of the consumer makes. -/
def handlerOf (outputs : List QueueOutput) : Option ServiceState :=
  (outputs.findSome? QueueOutput.handlerCalled?).map ServiceState.loading

/-- The jobs that are left to enqueue after `create`. -/
def createdIds (jobId : UUID) : Except Exn EvaluationJob → List UUID
  | .ok _ => [jobId]
  | .error _ => []

section Deployment

variable (repository : JobRepository) (evaluator : EvaluatorBehavior) (staleJobSeconds : Int)
variable (role : ProcessRole)

/-- The process after its start. -/
def Deployment.initial : Deployment repository where
  store := repository.empty
  submitting := []
  queue := if role = .combined then InMemoryJobQueue.empty.start else .empty
  handler := none
  depths := []
  workers := fun _ => none

inductive DeploymentStep (deployment : Deployment repository) :
    DeploymentEvent → Deployment repository → Prop where
  | create {submission : Submission} {outcome : Except Exn EvaluationJob}
      {store : repository.State} :
      repository.job? deployment.store submission.jobId = none →
      repository.Step deployment.store ⟨submission.now, .create submission.job, .job outcome⟩ store →
      DeploymentStep deployment (.create submission)
        { deployment with
          store := store
          submitting := deployment.submitting ++ createdIds submission.jobId outcome }
  | enqueue {jobId : UUID} : jobId ∈ deployment.submitting →
      DeploymentStep deployment (.enqueue jobId)
        { deployment with
          submitting := deployment.submitting.erase jobId
          queue := (deployment.queue.enqueue jobId).1
          depths := deployment.depths ++
            (deployment.queue.enqueue jobId).2.filterMap QueueOutput.depth? }
  | consume {action : QueueAction} {queue : InMemoryJobQueue} {outputs : List QueueOutput} :
      (action = .resume 0 ∨
        ∃ outcome, action = .handled 0 outcome ∧ deployment.handler = some (.finished outcome)) →
      deployment.queue.step? action = some (queue, outputs) →
      DeploymentStep deployment (.consume action)
        { deployment with
          queue := queue
          handler := handlerOf outputs
          depths := deployment.depths ++ outputs.filterMap QueueOutput.depth? }
  | handle {task : ServiceState} {signal : Signal} {after : ServiceState × List Emission}
      {store : repository.State} : deployment.handler = some task →
      task.next signal = some after →
      Heard repository evaluator task.call? task.scoring? deployment.store signal store →
      DeploymentStep deployment (.handle signal)
        { deployment with store := store, handler := some after.1 }
  | shutdown : DeploymentStep deployment .shutdown { deployment with queue := deployment.queue.stop }
  | startWorker {index : Nat} : role ≠ .combined → deployment.workers index = none →
      DeploymentStep deployment (.startWorker index)
        { deployment with
          workers := Function.update deployment.workers index (some WorkerState.started) }
  | work {index : Nat} {worker : WorkerState} {signal : Signal} {after : WorkerState × List Emission}
      {store : repository.State} : deployment.workers index = some worker →
      worker.next staleJobSeconds signal = some after →
      Heard repository evaluator worker.phase.call? worker.phase.scoring? deployment.store signal
        store →
      DeploymentStep deployment (.work index signal)
        { deployment with
          store := store
          workers := Function.update deployment.workers index (some after.1) }

abbrev DeploymentTrace : Type := List (Transition (Deployment repository) DeploymentEvent)

def DeploymentReaches (trace : DeploymentTrace repository) (deployment : Deployment repository) :
    Prop :=
  Run (DeploymentStep repository evaluator staleJobSeconds role) (.initial repository role) trace
    deployment

end Deployment

variable {repository : JobRepository}

/-- No call is in flight: of `submit`, of `process`, of `stop`, or of a worker. -/
structure Deployment.AtRest (deployment : Deployment repository) : Prop where
  submits : deployment.submitting = []
  handles : deployment.handler = none
  stops : deployment.queue.stopping = true → deployment.queue.idle = true
  works : ∀ index worker, deployment.workers index = some worker →
    worker.phase.call? = none ∧ worker.phase.scoring? = none

/-- The queue holds jobs that wait, and when every job is finished it is empty and its
recorded depth is zero. -/
structure Deployment.QueuesWaiting (deployment : Deployment repository) : Prop where
  waiting : ∀ jobId, some jobId ∈ deployment.queue.queue →
    ∃ job, repository.job? deployment.store jobId = some job ∧ job.status = .queued
  drained : (∀ jobId job, repository.job? deployment.store jobId = some job → job.status.Terminal) →
    deployment.queue.queue = [] ∧ ∀ depth ∈ deployment.depths.getLast?, depth = 0

/-! ## Executing a schedule -/

inductive DeploymentTurn where
  | create (submission : Submission)
  | enqueue (jobId : UUID)
  | consume
  | handle (cue : Cue)
  | shutdown
  | startWorker (index : Nat)
  | work (index : Nat) (cue : Cue)

section Execution

variable (repository : JobRepository) (score : EvaluationRequest → Except Exn EvaluationResult)
variable (staleJobSeconds : Int) (role : ProcessRole)

/-- What the consumer waits for: the end of its handler, or its own turn. -/
def Deployment.consumerAction (deployment : Deployment repository) : QueueAction :=
  match deployment.handler with
  | some (.finished outcome) => .handled 0 outcome
  | _ => .resume 0

/-- One turn of a schedule; `none` where what it picks does not wait for it. -/
def Deployment.turn? (deployment : Deployment repository) :
    DeploymentTurn → Option (DeploymentEvent × Deployment repository)
  | .create submission =>
      let (outcome, store) := repository.create deployment.store submission.job
      if repository.job? deployment.store submission.jobId = none then
        some (.create submission, { deployment with
          store := store
          submitting := deployment.submitting ++ createdIds submission.jobId outcome })
      else none
  | .enqueue jobId =>
      let (queue, outputs) := deployment.queue.enqueue jobId
      if jobId ∈ deployment.submitting then
        some (.enqueue jobId, { deployment with
          submitting := deployment.submitting.erase jobId
          queue := queue
          depths := deployment.depths ++ outputs.filterMap QueueOutput.depth? })
      else none
  | .consume =>
      let action := deployment.consumerAction
      (deployment.queue.step? action).map fun (queue, outputs) =>
        (.consume action, { deployment with
          queue := queue
          handler := handlerOf outputs
          depths := deployment.depths ++ outputs.filterMap QueueOutput.depth? })
  | .handle cue => do
      let task ← deployment.handler
      let (signal, store) ←
        cue.signal? repository score deployment.store task.call? task.scoring?
      let after ← task.next signal
      return (.handle signal, { deployment with store := store, handler := some after.1 })
  | .shutdown => some (.shutdown, { deployment with queue := deployment.queue.stop })
  | .startWorker index =>
      if role ≠ .combined ∧ (deployment.workers index).isNone then
        some (.startWorker index, { deployment with
          workers := Function.update deployment.workers index (some WorkerState.started) })
      else none
  | .work index cue => do
      let worker ← deployment.workers index
      let (signal, store) ←
        cue.signal? repository score deployment.store worker.phase.call? worker.phase.scoring?
      let after ← worker.next staleJobSeconds signal
      return (.work index signal, { deployment with
        store := store
        workers := Function.update deployment.workers index (some after.1) })

def Deployment.execute (deployment : Deployment repository) :
    List DeploymentTurn → DeploymentTrace repository × Deployment repository
  | [] => ([], deployment)
  | turn :: rest =>
      match deployment.turn? repository score staleJobSeconds role turn with
      | none => ([], deployment)
      | some (event, next) =>
          let (trace, final) := execute next rest
          (⟨deployment, event, next⟩ :: trace, final)

end Execution

section Execution

variable {score : EvaluationRequest → Except Exn EvaluationResult} {staleJobSeconds : Int}
variable {role : ProcessRole} {evaluator : EvaluatorBehavior}

theorem Deployment.step_of_turn? (admits : ∀ request, evaluator request (score request))
    {deployment next : Deployment repository} {turn : DeploymentTurn} {event : DeploymentEvent}
    (taken : deployment.turn? repository score staleJobSeconds role turn = some (event, next)) :
    DeploymentStep repository evaluator staleJobSeconds role deployment event next := by
  cases turn with
  | create submission =>
      dsimp only [turn?] at taken
      split at taken
      · rename_i fresh
        cases taken
        exact .create fresh ⟨_, repository.arranges_refl _, rfl⟩
      · cases taken
  | enqueue jobId =>
      dsimp only [turn?] at taken
      split at taken
      · rename_i member
        cases taken
        exact .enqueue member
      · cases taken
  | consume =>
      obtain ⟨⟨queue, outputs⟩, stepped, same⟩ := Option.map_eq_some_iff.mp taken
      cases same
      refine .consume ?_ stepped
      unfold consumerAction
      split
      · rename_i outcome finished
        exact .inr ⟨outcome, rfl, finished⟩
      · exact .inl rfl
  | handle cue =>
      obtain ⟨task, working, rest⟩ := Option.bind_eq_some_iff.mp taken
      obtain ⟨⟨signal, store⟩, cued, rest⟩ := Option.bind_eq_some_iff.mp rest
      obtain ⟨after, ran, result⟩ := Option.bind_eq_some_iff.mp rest
      cases result
      exact .handle working ran (Cue.heard_of_signal? admits cued)
  | shutdown =>
      cases taken
      exact .shutdown
  | startWorker index =>
      dsimp only [turn?] at taken
      split at taken
      · rename_i free
        cases taken
        exact .startWorker free.1 (Option.isNone_iff_eq_none.mp free.2)
      · cases taken
  | work index cue =>
      obtain ⟨worker, found, rest⟩ := Option.bind_eq_some_iff.mp taken
      obtain ⟨⟨signal, store⟩, cued, rest⟩ := Option.bind_eq_some_iff.mp rest
      obtain ⟨after, ran, result⟩ := Option.bind_eq_some_iff.mp rest
      cases result
      exact .work found ran (Cue.heard_of_signal? admits cued)

theorem Deployment.run_execute (admits : ∀ request, evaluator request (score request))
    (deployment : Deployment repository) (turns : List DeploymentTurn) :
    Run (DeploymentStep repository evaluator staleJobSeconds role) deployment
      (deployment.execute repository score staleJobSeconds role turns).1
      (deployment.execute repository score staleJobSeconds role turns).2 := by
  induction turns generalizing deployment with
  | nil => exact .nil
  | cons turn rest ih =>
      unfold Deployment.execute
      cases taken : deployment.turn? repository score staleJobSeconds role turn with
      | none => exact .nil
      | some after => exact (Run.single (step_of_turn? admits taken)).append (ih after.2)

end Execution

end EvaluationService
