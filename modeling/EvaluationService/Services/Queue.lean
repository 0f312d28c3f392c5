import EvaluationService.Core.Telemetry
import EvaluationService.Foundation.Run

/-!
The in-process queue (`app/services/queue.py`). Job identifiers and the `None` by which
`stop` wakes the consumer share one unbounded FIFO. A call of `start` may create a further
consumer task; the model keeps every task that was created, so that whether two of them
can be at work is a question about runs. A step runs a call or a task from one `await`
that suspends to the next.
-/

set_option autoImplicit false

namespace EvaluationService

open Foundation

/-- Where a consumer task waits. -/
inductive ConsumerPhase where
  /-- Created by `start` and not run yet. -/
  | created
  /-- Waits in `get` on an empty queue. -/
  | waiting
  | handling (jobId : UUID)
  | done
deriving DecidableEq, Repr

structure InMemoryJobQueue where
  /-- Waiting identifiers, with `none` for the sentinel of `stop`. -/
  queue : List (Option UUID)
  /-- What `task_done` counts down and `join` waits for. -/
  unfinished : Nat
  /-- Every task that `start` created, the last of which is `_task`. -/
  tasks : List ConsumerPhase
  stopping : Bool
deriving DecidableEq, Repr

inductive QueueOutput where
  | handlerCalled (jobId : UUID)
  | depth (size : Nat)
  | log (record : LogRecord)
deriving DecidableEq, Repr

inductive QueueAction where
  | enqueue (jobId : UUID)
  | start
  | stop
  /-- A task runs for the first time or is woken from `get`. -/
  | resume (index : Nat)
  /-- The handler that a task called returns or raises. -/
  | handled (index : Nat) (outcome : Except Exn Unit)
deriving DecidableEq

namespace InMemoryJobQueue

def empty : InMemoryJobQueue := ⟨[], 0, [], false⟩

def qsize (queue : InMemoryJobQueue) : Nat := queue.queue.length

def put (queue : InMemoryJobQueue) (item : Option UUID) : InMemoryJobQueue :=
  { queue with queue := queue.queue ++ [item], unfinished := queue.unfinished + 1 }

def taskDone (queue : InMemoryJobQueue) : InMemoryJobQueue :=
  { queue with unfinished := queue.unfinished - 1 }

def setTask (queue : InMemoryJobQueue) (index : Nat) (phase : ConsumerPhase) : InMemoryJobQueue :=
  { queue with tasks := queue.tasks.set index phase }

/-- `_task` is `None` or done. -/
def idle (queue : InMemoryJobQueue) : Bool :=
  queue.tasks.getLast?.all (· = .done)

def enqueue (queue : InMemoryJobQueue) (jobId : UUID) : InMemoryJobQueue × List QueueOutput :=
  let queue := queue.put (some jobId)
  (queue, [.depth queue.qsize])

def start (queue : InMemoryJobQueue) : InMemoryJobQueue :=
  if queue.idle then { queue with stopping := false, tasks := queue.tasks ++ [.created] }
  else queue

/-- `stop` up to where it waits for the task. -/
def stop (queue : InMemoryJobQueue) : InMemoryJobQueue :=
  let queue := { queue with stopping := true }
  if queue.tasks.isEmpty then queue else queue.put none

/-- `_run` from its `get` on, up to the next suspension. -/
def receive (queue : InMemoryJobQueue) (index : Nat) : InMemoryJobQueue × List QueueOutput :=
  match queue.queue with
  | [] => (queue.setTask index .waiting, [])
  | none :: rest =>
      let queue := ({ queue with queue := rest }).taskDone
      (queue.setTask index .done, [.depth queue.qsize])
  | some jobId :: rest =>
      (({ queue with queue := rest }).setTask index (.handling jobId), [.handlerCalled jobId])

/-- `_run` from the test of its loop on. -/
def loop (queue : InMemoryJobQueue) (index : Nat) : InMemoryJobQueue × List QueueOutput :=
  if queue.stopping then (queue.setTask index .done, []) else queue.receive index

def failureLog (jobId : UUID) : Except Exn Unit → List QueueOutput
  | .ok () => []
  | .error error => [.log ⟨"app.services.queue", .exception, "background job handler failed", [error],
      [("job_id", .uuid jobId)]⟩]

/-- `_run` from the end of a handler call on. -/
def afterHandler (queue : InMemoryJobQueue) (index : Nat) (jobId : UUID)
    (outcome : Except Exn Unit) : InMemoryJobQueue × List QueueOutput :=
  let queue := queue.taskDone
  (queue.loop index).map id ((failureLog jobId outcome ++ [.depth queue.qsize]) ++ ·)

/-- One step; `none` where the task that it picks does not wait for it. -/
def step? (queue : InMemoryJobQueue) : QueueAction → Option (InMemoryJobQueue × List QueueOutput)
  | .enqueue jobId => some (queue.enqueue jobId)
  | .start => some (queue.start, [])
  | .stop => some (queue.stop, [])
  | .resume index =>
      match queue.tasks[index]? with
      | some .created => some (queue.loop index)
      | some .waiting => if queue.queue.isEmpty then none else some (queue.receive index)
      | _ => none
  | .handled index outcome =>
      match queue.tasks[index]? with
      | some (.handling jobId) => some (queue.afterHandler index jobId outcome)
      | _ => none

end InMemoryJobQueue

structure QueueEvent where
  action : QueueAction
  outputs : List QueueOutput

def QueueStep (queue : InMemoryJobQueue) (event : QueueEvent) (next : InMemoryJobQueue) : Prop :=
  queue.step? event.action = some (next, event.outputs)

abbrev QueueTrace : Type := List (Transition InMemoryJobQueue QueueEvent)

/-! ## What a step can do -/

/-- A task that is about to look at the queue leaves by the flag, waits, leaves by a
sentinel or calls its handler. -/
inductive ConsumerTurn (queue : InMemoryJobQueue) (index : Nat) :
    InMemoryJobQueue → List QueueOutput → Prop where
  | stopped : queue.stopping = true → ConsumerTurn queue index (queue.setTask index .done) []
  | waits : queue.queue = [] → ConsumerTurn queue index (queue.setTask index .waiting) []
  | woken {rest : List (Option UUID)} : queue.queue = none :: rest →
      ConsumerTurn queue index
        ⟨rest, queue.unfinished - 1, queue.tasks.set index .done, queue.stopping⟩
        [.depth rest.length]
  | takes {jobId : UUID} {rest : List (Option UUID)} : queue.queue = some jobId :: rest →
      ConsumerTurn queue index
        ⟨rest, queue.unfinished, queue.tasks.set index (.handling jobId), queue.stopping⟩
        [.handlerCalled jobId]

inductive QueueMove (queue : InMemoryJobQueue) :
    QueueAction → InMemoryJobQueue → List QueueOutput → Prop where
  | enqueued {jobId : UUID} :
      QueueMove queue (.enqueue jobId) (queue.put (some jobId)) [.depth (queue.qsize + 1)]
  | started : queue.idle = true →
      QueueMove queue .start
        { queue with stopping := false, tasks := queue.tasks ++ [.created] } []
  | running : queue.idle = false → QueueMove queue .start queue []
  | stopped : queue.tasks ≠ [] →
      QueueMove queue .stop ({ queue with stopping := true }.put none) []
  | stoppedUnstarted : queue.tasks = [] →
      QueueMove queue .stop { queue with stopping := true } []
  | resumed {index : Nat} {next : InMemoryJobQueue} {outputs : List QueueOutput} :
      (queue.tasks[index]? = some .created ∨ queue.tasks[index]? = some .waiting ∧
        queue.queue ≠ [] ∧ queue.receive index = (next, outputs)) →
      ConsumerTurn queue index next outputs → QueueMove queue (.resume index) next outputs
  | handled {index : Nat} {jobId : UUID} {outcome : Except Exn Unit} {next : InMemoryJobQueue}
      {outputs : List QueueOutput} : queue.tasks[index]? = some (.handling jobId) →
      ConsumerTurn queue.taskDone index next outputs →
      QueueMove queue (.handled index outcome) next
        (InMemoryJobQueue.failureLog jobId outcome ++ [.depth queue.qsize] ++ outputs)

theorem receive_turn (queue : InMemoryJobQueue) (index : Nat) :
    ConsumerTurn queue index (queue.receive index).1 (queue.receive index).2 := by
  unfold InMemoryJobQueue.receive
  split
  · rename_i none
    exact .waits none
  · rename_i rest sentinel
    exact .woken sentinel
  · rename_i jobId rest first
    exact .takes first

theorem loop_turn (queue : InMemoryJobQueue) (index : Nat) :
    ConsumerTurn queue index (queue.loop index).1 (queue.loop index).2 := by
  unfold InMemoryJobQueue.loop
  split
  · rename_i stopping
    exact .stopped stopping
  · exact receive_turn queue index

theorem QueueStep.move {queue next : InMemoryJobQueue} {event : QueueEvent}
    (stepped : QueueStep queue event next) : QueueMove queue event.action next event.outputs := by
  obtain ⟨action, outputs⟩ := event
  unfold QueueStep InMemoryJobQueue.step? at stepped
  dsimp only at stepped ⊢
  cases action with
  | enqueue jobId =>
      cases stepped
      have size : (queue.put (some jobId)).qsize = queue.qsize + 1 := by
        simp [InMemoryJobQueue.qsize, InMemoryJobQueue.put]
      rw [size]
      exact .enqueued
  | start =>
      cases stepped
      unfold InMemoryJobQueue.start
      split
      · rename_i idle
        exact .started idle
      · rename_i busy
        exact .running (by simpa using busy)
  | stop =>
      cases stepped
      unfold InMemoryJobQueue.stop
      dsimp only
      split
      · rename_i unstarted
        exact .stoppedUnstarted (List.isEmpty_iff.mp unstarted)
      · rename_i started
        exact .stopped fun none => started (List.isEmpty_iff.mpr none)
  | resume index =>
      dsimp only at stepped
      split at stepped
      · rename_i created
        have turn := loop_turn queue index
        rw [Option.some.inj stepped] at turn
        exact .resumed (.inl created) turn
      · rename_i waiting
        split at stepped
        · cases stepped
        · rename_i nonempty
          have turn := receive_turn queue index
          have received := Option.some.inj stepped
          rw [received] at turn
          exact .resumed (.inr ⟨waiting, fun none => nonempty (List.isEmpty_iff.mpr none), received⟩)
            turn
      · cases stepped
  | handled index outcome =>
      dsimp only at stepped
      split at stepped
      · rename_i jobId handling
        cases stepped
        exact .handled handling (loop_turn queue.taskDone index)
      · cases stepped

/-! ## What a trace records -/

def QueueAction.enqueued? : QueueAction → Option UUID
  | .enqueue jobId => some jobId
  | _ => none

def QueueOutput.handlerCalled? : QueueOutput → Option UUID
  | .handlerCalled jobId => some jobId
  | _ => none

def QueueAction.isHandled : QueueAction → Bool
  | .handled _ _ => true
  | _ => false

namespace QueueTrace

/-- The identifiers enqueued, in order. -/
def enqueued (trace : QueueTrace) : List UUID :=
  trace.filterMap fun taken => taken.event.action.enqueued?

/-- The identifiers passed to the handler, in order. -/
def passed (trace : QueueTrace) : List UUID :=
  trace.flatMap fun taken => taken.event.outputs.filterMap QueueOutput.handlerCalled?

/-- How many handler calls have returned or raised. -/
def ended (trace : QueueTrace) : Nat :=
  trace.countP fun taken => taken.event.action.isHandled

end QueueTrace

end EvaluationService
