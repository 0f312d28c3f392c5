import EvaluationService.Services.Queue

/-!
Runs of the in-process queue. Every identifier enqueued is passed to a handler once and in
order, whatever the tasks and handlers do. A consumer that was started goes on until it is
stopped, provided that no sentinel of an earlier `stop` was left in the queue: `stop` sets
a flag and puts a sentinel, and a consumer that leaves by the flag leaves the sentinel.
-/

set_option autoImplicit false

namespace EvaluationService

open Foundation

def ConsumerPhase.isHandling : ConsumerPhase → Bool
  | .handling _ => true
  | _ => false

/-- Every task but the last is done. -/
inductive Sequential : List ConsumerPhase → Prop where
  | unstarted : Sequential []
  | last {front : List ConsumerPhase} {phase : ConsumerPhase} :
      (∀ other ∈ front, other = .done) → Sequential (front ++ [phase])

/-- A task that is not done is the last one. -/
theorem Sequential.active {tasks : List ConsumerPhase} {index : Nat} {phase : ConsumerPhase}
    (sequential : Sequential tasks) (found : tasks[index]? = some phase) (live : phase ≠ .done) :
    ∃ front : List ConsumerPhase, tasks = front ++ [phase] ∧ index = front.length ∧
      ∀ other ∈ front, other = .done := by
  cases sequential with
  | unstarted => simp at found
  | @last front last finished =>
      rcases Nat.lt_or_ge index front.length with inside | beyond
      · rw [List.getElem?_append_left inside] at found
        exact absurd (finished phase (List.mem_of_getElem? found)) live
      · rw [List.getElem?_append_right beyond, List.getElem?_singleton] at found
        split at found
        · cases found
          exact ⟨front, rfl, by omega, finished⟩
        · cases found

theorem set_last (front : List ConsumerPhase) (phase next : ConsumerPhase) :
    (front ++ [phase]).set front.length next = front ++ [next] := by
  simp

theorem countP_isHandling_of_done {front : List ConsumerPhase}
    (finished : ∀ other ∈ front, other = .done) : front.countP ConsumerPhase.isHandling = 0 := by
  rw [List.countP_eq_zero]
  intro other member
  rw [finished other member]
  decide

theorem countP_isHandling_last {front : List ConsumerPhase}
    (finished : ∀ other ∈ front, other = .done) (phase : ConsumerPhase) :
    (front ++ [phase]).countP ConsumerPhase.isHandling = if phase.isHandling then 1 else 0 := by
  rw [List.countP_append, countP_isHandling_of_done finished, List.countP_singleton, Nat.zero_add]

theorem Sequential.countP_isHandling_le {tasks : List ConsumerPhase} (sequential : Sequential tasks) :
    tasks.countP ConsumerPhase.isHandling ≤ 1 := by
  cases sequential with
  | unstarted => decide
  | last finished =>
      rw [countP_isHandling_last finished]
      split <;> omega

/-! ## One step -/

variable {queue next : InMemoryJobQueue} {index : Nat} {action : QueueAction}
variable {outputs : List QueueOutput}

/-- The phase in which a turn leaves its task, with what the turn takes from the queue. -/
theorem ConsumerTurn.tasks (turn : ConsumerTurn queue index next outputs) :
    ∃ phase, next.tasks = queue.tasks.set index phase ∧
      (outputs.filterMap QueueOutput.handlerCalled?).length = if phase.isHandling then 1 else 0 := by
  cases turn with
  | stopped _ => exact ⟨.done, rfl, rfl⟩
  | waits _ => exact ⟨.waiting, rfl, rfl⟩
  | woken _ => exact ⟨.done, rfl, rfl⟩
  | @takes jobId _ _ => exact ⟨.handling jobId, rfl, rfl⟩

theorem ConsumerTurn.conserves (turn : ConsumerTurn queue index next outputs) :
    outputs.filterMap QueueOutput.handlerCalled? ++ next.queue.filterMap id =
      queue.queue.filterMap id := by
  cases turn with
  | stopped _ => rfl
  | waits _ => rfl
  | woken sentinel =>
      rw [sentinel]
      rfl
  | takes first =>
      rw [first]
      rfl

theorem failureLog_calls (jobId : UUID) (outcome : Except Exn Unit) (size : Nat) :
    (InMemoryJobQueue.failureLog jobId outcome ++ [QueueOutput.depth size]).filterMap
      QueueOutput.handlerCalled? = [] := by
  cases outcome <;> rfl

/-- What a step passes to the handler it takes from the front of the queue. -/
theorem QueueMove.conserves (move : QueueMove queue action next outputs) :
    outputs.filterMap QueueOutput.handlerCalled? ++ next.queue.filterMap id =
      queue.queue.filterMap id ++ action.enqueued?.toList := by
  cases move with
  | enqueued => simp [InMemoryJobQueue.put, QueueOutput.handlerCalled?, QueueAction.enqueued?]
  | started _ => simp [QueueAction.enqueued?]
  | running _ => simp [QueueAction.enqueued?]
  | stopped _ => simp [InMemoryJobQueue.put, QueueAction.enqueued?]
  | stoppedUnstarted _ => simp [QueueAction.enqueued?]
  | resumed _ turn =>
      rw [turn.conserves]
      simp [QueueAction.enqueued?]
  | handled _ turn =>
      rw [List.filterMap_append, failureLog_calls, List.nil_append, turn.conserves]
      simp [QueueAction.enqueued?, InMemoryJobQueue.taskDone]

theorem sequential_of_idle (sequential : Sequential queue.tasks) (idle : queue.idle = true) :
    Sequential (queue.tasks ++ [.created]) := by
  refine .last ?_
  unfold InMemoryJobQueue.idle at idle
  generalize queue.tasks = tasks at sequential idle
  cases sequential with
  | unstarted => simp
  | last finished =>
      intro other member
      rcases List.mem_append.mp member with earlier | isLast
      · exact finished other earlier
      · rw [List.mem_singleton.mp isLast]
        simpa using idle

/-- The task that takes a turn is the last one, before the turn and after it. -/
theorem ConsumerTurn.last {phase : ConsumerPhase} (turn : ConsumerTurn queue index next outputs)
    (sequential : Sequential queue.tasks) (found : queue.tasks[index]? = some phase)
    (live : phase ≠ .done) :
    ∃ front after, queue.tasks = front ++ [phase] ∧ next.tasks = front ++ [after] ∧
      (∀ other ∈ front, other = .done) ∧
      (outputs.filterMap QueueOutput.handlerCalled?).length = if after.isHandling then 1 else 0 := by
  obtain ⟨front, split, rfl, finished⟩ := sequential.active found live
  obtain ⟨after, set, called⟩ := turn.tasks
  rw [split, set_last] at set
  exact ⟨front, after, split, set, finished, called⟩

theorem resumable (waits : queue.tasks[index]? = some .created ∨
      queue.tasks[index]? = some .waiting ∧ queue.queue ≠ [] ∧
        queue.receive index = (next, outputs)) :
    ∃ phase, queue.tasks[index]? = some phase ∧ phase ≠ .done ∧ phase.isHandling = false := by
  rcases waits with created | ⟨waiting, _⟩
  · exact ⟨_, created, by decide, rfl⟩
  · exact ⟨_, waiting, by decide, rfl⟩

theorem QueueMove.sequential (move : QueueMove queue action next outputs)
    (sequential : Sequential queue.tasks) : Sequential next.tasks := by
  cases move with
  | enqueued => exact sequential
  | started idle => exact sequential_of_idle sequential idle
  | running _ => exact sequential
  | stopped _ => exact sequential
  | stoppedUnstarted _ => exact sequential
  | resumed waits turn =>
      obtain ⟨phase, found, live, _⟩ := resumable waits
      obtain ⟨front, after, _, set, finished, _⟩ := turn.last sequential found live
      rw [set]
      exact .last finished
  | handled handling turn =>
      obtain ⟨front, after, _, set, finished, _⟩ := turn.last sequential handling (by simp)
      rw [set]
      exact .last finished

/-- The handler calls in progress are those made and not ended. -/
theorem QueueMove.counts (move : QueueMove queue action next outputs)
    (sequential : Sequential queue.tasks) :
    (outputs.filterMap QueueOutput.handlerCalled?).length +
        queue.tasks.countP ConsumerPhase.isHandling =
      (if action.isHandled then 1 else 0) + next.tasks.countP ConsumerPhase.isHandling := by
  cases move with
  | enqueued => rfl
  | started _ => simp [QueueAction.isHandled, ConsumerPhase.isHandling]
  | running _ => rfl
  | stopped _ => rfl
  | stoppedUnstarted _ => rfl
  | resumed waits turn =>
      obtain ⟨phase, found, live, unhandling⟩ := resumable waits
      obtain ⟨front, after, split, set, finished, called⟩ := turn.last sequential found live
      rw [called, split, set, countP_isHandling_last finished, countP_isHandling_last finished,
        unhandling]
      simp [QueueAction.isHandled]
  | handled handling turn =>
      obtain ⟨front, after, split, set, finished, called⟩ :=
        turn.last sequential handling (by simp)
      have tasks : queue.tasks = front ++ [.handling _] := split
      rw [List.filterMap_append, failureLog_calls, List.nil_append, called, tasks, set,
        countP_isHandling_last finished, countP_isHandling_last finished]
      simp [QueueAction.isHandled, ConsumerPhase.isHandling, Nat.add_comm]

/-! ## Order -/

structure HandledInOrder (trace : QueueTrace) (queue : InMemoryJobQueue) : Prop where
  conserved : trace.passed ++ queue.queue.filterMap id = trace.enqueued
  inProgress : trace.passed.length = trace.ended + queue.tasks.countP ConsumerPhase.isHandling
  single : queue.tasks.countP ConsumerPhase.isHandling ≤ 1

theorem QueueTrace.passed_snoc (trace : QueueTrace)
    (taken : Transition InMemoryJobQueue QueueEvent) :
    QueueTrace.passed (trace ++ [taken]) =
      trace.passed ++ taken.event.outputs.filterMap QueueOutput.handlerCalled? := by
  simp [QueueTrace.passed]

theorem QueueTrace.enqueued_snoc (trace : QueueTrace)
    (taken : Transition InMemoryJobQueue QueueEvent) :
    QueueTrace.enqueued (trace ++ [taken]) =
      trace.enqueued ++ taken.event.action.enqueued?.toList := by
  simp only [QueueTrace.enqueued, List.filterMap_append]
  cases enqueued : taken.event.action.enqueued? <;> simp [enqueued]

theorem sequential_of_run {trace : QueueTrace} (run : Run QueueStep .empty trace queue) :
    Sequential queue.tasks :=
  run.preserves (fun queue => Sequential queue.tasks)
    (fun _ _ _ stepped sequential => stepped.move.sequential sequential) .unstarted

theorem passed_append_queue {trace : QueueTrace} (run : Run QueueStep .empty trace queue) :
    trace.passed ++ queue.queue.filterMap id = trace.enqueued := by
  induction run with
  | nil => rfl
  | snoc _ stepped ih =>
      rw [QueueTrace.passed_snoc, QueueTrace.enqueued_snoc, List.append_assoc,
        stepped.move.conserves, ← List.append_assoc, ih]

theorem length_passed {trace : QueueTrace} (run : Run QueueStep .empty trace queue) :
    trace.passed.length = trace.ended + queue.tasks.countP ConsumerPhase.isHandling := by
  induction run with
  | nil => rfl
  | snoc prior stepped ih =>
      have counts := stepped.move.counts (sequential_of_run prior)
      rw [QueueTrace.passed_snoc, List.length_append, ih]
      simp only [QueueTrace.ended, List.countP_append, List.countP_singleton]
      omega

/-- Identifiers are handled in the order in which they were enqueued, none is lost or handled
twice, and one handler call at a time is in progress. -/
theorem handled_in_order (trace : QueueTrace) (queue : InMemoryJobQueue)
    (run : Run QueueStep .empty trace queue) : HandledInOrder trace queue where
  conserved := passed_append_queue run
  inProgress := length_passed run
  single := (sequential_of_run run).countP_isHandling_le

/-- The steps of a schedule, up to the first that cannot be taken. -/
def InMemoryJobQueue.replay (queue : InMemoryJobQueue) :
    List QueueAction → QueueTrace × InMemoryJobQueue
  | [] => ([], queue)
  | action :: rest =>
      match queue.step? action with
      | none => ([], queue)
      | some (next, outputs) =>
          let (trace, final) := replay next rest
          (⟨queue, ⟨action, outputs⟩, next⟩ :: trace, final)

theorem InMemoryJobQueue.run_replay (queue : InMemoryJobQueue) (actions : List QueueAction) :
    Run QueueStep queue (queue.replay actions).1 (queue.replay actions).2 := by
  induction actions generalizing queue with
  | nil => exact .nil
  | cons action rest ih =>
      unfold InMemoryJobQueue.replay
      cases stepped : queue.step? action with
      | none => exact .nil
      | some after =>
          have first : QueueStep queue ⟨action, after.2⟩ after.1 := stepped
          exact (Run.single first).append (ih after.1)

/-- A handler that raises, a stop during it, and a restart. -/
theorem handled_in_order_restarted :
    let run := InMemoryJobQueue.empty.replay
      [.start, .enqueue 1, .resume 0, .enqueue 2, .stop, .handled 0 (.error .timeoutError), .start,
        .enqueue 3, .resume 1]
    QueueTrace.passed run.1 = [1, 2] ∧ run.2.queue = [none, some 3] ∧
      HandledInOrder run.1 run.2 := by
  intro run
  exact ⟨by decide, by decide, handled_in_order _ _ (InMemoryJobQueue.run_replay _ _)⟩

/-! ## Until stopped -/

def QueueAction.ofConsumer : QueueAction → Bool
  | .resume _ | .handled _ _ => true
  | .enqueue _ | .start | .stop => false

/-- A step of a consumer task. -/
def ConsumerStep (queue : InMemoryJobQueue) (event : QueueEvent) (next : InMemoryJobQueue) : Prop :=
  event.action.ofConsumer = true ∧ QueueStep queue event next

/-- No consumer task can take a step. -/
def InMemoryJobQueue.Rests (queue : InMemoryJobQueue) : Prop :=
  ∀ action, action.ofConsumer = true → queue.step? action = none

/-- A call of `start` that created the consumer task of this number. -/
def Creates (taken : Transition InMemoryJobQueue QueueEvent) (index : Nat) : Prop :=
  taken.event.action = .start ∧ taken.source.tasks.length = index ∧
    taken.target.tasks.length = index + 1

structure RunsUntilStopped (trace : QueueTrace) (queue : InMemoryJobQueue) : Prop where
  finishes : ∀ before starting after index, trace = before ++ starting :: after →
    Creates starting index → queue.tasks[index]? = some .done →
    ∃ taken ∈ after, taken.event.action = .stop
  /-- The consumer's steps come to an end, and by then it has handled what was enqueued. -/
  handles : ∀ before starting after index, trace = before ++ starting :: after →
    Creates starting index → (∀ taken ∈ after, taken.event.action ≠ .stop) →
    ∀ rest later, Run ConsumerStep queue rest later →
      rest.length ≤ 2 * queue.qsize + 1 ∧
        (later.Rests → QueueTrace.passed (trace ++ rest) = trace.enqueued)

/-- A call of `start` that creates a consumer finds no sentinel in the queue. -/
def StartsClean (taken : Transition InMemoryJobQueue QueueEvent) : Prop :=
  taken.event.action = .start → taken.source.idle = true → none ∉ taken.source.queue

instance (taken : Transition InMemoryJobQueue QueueEvent) : Decidable (StartsClean taken) :=
  inferInstanceAs (Decidable (_ → _ → _))

/-- The consumer task of this number is at work and nothing tells it to leave. -/
structure Serving (index : Nat) (queue : InMemoryJobQueue) : Prop where
  sequential : Sequential queue.tasks
  unstopped : queue.stopping = false
  clean : none ∉ queue.queue
  last : queue.tasks.length = index + 1
  alive : queue.idle = false

theorem busy_last {front : List ConsumerPhase} {phase : ConsumerPhase}
    (split : queue.tasks = front ++ [phase]) (live : phase ≠ .done) : queue.idle = false := by
  simp [InMemoryJobQueue.idle, split, live]

def ConsumerPhase.weight : ConsumerPhase → Nat
  | .created | .handling _ => 1
  | .waiting | .done => 0

/-- How many steps the consumer has left before it waits on an empty queue, at most. -/
def InMemoryJobQueue.work (queue : InMemoryJobQueue) : Nat :=
  2 * queue.qsize + (queue.tasks.getLast?.map ConsumerPhase.weight).getD 0

theorem work_last {front : List ConsumerPhase} {phase : ConsumerPhase}
    (split : queue.tasks = front ++ [phase]) : queue.work = 2 * queue.qsize + phase.weight := by
  simp [InMemoryJobQueue.work, split]

/-- A turn of a serving consumer: it waits if the queue is empty and else takes an
identifier, and either is progress. -/
theorem Serving.turn {phase : ConsumerPhase} (serving : Serving index queue)
    (found : queue.tasks[index]? = some phase) (live : phase ≠ .done)
    (progress : queue.queue = [] → phase.weight = 1)
    (turn : ConsumerTurn queue index next outputs) :
    Serving index next ∧ next.work < queue.work := by
  obtain ⟨front, split, isLast, finished⟩ := serving.sequential.active found live
  have set : ∀ after, queue.tasks.set index after = front ++ [after] := by
    intro after
    rw [split, isLast, set_last]
  cases turn with
  | stopped stopping =>
      rw [serving.unstopped] at stopping
      cases stopping
  | woken sentinel => exact absurd (by rw [sentinel]; exact List.mem_cons_self) serving.clean
  | waits none =>
      have tasks : (queue.setTask index .waiting).tasks = front ++ [.waiting] := set _
      refine ⟨⟨?_, serving.unstopped, serving.clean, ?_, ?_⟩, ?_⟩
      · rw [tasks]
        exact .last finished
      · rw [tasks, isLast, List.length_append, List.length_singleton]
      · exact busy_last tasks (by decide)
      · rw [work_last tasks, work_last split, progress none]
        simp [InMemoryJobQueue.qsize, InMemoryJobQueue.setTask, ConsumerPhase.weight]
  | @takes jobId rest first =>
      refine ⟨⟨?_, serving.unstopped, ?_, ?_, ?_⟩, ?_⟩
      · rw [set]
        exact .last finished
      · intro sentinel
        exact serving.clean (by rw [first]; exact List.mem_cons_of_mem _ sentinel)
      · rw [set, isLast, List.length_append, List.length_singleton]
      · exact busy_last (set _) (by simp)
      · rw [work_last split, work_last (set (.handling jobId))]
        simp only [InMemoryJobQueue.qsize, first, List.length_cons, ConsumerPhase.weight]
        omega

theorem Serving.index_of_active {other : Nat} {phase : ConsumerPhase} (serving : Serving index queue)
    (found : queue.tasks[other]? = some phase) (live : phase ≠ .done) : other = index := by
  obtain ⟨front, split, rfl, _⟩ := serving.sequential.active found live
  have last := serving.last
  rw [split, List.length_append, List.length_singleton] at last
  omega

theorem Serving.consumer {event : QueueEvent} (serving : Serving index queue)
    (stepped : ConsumerStep queue event next) : Serving index next ∧ next.work < queue.work := by
  obtain ⟨ofConsumer, stepped⟩ := stepped
  have move := stepped.move
  generalize event.action = action at move ofConsumer
  generalize event.outputs = outputs at move
  cases move with
  | enqueued => cases ofConsumer
  | started _ => cases ofConsumer
  | running _ => cases ofConsumer
  | stopped _ => cases ofConsumer
  | stoppedUnstarted _ => cases ofConsumer
  | resumed waits turn =>
      rcases waits with created | ⟨waiting, nonempty, _⟩
      · obtain rfl := serving.index_of_active created (by decide)
        exact serving.turn created (by decide) (fun _ => rfl) turn
      · obtain rfl := serving.index_of_active waiting (by decide)
        exact serving.turn waiting (by decide) (fun none => absurd none nonempty) turn
  | @handled _ jobId _ _ _ handling turn =>
      obtain rfl := serving.index_of_active handling (by simp)
      have served : Serving _ queue.taskDone :=
        ⟨serving.sequential, serving.unstopped, serving.clean, serving.last, serving.alive⟩
      have found : queue.taskDone.tasks[_]? = some (ConsumerPhase.handling jobId) := handling
      exact served.turn found (by simp) (fun _ => rfl) turn

/-- Only `stop` can end the service of a consumer. -/
theorem Serving.step {event : QueueEvent} (serving : Serving index queue)
    (stepped : QueueStep queue event next) (unstopped : event.action ≠ .stop) :
    Serving index next := by
  by_cases ofConsumer : event.action.ofConsumer = true
  · exact (serving.consumer ⟨ofConsumer, stepped⟩).1
  · have move := stepped.move
    generalize event.action = action at move ofConsumer unstopped
    generalize event.outputs = outputs at move
    cases move with
    | enqueued =>
        refine ⟨serving.sequential, serving.unstopped, ?_, serving.last, serving.alive⟩
        simpa [InMemoryJobQueue.put] using serving.clean
    | started idle =>
        rw [serving.alive] at idle
        cases idle
    | running _ => exact serving
    | stopped _ => exact absurd rfl unstopped
    | stoppedUnstarted _ => exact absurd rfl unstopped
    | resumed _ _ => exact absurd rfl ofConsumer
    | handled _ _ => exact absurd rfl ofConsumer

theorem serving_of_creates {taken : Transition InMemoryJobQueue QueueEvent}
    (sequential : Sequential taken.source.tasks)
    (stepped : QueueStep taken.source taken.event taken.target) (creates : Creates taken index)
    (clean : StartsClean taken) : Serving index taken.target := by
  obtain ⟨isStart, before, after⟩ := creates
  have move := stepped.move
  rw [isStart] at move
  generalize taken.event.outputs = outputs at move
  generalize same : taken.target = target at move after ⊢
  cases move with
  | started idle =>
      refine ⟨sequential_of_idle sequential idle, rfl, clean isStart idle, after, ?_⟩
      exact busy_last rfl (by decide)
  | running _ => omega

theorem Serving.not_done (serving : Serving index queue) : queue.tasks[index]? ≠ some .done := by
  intro done
  have alive := serving.alive
  have last := serving.last
  have sequential := serving.sequential
  unfold InMemoryJobQueue.idle at alive
  generalize queue.tasks = tasks at *
  cases sequential with
  | unstarted => cases last
  | @last front phase _ =>
      rw [List.length_append, List.length_singleton, Nat.add_right_cancel_iff] at last
      rw [← last, List.getElem?_concat_length, Option.some_inj] at done
      rw [List.getLast?_concat, done] at alive
      exact absurd alive (by decide)

theorem Serving.empty_of_rests (serving : Serving index queue) (rests : queue.Rests) :
    queue.queue = [] := by
  have found : ∃ phase, queue.tasks[index]? = some phase := by
    have last := serving.last
    exact ⟨_, List.getElem?_eq_getElem (by omega)⟩
  obtain ⟨phase, found⟩ := found
  have resume := rests (.resume index) rfl
  have handled := rests (.handled index (.ok ())) rfl
  unfold InMemoryJobQueue.step? at resume handled
  simp only [found] at resume handled
  cases phase with
  | created => cases resume
  | waiting => simpa using resume
  | handling _ => cases handled
  | done => exact absurd found serving.not_done

theorem Serving.consumers {rest : QueueTrace} {later : InMemoryJobQueue}
    (serving : Serving index queue) (run : Run ConsumerStep queue rest later) :
    Serving index later ∧ rest.length + later.work ≤ queue.work := by
  induction run with
  | nil => exact ⟨serving, by simp⟩
  | snoc _ stepped ih =>
      obtain ⟨served, bound⟩ := ih
      obtain ⟨served, less⟩ := served.consumer stepped
      refine ⟨served, ?_⟩
      rw [List.length_append, List.length_singleton]
      omega

theorem work_le (sequential : Sequential queue.tasks) : queue.work ≤ 2 * queue.qsize + 1 := by
  unfold InMemoryJobQueue.work
  generalize queue.tasks = tasks at sequential ⊢
  cases sequential with
  | unstarted => simp
  | @last _ phase _ => cases phase <;> simp [ConsumerPhase.weight]

theorem enqueued_of_consumers {rest : QueueTrace} {later : InMemoryJobQueue}
    (run : Run ConsumerStep queue rest later) (trace : QueueTrace) :
    QueueTrace.enqueued (trace ++ rest) = trace.enqueued := by
  induction run with
  | nil => rw [List.append_nil]
  | @snoc earlier _ _ event _ stepped ih =>
      have none : event.action.enqueued? = none := by
        obtain ⟨ofConsumer, _⟩ := stepped
        cases action : event.action with
        | enqueue _ => simp [action, QueueAction.ofConsumer] at ofConsumer
        | _ => rfl
      rw [← List.append_assoc, QueueTrace.enqueued_snoc, ih, none]
      simp

/-- Where no consumer was created over a sentinel, a consumer runs until `stop` is called
after the `start` that created it, and handles what is enqueued until then. -/
theorem runs_until_stopped (trace : QueueTrace) (queue : InMemoryJobQueue)
    (run : Run QueueStep .empty trace queue) (clean : ∀ taken ∈ trace, StartsClean taken) :
    RunsUntilStopped trace queue := by
  have serves : ∀ before starting after index, trace = before ++ starting :: after →
      Creates starting index → (∀ taken ∈ after, taken.event.action ≠ .stop) →
      Serving index queue := by
    rintro before starting after index rfl creates unstopped
    obtain ⟨prior, stepped, rest⟩ := run.around
    have first := serving_of_creates (sequential_of_run prior) stepped creates
      (clean starting (by simp))
    exact rest.preserves_along (Serving index) (fun taken => taken.event.action ≠ .stop)
      (fun _ _ _ taken unstopped served => served.step taken unstopped) first unstopped
  constructor
  · intro before starting after index split creates done
    by_contra unstopped
    push Not at unstopped
    exact (serves before starting after index split creates unstopped).not_done done
  · intro before starting after index split creates unstopped rest later consumers
    have serving := serves before starting after index split creates unstopped
    obtain ⟨served, bound⟩ := serving.consumers consumers
    refine ⟨?_, ?_⟩
    · have most := work_le serving.sequential
      omega
    · intro rests
      have whole := run.append (consumers.mono fun _ _ _ stepped => stepped.2)
      have conserved := passed_append_queue whole
      rw [served.empty_of_rests rests, enqueued_of_consumers consumers] at conserved
      simpa using conserved

/-- Stopped while it waits, the consumer takes the sentinel with it. -/
theorem runs_until_stopped_idle :
    let run := InMemoryJobQueue.empty.replay
      [.start, .enqueue 1, .resume 0, .handled 0 (.ok ()), .stop, .resume 0, .start, .enqueue 2,
        .resume 1]
    QueueTrace.passed run.1 = [1, 2] ∧ RunsUntilStopped run.1 run.2 := by
  intro run
  refine ⟨by decide, runs_until_stopped _ _ (InMemoryJobQueue.run_replay _ _) ?_⟩
  decide

/-- Stopped while its handler is at work, the consumer leaves by the flag. The sentinel stays,
and the next consumer leaves at it. -/
theorem not_runsUntilStopped :
    ¬ ∀ trace queue, Run QueueStep .empty trace queue → RunsUntilStopped trace queue := by
  intro always
  let schedule : List QueueAction :=
    [.start, .enqueue 1, .resume 0, .stop, .handled 0 (.ok ()), .start, .resume 1, .enqueue 2]
  let run := InMemoryJobQueue.empty.replay schedule
  have holds := always run.1 run.2 (InMemoryJobQueue.run_replay _ _)
  obtain ⟨taken, member, isStop⟩ :=
    holds.finishes (run.1.take 5) _ (run.1.drop 6) 1 rfl ⟨rfl, rfl, rfl⟩ rfl
  revert taken
  decide

end EvaluationService
