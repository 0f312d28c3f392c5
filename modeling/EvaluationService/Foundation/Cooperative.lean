import Mathlib.Logic.Function.Basic
import Mathlib.Logic.Relation
import EvaluationService.Foundation.Run

/-!
Tasks that share a state and one lock and are scheduled cooperatively. A task runs until one
of its awaits suspends, and taking the lock suspends only if the lock is held or has waiters.
Operations that suspend nowhere else and give the lock back before they return never meet a
held lock: each runs as a whole, whatever the tasks and the order in which they run, and
however often it takes the lock.
-/

set_option autoImplicit false

namespace Foundation.Cooperative

/-- The code of an operation from one point of interest to the next. -/
inductive Coroutine (State Input Reply : Type) where
  | done (reply : Reply)
  | acquire (rest : Coroutine State Input Reply)
  | release (rest : Coroutine State Input Reply)
  /-- Code that reads and writes the state, and what follows what it read. -/
  | access (change : Input → State → State) (rest : Input → State → Coroutine State Input Reply)
  /-- An await of something else, which suspends. -/
  | pause (rest : Coroutine State Input Reply)

structure Completed (Call Reply : Type) where
  call : Call
  reply : Reply

abbrev TaskId : Type := Nat

section

variable (State Input Call Reply : Type)

inductive TaskState where
  /-- Outside the operations, running or suspended there. -/
  | idle
  | active (call : Call) (program : Coroutine State Input Reply)
  /-- Suspended in `acquire`. -/
  | waiting (call : Call) (rest : Coroutine State Input Reply)

structure Configuration where
  shared : State
  locked : Bool
  waiters : List TaskId
  tasks : TaskId → TaskState State Input Call Reply
  running : Option TaskId
  /-- What each task has done, in its own order. -/
  history : TaskId → List (Completed Call Reply)

end

variable {State Input Call Reply : Type}

/-- No task is inside an operation. -/
def Configuration.quiet (shared : State) (running : Option TaskId)
    (history : TaskId → List (Completed Call Reply)) : Configuration State Input Call Reply where
  shared := shared
  locked := false
  waiters := []
  tasks := fun _ => .idle
  running := running
  history := history

def Configuration.initial (start : State) : Configuration State Input Call Reply :=
  .quiet start none fun _ => []

/-- The running task, if any, is not inside an operation. -/
def Configuration.BetweenOperations (config : Configuration State Input Call Reply) : Prop :=
  ∀ task, config.running = some task → config.tasks task = .idle

section

variable (program : Call → Coroutine State Input Reply)

inductive Step :
    Configuration State Input Call Reply → Configuration State Input Call Reply → Prop where
  | schedule {config} {task : TaskId} : config.running = none →
      (∀ call rest, config.tasks task ≠ .waiting call rest) →
      Step config { config with running := some task }
  /-- The lock was released and its first waiter runs again. -/
  | wake {config} {task : TaskId} {others call rest} : config.running = none →
      config.locked = false → config.waiters = task :: others →
      config.tasks task = .waiting call rest →
      Step config { config with
        locked := true
        waiters := others
        tasks := Function.update config.tasks task (.active call rest)
        running := some task }
  /-- An await of the task's own code suspends. -/
  | yield {config} {task : TaskId} : config.running = some task → config.tasks task = .idle →
      Step config { config with running := none }
  | call {config} {task : TaskId} (call) : config.running = some task →
      config.tasks task = .idle →
      Step config { config with
        tasks := Function.update config.tasks task (.active call (program call)) }
  | acquire {config} {task : TaskId} {call rest} : config.running = some task →
      config.tasks task = .active call (.acquire rest) →
      config.locked = false → config.waiters = [] →
      Step config { config with
        locked := true
        tasks := Function.update config.tasks task (.active call rest) }
  | wait {config} {task : TaskId} {call rest} : config.running = some task →
      config.tasks task = .active call (.acquire rest) →
      config.locked = true ∨ config.waiters ≠ [] →
      Step config { config with
        waiters := config.waiters ++ [task]
        tasks := Function.update config.tasks task (.waiting call rest)
        running := none }
  | release {config} {task : TaskId} {call rest} : config.running = some task →
      config.tasks task = .active call (.release rest) →
      Step config { config with
        locked := false
        tasks := Function.update config.tasks task (.active call rest) }
  | access {config} {task : TaskId} {call change rest} (input) : config.running = some task →
      config.tasks task = .active call (.access change rest) →
      Step config { config with
        shared := change input config.shared
        tasks := Function.update config.tasks task (.active call (rest input config.shared)) }
  | pause {config} {task : TaskId} {call rest} : config.running = some task →
      config.tasks task = .active call (.pause rest) →
      Step config { config with
        tasks := Function.update config.tasks task (.active call rest)
        running := none }
  | finish {config} {task : TaskId} {call reply} : config.running = some task →
      config.tasks task = .active call (.done reply) →
      Step config { config with
        tasks := Function.update config.tasks task .idle
        history := Function.update config.history task
          (config.history task ++ [⟨call, reply⟩]) }

/-- The configurations that tasks reach from a state. -/
def Reachable (start : State) : Configuration State Input Call Reply → Prop :=
  Relation.ReflTransGen (Step program) (.initial start)

end

/-! ## One operation at a time -/

/-- A program from its start to its end with no other task between. -/
inductive Runs : Coroutine State Input Reply → State → Reply → State → Prop where
  | done {reply state} : Runs (.done reply) state reply state
  | acquire {rest state reply final} : Runs rest state reply final →
      Runs (.acquire rest) state reply final
  | release {rest state reply final} : Runs rest state reply final →
      Runs (.release rest) state reply final
  | access {change rest state reply final} (input) :
      Runs (rest input state) (change input state) reply final →
      Runs (.access change rest) state reply final
  | pause {rest state reply final} : Runs rest state reply final →
      Runs (.pause rest) state reply final

/-- The result of a program that receives one input throughout. -/
def Coroutine.run (input : Input) : Coroutine State Input Reply → State → Reply × State
  | done reply, state => (reply, state)
  | acquire rest, state | release rest, state | pause rest, state => rest.run input state
  | access change rest, state => (rest input state).run input (change input state)

/-- A program alone always returns. -/
theorem Coroutine.runs_run (input : Input) (program : Coroutine State Input Reply) (state : State) :
    Runs program state (program.run input state).1 (program.run input state).2 := by
  induction program generalizing state with
  | done reply => exact .done
  | acquire rest ih => exact .acquire (ih state)
  | release rest ih => exact .release (ih state)
  | access change rest ih => exact .access input (ih input state (change input state))
  | pause rest ih => exact .pause (ih state)

/-- A whole operation of a task. -/
def Atomically (program : Call → Coroutine State Input Reply) (state : State)
    (event : TaskId × Completed Call Reply) (next : State) : Prop :=
  Runs (program event.2.call) state event.2.reply next

abbrev Order (State Call Reply : Type) : Type :=
  List (Transition State (TaskId × Completed Call Reply))

/-- What a task did in an order of operations. -/
def ownOperations (order : Order State Call Reply) (task : TaskId) : List (Completed Call Reply) :=
  (order.filter fun taken => taken.event.1 = task).map (·.event.2)

/-! ## Programs that never suspend -/

/-- From here the program suspends in no await but the lock's, takes the lock when it does not
hold it and returns without it. -/
inductive Prompt : Bool → Coroutine State Input Reply → Prop where
  | done {reply} : Prompt false (.done reply)
  | acquire {rest} : Prompt true rest → Prompt false (.acquire rest)
  | release {rest} : Prompt false rest → Prompt true (.release rest)
  | access {held change rest} : (∀ input state, Prompt held (rest input state)) →
      Prompt held (.access change rest)

section

variable {held : Bool} {rest : Coroutine State Input Reply}

theorem Prompt.of_done {reply : Reply}
    (prompt : Prompt held (.done reply : Coroutine State Input Reply)) : held = false := by
  cases prompt
  rfl

theorem Prompt.of_acquire (prompt : Prompt held (.acquire rest)) :
    held = false ∧ Prompt true rest := by
  cases prompt with
  | acquire inner => exact ⟨rfl, inner⟩

theorem Prompt.of_release (prompt : Prompt held (.release rest)) : Prompt false rest := by
  cases prompt with
  | release outer => exact outer

theorem Prompt.of_access {change : Input → State → State}
    {rest : Input → State → Coroutine State Input Reply}
    (prompt : Prompt held (.access change rest)) (input : Input) (state : State) :
    Prompt held (rest input state) := by
  cases prompt with
  | access each => exact each input state

theorem not_prompt_pause : ¬ Prompt held (.pause rest) := by
  intro prompt
  cases prompt

end

/-- No task is inside an operation but the running one, which has only begun it. -/
inductive Inside (program : Call → Coroutine State Input Reply) (before : State)
    (config : Configuration State Input Call Reply) : Prop where
  | outside : (∀ task, config.tasks task = .idle) → config.locked = false →
      config.shared = before → Inside program before config
  | within {task call rest} : config.running = some task →
      config.tasks task = .active call rest →
      (∀ other, other ≠ task → config.tasks other = .idle) →
      Prompt config.locked rest →
      (∀ reply final, Runs rest config.shared reply final →
        Runs (program call) before reply final) →
      Inside program before config

/-- The operations that were completed, one at a time, lead to where the running one began. -/
structure Serial (program : Call → Coroutine State Input Reply) (start : State)
    (config : Configuration State Input Call Reply) (order : Order State Call Reply)
    (before : State) : Prop where
  run : Run (Atomically program) start order before
  own : ∀ task, ownOperations order task = config.history task
  unawaited : config.waiters = []
  inside : Inside program before config

section

variable {program : Call → Coroutine State Input Reply} {start before : State}
variable {config : Configuration State Input Call Reply} {order : Order State Call Reply}
variable {task : TaskId} {call : Call} {rest : Coroutine State Input Reply}

theorem Inside.of_idle (inside : Inside program before config)
    (isRunning : config.running = some task) (isIdle : config.tasks task = .idle) :
    (∀ other, config.tasks other = .idle) ∧ config.locked = false ∧ config.shared = before := by
  cases inside with
  | outside allIdle free same => exact ⟨allIdle, free, same⟩
  | within othersRunning isActive _ _ _ =>
      rw [isRunning, Option.some_inj] at othersRunning
      rw [← othersRunning, isIdle] at isActive
      cases isActive

theorem Inside.of_active (inside : Inside program before config)
    (isRunning : config.running = some task) (isActive : config.tasks task = .active call rest) :
    (∀ other, other ≠ task → config.tasks other = .idle) ∧ Prompt config.locked rest ∧
      ∀ reply final, Runs rest config.shared reply final →
        Runs (program call) before reply final := by
  cases inside with
  | outside allIdle _ _ =>
      rw [allIdle task] at isActive
      cases isActive
  | within othersRunning othersActive othersIdle prompt continues =>
      rw [isRunning, Option.some_inj] at othersRunning
      subst othersRunning
      rw [isActive] at othersActive
      cases othersActive
      exact ⟨othersIdle, prompt, continues⟩

theorem Inside.of_suspended (inside : Inside program before config)
    (suspended : config.running = none) :
    (∀ other, config.tasks other = .idle) ∧ config.locked = false ∧ config.shared = before := by
  cases inside with
  | outside allIdle free same => exact ⟨allIdle, free, same⟩
  | within isRunning _ _ _ _ =>
      rw [suspended] at isRunning
      cases isRunning

theorem ownOperations_concat (order : Order State Call Reply)
    (taken : Transition State (TaskId × Completed Call Reply)) :
    ownOperations (order ++ [taken]) =
      Function.update (ownOperations order) taken.event.1
        (ownOperations order taken.event.1 ++ [taken.event.2]) := by
  funext task
  rw [ownOperations, List.filter_append, List.map_append]
  rcases eq_or_ne task taken.event.1 with rfl | other
  · rw [Function.update_self, List.filter_cons_of_pos (by simp)]
    rfl
  · rw [Function.update_of_ne other, List.filter_cons_of_neg (by simpa using Ne.symm other)]
    exact List.append_nil _

/-- The running task begins an operation or goes on inside it. -/
theorem Inside.update {next : Configuration State Input Call Reply}
    (isRunning : next.running = some task)
    (tasks : next.tasks = Function.update config.tasks task (.active call rest))
    (othersIdle : ∀ other, other ≠ task → config.tasks other = .idle)
    (prompt : Prompt next.locked rest)
    (continues : ∀ reply final, Runs rest next.shared reply final →
      Runs (program call) before reply final) : Inside program before next := by
  have isActive : next.tasks task = .active call rest := by
    rw [tasks, Function.update_self]
  refine .within isRunning isActive ?_ prompt continues
  intro other different
  rw [tasks, Function.update_of_ne different]
  exact othersIdle other different

theorem Inside.onward {next : Configuration State Input Call Reply}
    {after : Coroutine State Input Reply} (inside : Inside program before config)
    (isRunning : config.running = some task) (isActive : config.tasks task = .active call rest)
    (stillRunning : next.running = some task)
    (tasks : next.tasks = Function.update config.tasks task (.active call after))
    (prompt : Prompt config.locked rest → Prompt next.locked after)
    (goesOn : ∀ reply final, Runs after next.shared reply final →
      Runs rest config.shared reply final) : Inside program before next := by
  obtain ⟨othersIdle, isPrompt, continues⟩ := inside.of_active isRunning isActive
  exact .update stillRunning tasks othersIdle (prompt isPrompt)
    fun reply final runs => continues reply final (goesOn reply final runs)

theorem Serial.step {next : Configuration State Input Call Reply}
    (prompt : ∀ call, Prompt false (program call))
    (serial : Serial program start config order before) (taken : Step program config next) :
    ∃ order before, Serial program start next order before := by
  obtain ⟨run, own, unawaited, inside⟩ := serial
  cases taken with
  | schedule suspended _ =>
      obtain ⟨allIdle, free, same⟩ := inside.of_suspended suspended
      exact ⟨order, before, run, own, unawaited, .outside allIdle free same⟩
  | wake _ _ waits _ =>
      rw [unawaited] at waits
      cases waits
  | yield isRunning isIdle =>
      obtain ⟨allIdle, free, same⟩ := inside.of_idle isRunning isIdle
      exact ⟨order, before, run, own, unawaited, .outside allIdle free same⟩
  | call call isRunning isIdle =>
      obtain ⟨allIdle, free, same⟩ := inside.of_idle isRunning isIdle
      refine ⟨order, before, run, own, unawaited, .update isRunning rfl (fun other _ => allIdle other)
        ?_ ?_⟩
      · rw [free]
        exact prompt call
      · intro reply final runs
        rw [← same]
        exact runs
  | acquire isRunning isActive _ _ =>
      exact ⟨order, before, run, own, unawaited, inside.onward isRunning isActive isRunning rfl
        (fun prompt => prompt.of_acquire.2) fun _ _ runs => .acquire runs⟩
  | wait isRunning isActive busy =>
      -- a prompt operation asks for the lock only when it is free
      obtain ⟨_, prompt, _⟩ := inside.of_active isRunning isActive
      rcases busy with held | waits
      · rw [prompt.of_acquire.1] at held
        cases held
      · exact absurd unawaited waits
  | release isRunning isActive =>
      exact ⟨order, before, run, own, unawaited, inside.onward isRunning isActive isRunning rfl
        (fun prompt => prompt.of_release) fun _ _ runs => .release runs⟩
  | access input isRunning isActive =>
      exact ⟨order, before, run, own, unawaited, inside.onward isRunning isActive isRunning rfl
        (fun prompt => prompt.of_access input config.shared) fun _ _ runs => .access input runs⟩
  | pause isRunning isActive =>
      obtain ⟨_, prompt, _⟩ := inside.of_active isRunning isActive
      exact absurd prompt not_prompt_pause
  | @finish task call reply isRunning isActive =>
      obtain ⟨othersIdle, prompt, continues⟩ := inside.of_active isRunning isActive
      have whole : Atomically program before (task, ⟨call, reply⟩) config.shared :=
        continues reply config.shared .done
      refine ⟨_, config.shared, .snoc run whole, ?_, unawaited,
        .outside ?_ prompt.of_done rfl⟩
      · intro other
        rw [ownOperations_concat, funext own]
      · intro other
        rcases eq_or_ne other task with rfl | different
        · exact Function.update_self _ _ _
        · exact (Function.update_of_ne different _ _).trans (othersIdle other different)

/-- Whatever the tasks do, their operations are serial in the order of their completion. -/
theorem Reachable.serial (prompt : ∀ call, Prompt false (program call))
    (reached : Reachable program start config) :
    ∃ order before, Serial program start config order before := by
  induction reached with
  | refl => exact ⟨[], start, .nil, fun _ => rfl, rfl, .outside (fun _ => rfl) rfl rfl⟩
  | tail _ taken ih =>
      obtain ⟨order, before, serial⟩ := ih
      exact serial.step prompt taken

/-- A task that runs alone takes its operation to the end. -/
theorem Runs.reaches {reply : Reply} {state final : State} (runs : Runs rest state reply final) :
    ∀ config : Configuration State Input Call Reply, Prompt config.locked rest →
      config.shared = state → config.waiters = [] → config.running = some task →
      config.tasks task = .active call rest →
      Relation.ReflTransGen (Step program) config
        { config with
          shared := final
          locked := false
          tasks := Function.update config.tasks task .idle
          history := Function.update config.history task
            (config.history task ++ [⟨call, reply⟩]) } := by
  induction runs with
  | done =>
      rintro ⟨shared, locked, waiters, tasks, running, history⟩ prompt rfl _ isRunning isActive
      cases prompt
      exact .single (.finish isRunning isActive)
  | @acquire rest _ _ _ _ ih =>
      rintro ⟨shared, locked, waiters, tasks, running, history⟩ prompt rfl none isRunning isActive
      cases prompt with
      | acquire inner =>
          let inside := Function.update tasks task (.active call rest)
          have onward := ih ⟨shared, true, waiters, inside, running, history⟩ inner rfl none isRunning
            (Function.update_self task _ tasks)
          simp only [inside, Function.update_idem] at onward
          exact .head (.acquire isRunning isActive rfl none) onward
  | @release rest _ _ _ _ ih =>
      rintro ⟨shared, locked, waiters, tasks, running, history⟩ prompt rfl none isRunning isActive
      cases prompt with
      | release outer =>
          let outside := Function.update tasks task (.active call rest)
          have onward := ih ⟨shared, false, waiters, outside, running, history⟩ outer rfl none
            isRunning (Function.update_self task _ tasks)
          simp only [outside, Function.update_idem] at onward
          exact .head (.release isRunning isActive) onward
  | @access change rest state reply final input _ ih =>
      rintro ⟨shared, locked, waiters, tasks, running, history⟩ prompt rfl none isRunning isActive
      cases prompt with
      | access each =>
          let read := Function.update tasks task (.active call (rest input shared))
          have onward := ih ⟨change input shared, locked, waiters, read, running, history⟩
            (each input shared) rfl none isRunning (Function.update_self task _ tasks)
          simp only [read, Function.update_idem] at onward
          exact .head (.access input isRunning isActive) onward
  | pause _ _ =>
      rintro ⟨shared, locked, waiters, tasks, running, history⟩ prompt
      cases prompt

theorem Serial.shared_eq (serial : Serial program start config order before)
    (between : config.BetweenOperations) : config.shared = before := by
  cases running : config.running with
  | none => exact (serial.inside.of_suspended running).2.2
  | some task => exact (serial.inside.of_idle running (between task running)).2.2

theorem Serial.idle_of_suspended (serial : Serial program start config order before)
    (suspended : config.running ≠ some task) : config.tasks task = .idle := by
  cases serial.inside with
  | outside allIdle _ _ => exact allIdle task
  | within isRunning _ othersIdle _ _ =>
      refine othersIdle task fun same => suspended ?_
      rw [same]
      exact isRunning

/-- Every order of whole operations is an execution. -/
theorem reachable_of_run {final : State} (prompt : ∀ call, Prompt false (program call))
    (run : Run (Atomically program) start order final) :
    Reachable program start (.quiet final none (ownOperations order)) := by
  induction run with
  | nil => exact .refl
  | @snoc earlier state next event _ taken ih =>
      obtain ⟨task, operation⟩ := event
      let begun := Function.update (fun _ => TaskState.idle) task
        (.active operation.call (program operation.call))
      have called : Relation.ReflTransGen (Step program) (.quiet state none (ownOperations earlier))
          ⟨state, false, [], begun, some task, ownOperations earlier⟩ :=
        (Relation.ReflTransGen.single (.schedule rfl fun _ _ waits => nomatch waits)).tail
          (.call operation.call rfl rfl)
      have isActive : begun task = .active operation.call (program operation.call) :=
        Function.update_self task _ _
      have finished : Relation.ReflTransGen (Step program) _ _ :=
        Runs.reaches taken ⟨state, false, [], begun, some task, ownOperations earlier⟩
          (prompt operation.call) rfl rfl rfl isActive
      have allIdle : Function.update begun task .idle = fun _ => TaskState.idle := by
        simp only [begun, Function.update_idem]
        exact Function.update_eq_self task _
      rw [allIdle] at finished
      rw [ownOperations_concat]
      exact ((ih.trans called).trans finished).tail (.yield rfl rfl)

end

end Foundation.Cooperative
