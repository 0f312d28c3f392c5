import EvaluationService.Foundation.Pool
import EvaluationService.Services.Worker
import EvaluationService.Storage.History

/-!
The service as a whole: clients submit jobs, calls of `process` and worker loops run
concurrently over one repository, and every repository call is one atomic step. The
evaluator is a parameter, and it may take arbitrarily long.
-/

set_option autoImplicit false

namespace EvaluationService

open Foundation

/-- A call of `submit`: the request it was given, the identifier drawn for the job, and
the clock readings of the job's timestamps and of the call. -/
structure Submission where
  request : EvaluationRequest
  jobId : UUID
  createdAt : DateTime
  updatedAt : DateTime
  now : DateTime

def Submission.job (submission : Submission) : EvaluationJob :=
  submittedJob submission.jobId submission.createdAt submission.updatedAt submission.request

/-- What the threads share, and what has been submitted and emitted so far. -/
structure World (repository : JobRepository) where
  store : repository.State
  submissions : List Submission
  telemetry : List Emission

inductive Thread where
  | service (state : ServiceState)
  | worker (state : WorkerState)

namespace Thread

def call? : Thread → Option RepositoryCall
  | service state => state.call?
  | worker state => state.phase.call?

def scoring? : Thread → Option EvaluationRequest
  | service state => state.scoring?
  | worker state => state.phase.scoring?

def next (staleJobSeconds : Int) : Thread → Signal → Option (Thread × List Emission)
  | service state, signal => (state.next signal).map (·.map service id)
  | worker state, signal => (state.next staleJobSeconds signal).map (·.map worker id)

/-- The steps of a thread: those of a call of the service, those of a loop, and `stop`. -/
inductive Move (staleJobSeconds : Int) : Thread → Signal → Thread × List Emission → Prop where
  | service {state : ServiceState} {signal : Signal} {after : ServiceState × List Emission} :
      state.Move signal after → Move staleJobSeconds (service state) signal (service after.1, after.2)
  | loop {stopping : Bool} {phase : WorkerPhase} {signal : Signal}
      {after : WorkerPhase × List Emission} :
      phase.Move staleJobSeconds stopping signal after →
      Move staleJobSeconds (worker ⟨stopping, phase⟩) signal (worker ⟨stopping, after.1⟩, after.2)
  | stop {stopping : Bool} {phase : WorkerPhase} :
      Move staleJobSeconds (worker ⟨stopping, phase⟩) .stop (worker ⟨true, phase⟩, [])

theorem move_of_next {staleJobSeconds : Int} {thread : Thread} {signal : Signal}
    {after : Thread × List Emission} (ran : thread.next staleJobSeconds signal = some after) :
    Move staleJobSeconds thread signal after := by
  cases thread with
  | service state =>
      obtain ⟨reached, moved, rfl⟩ := Option.map_eq_some_iff.mp ran
      exact .service (ServiceState.move_of_next moved)
  | worker state =>
      obtain ⟨reached, moved, rfl⟩ := Option.map_eq_some_iff.mp ran
      unfold WorkerState.next at moved
      split at moved
      · obtain rfl := Option.some.inj moved
        exact .stop
      · obtain ⟨target, advanced, rfl⟩ := Option.map_eq_some_iff.mp moved
        exact .loop (WorkerPhase.move_of_next advanced)

end Thread

section System

variable (repository : JobRepository) (evaluator : EvaluatorBehavior) (staleJobSeconds : Int)

/-- `submit` up to its end. Its `create` is the only part that others can see, so it is
one step; the drawn identifier is in use nowhere. -/
def World.Submits (world : World repository) (submission : Submission) (next : World repository) :
    Prop :=
  repository.job? world.store submission.jobId = none ∧ ∃ outcome,
    repository.Step world.store ⟨submission.now, .create submission.job, .job outcome⟩ next.store ∧
    next.submissions = world.submissions ++ [submission] ∧
    next.telemetry = world.telemetry ++ (afterCreate submission.now submission.job outcome).2

def World.Starts (world next : World repository) (thread : Thread) : Prop :=
  (∃ jobId, thread = .service (.loading jobId) ∧ next = world) ∨
    (thread = .worker .started ∧ next = { world with
      telemetry := world.telemetry ++ [WorkerPhase.logRecord .info "evaluation worker started" []] })

/-- A thread hears what it waited for and runs to its next `await`. -/
def World.Acts (world : World repository) (thread : Thread) (signal : Signal)
    (next : World repository) (following : Thread) : Prop :=
  ∃ after, thread.next staleJobSeconds signal = some after ∧ following = after.1 ∧
    Heard repository evaluator thread.call? thread.scoring? world.store signal next.store ∧
    next.submissions = world.submissions ∧ next.telemetry = world.telemetry ++ after.2

def system : Program (World repository) Thread Submission Signal where
  arrives := World.Submits repository
  starts := World.Starts repository
  acts := World.Acts repository evaluator staleJobSeconds

abbrev SystemEvent : Type := PoolEvent Submission Signal

abbrev SystemTrace : Type := List (Transition (Pool (World repository) Thread) SystemEvent)

def World.initial : World repository := ⟨repository.empty, [], []⟩

def SystemReaches (trace : SystemTrace repository) (pool : Pool (World repository) Thread) : Prop :=
  Run (system repository evaluator staleJobSeconds).Step (.idle (.initial repository)) trace pool

end System

/-! ## Executing a schedule -/

inductive Cue where
  | reply (now : DateTime)
  | score
  | resume (now : DateTime)
  | stop

inductive Turn where
  | submit (submission : Submission)
  | process (index : Nat) (jobId : UUID)
  | work (index : Nat)
  | act (index : Nat) (cue : Cue)

section Execution

variable (repository : JobRepository) (score : EvaluationRequest → Except Exn EvaluationResult)
variable (staleJobSeconds : Int)

def Cue.signal? (store : repository.State) (call? : Option RepositoryCall)
    (request? : Option EvaluationRequest) : Cue → Option (Signal × repository.State)
  | .reply now => call?.map fun call => (repository.perform store now call).map (.replied now) id
  | .score => request?.map fun request => (.scored (score request), store)
  | .resume now => some (.resumed now, store)
  | .stop => some (.stop, store)

def Thread.turn? (world : World repository) (thread : Thread) (cue : Cue) :
    Option (Signal × World repository × Thread) := do
  let (signal, store) ← cue.signal? repository score world.store thread.call? thread.scoring?
  let after ← thread.next staleJobSeconds signal
  return (signal, ⟨store, world.submissions, world.telemetry ++ after.2⟩, after.1)

def World.submit? (world : World repository) (submission : Submission) : Option (World repository) :=
  let (outcome, store) := repository.create world.store submission.job
  if repository.job? world.store submission.jobId = none then
    some ⟨store, world.submissions ++ [submission],
      world.telemetry ++ (afterCreate submission.now submission.job outcome).2⟩
  else none

/-- One turn of a schedule; `none` where the thread it picks does not wait for the cue. -/
def turn? (pool : Pool (World repository) Thread) :
    Turn → Option (SystemEvent × Pool (World repository) Thread)
  | .submit submission => (pool.store.submit? repository submission).map fun world =>
      (.arrive submission, ⟨world, pool.threads⟩)
  | .process index jobId =>
      if (pool.threads index).isNone then
        some (.start index, ⟨pool.store,
          Function.update pool.threads index (some (.service (.loading jobId)))⟩)
      else none
  | .work index =>
      if (pool.threads index).isNone then
        some (.start index, ⟨{ pool.store with
            telemetry := pool.store.telemetry ++ [WorkerPhase.logRecord .info "evaluation worker started" []] },
          Function.update pool.threads index (some (.worker .started))⟩)
      else none
  | .act index cue =>
      match pool.threads index with
      | none => none
      | some thread =>
          (thread.turn? repository score staleJobSeconds pool.store cue).map
            fun (signal, world, following) => (.act index signal,
              ⟨world, Function.update pool.threads index (some following)⟩)

def execute (pool : Pool (World repository) Thread) :
    List Turn → SystemTrace repository × Pool (World repository) Thread
  | [] => ([], pool)
  | turn :: rest =>
      match turn? repository score staleJobSeconds pool turn with
      | none => ([], pool)
      | some (event, next) =>
          let (trace, final) := execute next rest
          (⟨pool, event, next⟩ :: trace, final)

end Execution

section Execution

variable {repository : JobRepository} {score : EvaluationRequest → Except Exn EvaluationResult}
variable {staleJobSeconds : Int} {evaluator : EvaluatorBehavior}

theorem Cue.heard_of_signal? (admits : ∀ request, evaluator request (score request)) {cue : Cue}
    {store next : repository.State} {call? : Option RepositoryCall}
    {request? : Option EvaluationRequest} {signal : Signal}
    (cued : cue.signal? repository score store call? request? = some (signal, next)) :
    Heard repository evaluator call? request? store signal next := by
  cases cue with
  | reply now =>
      obtain ⟨call, waits, performed⟩ := Option.map_eq_some_iff.mp cued
      cases performed
      exact ⟨call, waits, store, repository.arranges_refl store, rfl⟩
  | score =>
      obtain ⟨request, waits, performed⟩ := Option.map_eq_some_iff.mp cued
      cases performed
      exact ⟨rfl, request, waits, admits request⟩
  | resume now =>
      cases cued
      rfl
  | stop =>
      cases cued
      rfl

theorem Thread.acts_of_turn? (admits : ∀ request, evaluator request (score request))
    {world next : World repository} {thread following : Thread} {cue : Cue} {signal : Signal}
    (taken : thread.turn? repository score staleJobSeconds world cue = some (signal, next, following)) :
    World.Acts repository evaluator staleJobSeconds world thread signal next following := by
  unfold Thread.turn? at taken
  obtain ⟨⟨heardSignal, store⟩, cued, rest⟩ := Option.bind_eq_some_iff.mp taken
  obtain ⟨after, ran, result⟩ := Option.bind_eq_some_iff.mp rest
  cases result
  exact ⟨after, ran, rfl, Cue.heard_of_signal? admits cued, rfl, rfl⟩

theorem step_of_turn? (admits : ∀ request, evaluator request (score request))
    {pool next : Pool (World repository) Thread} {turn : Turn} {event : SystemEvent}
    (taken : turn? repository score staleJobSeconds pool turn = some (event, next)) :
    (system repository evaluator staleJobSeconds).Step pool event next := by
  cases turn with
  | submit submission =>
      obtain ⟨world, submitted, same⟩ := Option.map_eq_some_iff.mp taken
      cases same
      unfold World.submit? at submitted
      dsimp only at submitted
      split at submitted
      · rename_i fresh
        cases submitted
        exact .arrive ⟨fresh, _, ⟨_, repository.arranges_refl _, rfl⟩, rfl, rfl⟩
      · cases submitted
  | process index jobId =>
      dsimp only [turn?] at taken
      split at taken
      · rename_i free
        cases taken
        exact .start (Option.isNone_iff_eq_none.mp free) (.inl ⟨jobId, rfl, rfl⟩)
      · cases taken
  | work index =>
      dsimp only [turn?] at taken
      split at taken
      · rename_i free
        cases taken
        exact .start (Option.isNone_iff_eq_none.mp free) (.inr ⟨rfl, rfl⟩)
      · cases taken
  | act index cue =>
      dsimp only [turn?] at taken
      split at taken
      · cases taken
      · rename_i thread found
        obtain ⟨⟨signal, world, following⟩, acted, same⟩ := Option.map_eq_some_iff.mp taken
        cases same
        exact .act found (Thread.acts_of_turn? admits acted)

theorem run_execute (score : EvaluationRequest → Except Exn EvaluationResult)
    (admits : ∀ request, evaluator request (score request))
    (pool : Pool (World repository) Thread) (turns : List Turn) :
    Run (system repository evaluator staleJobSeconds).Step pool
      (execute repository score staleJobSeconds pool turns).1
      (execute repository score staleJobSeconds pool turns).2 := by
  induction turns generalizing pool with
  | nil => exact .nil
  | cons turn rest ih =>
      unfold execute
      cases taken : turn? repository score staleJobSeconds pool turn with
      | none => exact .nil
      | some after => exact (Run.single (step_of_turn? admits taken)).append (ih after.2)

end Execution

end EvaluationService
