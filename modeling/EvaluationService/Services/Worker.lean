import EvaluationService.Foundation.Run
import EvaluationService.Services.JobService

/-!
The worker loop (`app/services/worker.py`). Like a call of the service, the loop is a
state machine that stops at every `await`; its only other input is the event that `stop`
sets. An exception that `process_claimed` raises leaves the loop.
-/

set_option autoImplicit false

namespace EvaluationService

open Foundation

inductive WorkerPhase where
  | polling
  | recovering (cutoff : DateTime)
  | claiming
  | sleeping
  | processing (task : ServiceState)
  /-- Out of the loop, normally or by an exception. -/
  | left (outcome : Except Exn Unit)

structure WorkerState where
  stopping : Bool
  phase : WorkerPhase

namespace WorkerPhase

def call? : WorkerPhase → Option RepositoryCall
  | recovering cutoff => some (.recoverStaleRunning cutoff)
  | claiming => some .claimNextQueued
  | processing task => task.call?
  | polling | sleeping | left _ => none

def scoring? : WorkerPhase → Option EvaluationRequest
  | processing task => task.scoring?
  | _ => none

def logRecord (level : LogLevel) (message : String) (extra : Fields) : Emission :=
  .log ⟨"app.services.worker", level, message, [], extra⟩

def leave (outcome : Except Exn Unit) : WorkerPhase × List Emission :=
  (left outcome, [logRecord .info "evaluation worker stopped" []])

/-- The loop goes on after a processed job, unless processing it raised. -/
def afterProcess : ServiceState → WorkerPhase × List Emission
  | .finished (.ok ()) => (polling, [])
  | .finished (.error error) => leave (.error error)
  | task => (processing task, [])

def afterRecover : Except Exn Nat → WorkerPhase × List Emission
  | .error error => leave (.error error)
  | .ok 0 => (claiming, [])
  | .ok recovered => (claiming, [.recoveredJobs recovered,
      logRecord .warning "recovered stale running jobs" [("job_count", .number recovered)]])

def afterClaim (now : DateTime) : Except Exn (Option EvaluationJob) → WorkerPhase × List Emission
  | .error error => leave (.error error)
  | .ok none => (sleeping, [])
  | .ok (some job) => (ServiceState.processClaimed now job).map processing id

/-- Run from one `await` to the next; `staleJobSeconds` is in microseconds, as times are. -/
def next (staleJobSeconds : Int) (stopping : Bool) :
    WorkerPhase → Signal → Option (WorkerPhase × List Emission)
  | polling, .resumed now =>
      if stopping then some (leave (.ok ())) else some (recovering (now - staleJobSeconds), [])
  | recovering _, .replied _ (.count outcome) => some (afterRecover outcome)
  | claiming, .replied now (.claim outcome) => some (afterClaim now outcome)
  | sleeping, .resumed _ => some (polling, [])
  | processing task, signal =>
      (task.next signal).map fun after => (afterProcess after.1).map id (after.2 ++ ·)
  | _, _ => none

inductive Move (staleJobSeconds : Int) (stopping : Bool) :
    WorkerPhase → Signal → WorkerPhase × List Emission → Prop where
  | stopped {now : DateTime} : stopping = true →
      Move staleJobSeconds stopping polling (.resumed now) (leave (.ok ()))
  | polled {now : DateTime} : stopping = false →
      Move staleJobSeconds stopping polling (.resumed now) (recovering (now - staleJobSeconds), [])
  | recovered {cutoff now : DateTime} {outcome : Except Exn Nat} :
      Move staleJobSeconds stopping (recovering cutoff) (.replied now (.count outcome))
        (afterRecover outcome)
  | claimed {now : DateTime} {outcome : Except Exn (Option EvaluationJob)} :
      Move staleJobSeconds stopping claiming (.replied now (.claim outcome)) (afterClaim now outcome)
  | slept {now : DateTime} : Move staleJobSeconds stopping sleeping (.resumed now) (polling, [])
  | processed {task : ServiceState} {signal : Signal} {after : ServiceState × List Emission} :
      task.Move signal after →
      Move staleJobSeconds stopping (processing task) signal
        ((afterProcess after.1).map id (after.2 ++ ·))

theorem move_of_next {staleJobSeconds : Int} {stopping : Bool} {phase : WorkerPhase}
    {signal : Signal} {after : WorkerPhase × List Emission}
    (ran : phase.next staleJobSeconds stopping signal = some after) :
    Move staleJobSeconds stopping phase signal after := by
  unfold next at ran
  split at ran
  · split at ran
    · rename_i isStopping
      obtain rfl := Option.some.inj ran
      exact .stopped isStopping
    · rename_i goesOn
      obtain rfl := Option.some.inj ran
      exact .polled (by simpa using goesOn)
  · obtain rfl := Option.some.inj ran
    exact .recovered
  · obtain rfl := Option.some.inj ran
    exact .claimed
  · obtain rfl := Option.some.inj ran
    exact .slept
  · obtain ⟨reached, moved, rfl⟩ := Option.map_eq_some_iff.mp ran
    exact .processed (ServiceState.move_of_next moved)
  · cases ran

end WorkerPhase

namespace WorkerState

def started : WorkerState := ⟨false, .polling⟩

/-- `stop` may come at any time; everything else is up to the loop. -/
def next (staleJobSeconds : Int) (worker : WorkerState) :
    Signal → Option (WorkerState × List Emission)
  | .stop => some ({ worker with stopping := true }, [])
  | signal => (worker.phase.next staleJobSeconds worker.stopping signal).map fun after =>
      ({ worker with phase := after.1 }, after.2)

theorem next_cases {staleJobSeconds : Int} {worker : WorkerState} {signal : Signal}
    {after : WorkerState × List Emission} (ran : worker.next staleJobSeconds signal = some after) :
    after.1 = { worker with stopping := true } ∨
      ∃ moved : WorkerPhase × List Emission, after.1 = { worker with phase := moved.1 } ∧
        worker.phase.Move staleJobSeconds worker.stopping signal moved := by
  unfold next at ran
  split at ran
  · obtain rfl := Option.some.inj ran
    exact .inl rfl
  · obtain ⟨reached, moved, rfl⟩ := Option.map_eq_some_iff.mp ran
    exact .inr ⟨reached, rfl, WorkerPhase.move_of_next moved⟩

end WorkerState

end EvaluationService
