import EvaluationService.Services.Faults
import EvaluationService.Services.WorkerProperties

/-!
Stopping a worker (`EvaluationWorker.stop`, awaited by `run_worker` before it closes the
repository). The loop looks at the event between two jobs only: it still ends the round that
it is in, claims once more if it had not claimed yet, and leaves no job unfinished that it was
ever handed. The same holds of a loop that an exception ends, but for a job whose failure
could not be stored.
-/

set_option autoImplicit false

namespace EvaluationService

open Foundation

variable {repository : JobRepository} {release : Option DateTime → Option DateTime}
variable {evaluator : EvaluatorBehavior} {staleJobSeconds : Int} {index : Nat}

/-! ## The rest of a round -/

namespace WorkerPhase

/-- How many more steps a stopped worker can take. -/
def toLeave : WorkerPhase → Nat
  | left _ => 0
  | polling => 1
  | sleeping => 2
  | processing task => task.remaining + 1
  | claiming => 5
  | recovering _ => 6

/-- How many more jobs it can ask for. -/
def toClaim : WorkerPhase → Nat
  | recovering _ | claiming => 1
  | polling | sleeping | processing _ | left _ => 0

theorem toLeave_afterProcess (task : ServiceState) :
    (afterProcess task).1.toLeave ≤ task.remaining + 1 ∧ (afterProcess task).1.toClaim = 0 := by
  unfold afterProcess
  split <;> simp [toLeave, toClaim, leave]

theorem Move.toLeave_lt {phase : WorkerPhase} {signal : Signal} {after : WorkerPhase × List Emission}
    (move : Move staleJobSeconds true phase signal after) : after.1.toLeave < phase.toLeave := by
  cases move with
  | stopped _ => exact Nat.zero_lt_one
  | polled goesOn => cases goesOn
  | @recovered _ _ outcome =>
      rcases outcome with error | _ | _ <;> simp [afterRecover, toLeave, leave]
  | @claimed _ outcome =>
      rcases outcome with error | _ | job <;>
        simp [afterClaim, toLeave, leave, ServiceState.processClaimed, ServiceState.remaining]
  | slept => exact Nat.lt_succ_self 1
  | @processed task _ after moved =>
      have lower := moved.remaining_lt
      have ended := (toLeave_afterProcess after.1).1
      change (afterProcess after.1).1.toLeave < task.remaining + 1
      omega

/-- A step asks for a job at most if one may still be asked for. -/
theorem Move.toClaim_le {phase : WorkerPhase} {signal : Signal}
    {after : WorkerPhase × List Emission} (move : Move staleJobSeconds true phase signal after) :
    after.1.toClaim ≤ phase.toClaim ∧
      ((∃ now outcome, signal = .replied now (.claim outcome)) →
        after.1.toClaim + 1 ≤ phase.toClaim) := by
  cases move with
  | stopped _ => exact ⟨Nat.le_refl 0, by rintro ⟨_, _, ⟨⟩⟩⟩
  | polled goesOn => cases goesOn
  | @recovered _ _ outcome =>
      refine ⟨?_, by rintro ⟨_, _, ⟨⟩⟩⟩
      rcases outcome with error | _ | _ <;> simp [afterRecover, toClaim, leave]
  | @claimed now outcome =>
      have none : (afterClaim now outcome).1.toClaim = 0 := by
        rcases outcome with error | _ | job <;> rfl
      rw [none]
      exact ⟨Nat.zero_le _, fun _ => Nat.le_refl _⟩
  | slept => exact ⟨Nat.le_refl 0, by rintro ⟨_, _, ⟨⟩⟩⟩
  | @processed task _ after moved =>
      refine ⟨(toLeave_afterProcess after.1).2.le, ?_⟩
      rintro ⟨now, outcome, rfl⟩
      cases moved

end WorkerPhase

/-- A step of the worker's own, other than hearing of `stop` again. -/
def ownStep (index : Nat) : SystemEvent → Bool
  | .act _ .stop => false
  | .act other _ => other == index
  | .arrive _ | .start _ => false

/-- The worker asked for a job and heard the answer. -/
def asksForJob (index : Nat) : SystemEvent → Bool
  | .act other (.replied _ (.claim _)) => other == index
  | _ => false

theorem eq_of_asksForJob {event : SystemEvent} (asks : asksForJob index event = true) :
    ∃ now outcome, event = .act index (.replied now (.claim outcome)) := by
  unfold asksForJob at asks
  split at asks
  · rename_i other now outcome
    exact ⟨now, outcome, by rw [beq_iff_eq.mp asks]⟩
  · cases asks

theorem eq_of_ownStep {event : SystemEvent} (own : ownStep index event = true) :
    ∃ signal, signal ≠ .stop ∧ event = .act index signal := by
  unfold ownStep at own
  split at own
  · cases own
  · rename_i other signal notStop
    exact ⟨signal, notStop, by rw [beq_iff_eq.mp own]⟩
  · cases own
  · cases own

/-- One step uses up its part of what is left of the round. -/
theorem stopped_step {pool next : Pool (World repository) Thread} {event : SystemEvent}
    {phase : WorkerPhase}
    (stepped : (unreliableSystem repository evaluator staleJobSeconds).Step pool event next)
    (found : pool.threads index = some (.worker ⟨true, phase⟩)) :
    ∃ following, next.threads index = some (.worker ⟨true, following⟩) ∧
      (if ownStep index event then 1 else 0) + following.toLeave ≤ phase.toLeave ∧
      (if asksForJob index event then 1 else 0) + following.toClaim ≤ phase.toClaim := by
  have silent (idle : ∀ signal, event ≠ .act index signal) :
      ownStep index event = false ∧ asksForJob index event = false := by
    constructor
    · rw [Bool.eq_false_iff]
      intro own
      obtain ⟨signal, -, same⟩ := eq_of_ownStep own
      exact idle signal same
    · rw [Bool.eq_false_iff]
      intro asks
      obtain ⟨now, outcome, same⟩ := eq_of_asksForJob asks
      exact idle _ same
  cases stepped with
  | arrive _ =>
      obtain ⟨quiet, asksNot⟩ := silent (by rintro _ ⟨⟩)
      rw [quiet, asksNot]
      exact ⟨phase, found, by simp, by simp⟩
  | @start other store thread free _ =>
      obtain ⟨quiet, asksNot⟩ := silent (by rintro _ ⟨⟩)
      have different : index ≠ other := by
        rintro rfl
        rw [found] at free
        cases free
      rw [quiet, asksNot]
      exact ⟨phase, (Function.update_of_ne different _ _).trans found, by simp, by simp⟩
  | @act other signal store thread following occupied acted =>
      by_cases own : index = other
      · subst own
        rw [found] at occupied
        cases occupied
        obtain ⟨after, moved, rfl, -⟩ := acted
        dsimp only
        rw [Function.update_self]
        cases Thread.move_of_next moved with
        | stop => exact ⟨phase, rfl, by simp [ownStep], by simp [asksForJob]⟩
        | @loop _ _ _ target move =>
            have lower : target.1.toLeave < phase.toLeave := move.toLeave_lt
            have fewer : target.1.toClaim ≤ phase.toClaim := move.toClaim_le.1
            refine ⟨target.1, rfl, ?_, ?_⟩
            · split <;> omega
            · split
              · rename_i asks
                obtain ⟨now, outcome, same⟩ := eq_of_asksForJob asks
                cases same
                have used : target.1.toClaim + 1 ≤ phase.toClaim :=
                  move.toClaim_le.2 ⟨now, outcome, rfl⟩
                omega
              · omega
      · obtain ⟨quiet, asksNot⟩ := silent (by rintro _ same; cases same; exact own rfl)
        rw [quiet, asksNot]
        exact ⟨phase, (Function.update_of_ne own _ _).trans found, by simp, by simp⟩

/-- A stopped worker uses up what is left of its round, whatever the others do. -/
theorem stopped_of_run {start finish : Pool (World repository) Thread}
    {trace : SystemTrace repository} {phase : WorkerPhase}
    (run : Run (unreliableSystem repository evaluator staleJobSeconds).Step start trace finish)
    (found : start.threads index = some (.worker ⟨true, phase⟩)) :
    ∃ last, finish.threads index = some (.worker ⟨true, last⟩) ∧
      trace.countP (fun taken => ownStep index taken.event) + last.toLeave ≤ phase.toLeave ∧
      trace.countP (fun taken => asksForJob index taken.event) + last.toClaim ≤ phase.toClaim := by
  induction run with
  | nil => exact ⟨phase, found, by simp, by simp⟩
  | @snoc trace pool next event prior stepped ih =>
      obtain ⟨last, isLast, steps, claims⟩ := ih
      obtain ⟨following, isFollowing, lower, fewer⟩ := stopped_step stepped isLast
      rw [List.countP_append, List.countP_append, List.countP_singleton, List.countP_singleton]
      dsimp only
      exact ⟨following, isFollowing, by omega, by omega⟩

/-! ## What the worker was handed -/

def Signal.handed? : Signal → Option EvaluationJob
  | .replied _ (.claim (.ok (some job))) => some job
  | _ => none

/-- The job that an event hands to the worker. -/
def handed (index : Nat) : SystemEvent → Option EvaluationJob
  | .act other signal => if other = index then signal.handed? else none
  | .arrive _ | .start _ => none

def handedTo (index : Nat) (trace : SystemTrace repository) : List EvaluationJob :=
  trace.filterMap fun taken => handed index taken.event

def Succeeded (store : Lookup) (job : EvaluationJob) : Prop :=
  ∃ stored, store job.jobId = some stored ∧ stored.status = .succeeded

def Finished (store : Lookup) (job : EvaluationJob) : Prop :=
  ∃ stored, store job.jobId = some stored ∧ stored.status.Terminal

theorem Succeeded.finished {store : Lookup} {job : EvaluationJob} (succeeded : Succeeded store job) :
    Finished store job := by
  obtain ⟨stored, found, status⟩ := succeeded
  exact ⟨stored, found, .inl status⟩

theorem Succeeded.stable {before after : Lookup} {job : EvaluationJob}
    (succeeded : Succeeded before job) (keeps : KeepsFinished before after) :
    Succeeded after job := by
  obtain ⟨stored, found, status⟩ := succeeded
  exact ⟨stored, keeps _ _ found (.inl status), status⟩

theorem Finished.stable {before after : Lookup} {job : EvaluationJob}
    (finished : Finished before job) (keeps : KeepsFinished before after) : Finished after job := by
  obtain ⟨stored, found, terminal⟩ := finished
  exact ⟨stored, keeps _ _ found terminal, terminal⟩

/-- The stage of `process_claimed` that a task for this job is in. -/
def ServiceState.WorksOn (job : EvaluationJob) : ServiceState → Prop
  | .scoring jobId held | .succeeding jobId held _ | .recordingFailure jobId held _ =>
      jobId = job.jobId ∧ held = job
  | .loading _ | .starting _ _ | .finished _ => False

/-- `set_failed` for the job ended in a database error, which `_record_failure` swallows. -/
def Unrecorded (index : Nat) (trace : SystemTrace repository) (job : EvaluationJob) : Prop :=
  ∃ taken ∈ trace, (∃ now className,
      taken.event = .act index (.replied now (.job (.error (.other className))))) ∧
    (taken.source.threads index).bind Thread.call? =
      some (.setFailed job.jobId ServiceState.failureMessage)

theorem Unrecorded.append {trace : SystemTrace repository} {job : EvaluationJob}
    (lost : Unrecorded index trace job) (more : SystemTrace repository) :
    Unrecorded index (trace ++ more) job := by
  obtain ⟨taken, member, failed⟩ := lost
  exact ⟨taken, List.mem_append_left _ member, failed⟩

/-- Between two jobs all that were handed out have succeeded, while one is processed all but that
one have, and after the loop all have ended or are lost. -/
def WorkerPhase.Settled (store : Lookup) (lost : EvaluationJob → Prop) (jobs : List EvaluationJob) :
    WorkerPhase → Prop
  | polling | recovering _ | claiming | sleeping | left (.ok ()) =>
      ∀ job ∈ jobs, Succeeded store job
  | processing task => ∃ earlier job, jobs = earlier ++ [job] ∧ task.WorksOn job ∧
      (∃ stored, store job.jobId = some stored) ∧ ∀ other ∈ earlier, Succeeded store other
  | left (.error _) => ∀ job ∈ jobs, Finished store job ∨ lost job

section Settled

variable {before after : Lookup} {lost lostAfter : EvaluationJob → Prop}
variable {jobs : List EvaluationJob} {phase : WorkerPhase}

theorem WorkerPhase.Settled.stable (settled : phase.Settled before lost jobs)
    (keeps : KeepsFinished before after) (remains : KeepsSubmissions before after)
    (stays : ∀ job, lost job → lostAfter job) : phase.Settled after lostAfter jobs := by
  have succeeded (others : List EvaluationJob) (all : ∀ job ∈ others, Succeeded before job) :
      ∀ job ∈ others, Succeeded after job := fun job member => (all job member).stable keeps
  cases phase with
  | polling | recovering _ | claiming | sleeping => exact succeeded _ settled
  | processing task =>
      obtain ⟨earlier, job, rfl, works, ⟨stored, found⟩, others⟩ := settled
      obtain ⟨kept, foundAfter, -⟩ := remains _ _ found
      exact ⟨earlier, job, rfl, works, ⟨kept, foundAfter⟩, succeeded _ others⟩
  | left outcome =>
      cases outcome with
      | ok _ => exact succeeded _ settled
      | error _ =>
          intro job member
          exact (settled job member).imp (fun finished => finished.stable keeps) (stays job)

end Settled

/-- `set_succeeded` that returns has stored a success. -/
theorem succeeded_of_reply (implements : Implements repository release)
    {store next : repository.State} {now : DateTime} {jobId : UUID} {result : EvaluationResult}
    {updated job : EvaluationJob} (isFor : jobId = job.jobId)
    (stepped : repository.Step store ⟨now, .setSucceeded jobId result, .job (.ok updated)⟩ next) :
    Succeeded (repository.job? next) job := by
  have effect := implements.step (by intro _ create; cases create) stepped
  dsimp only at effect
  generalize replied : RepositoryReply.job (.ok updated) = reply at effect
  generalize repository.job? next = after at effect
  cases effect with
  | succeed _ _ => exact ⟨_, by rw [isFor, Function.update_self], rfl⟩
  | refuse _ _ => cases replied

/-- After `set_failed`, accepted or refused, a stored job has ended. -/
theorem finished_of_reply (implements : Implements repository release)
    {store next : repository.State} {now : DateTime} {reply : RepositoryReply} {message : String}
    {job stored : EvaluationJob} (found : repository.job? store job.jobId = some stored)
    (stepped : repository.Step store ⟨now, .setFailed job.jobId message, reply⟩ next) :
    Finished (repository.job? next) job := by
  have effect := implements.step (by intro _ create; cases create) stepped
  rcases effect.setFailed found with ⟨_, _, updated⟩ | ⟨refused, _, kept⟩
  · exact ⟨_, by rw [updated, Function.update_self], .inr rfl⟩
  · refine ⟨stored, by rw [kept, found], ?_⟩
    cases status : stored.status with
    | queued => exact absurd (by rw [status]; exact List.mem_cons_self) refused
    | running => exact absurd (by rw [status]; simp) refused
    | succeeded => exact .inl rfl
    | failed => exact .inr rfl

/-- What the awaited call answers is an exception that is no application error. -/
def Signal.Raised (signal : Signal) : Prop :=
  ∃ now className, signal = .replied now (.job (.error (.other className)))

/-- A task that moves hands out no job and stays on the one it works on, until it ends it or
fails to record its failure. -/
theorem ServiceState.Move.worksOn (implements : Implements repository release)
    {task : ServiceState} {signal : Signal} {after : ServiceState × List Emission}
    {store next : repository.State} {job stored : EvaluationJob} (move : task.Move signal after)
    (works : task.WorksOn job) (found : repository.job? store job.jobId = some stored)
    (heard : HeardUnreliably repository evaluator task.call? task.scoring? store signal next) :
    signal.handed? = none ∧
      (after.1.WorksOn job ∨ after.1 = .finished (.ok ()) ∧ Succeeded (repository.job? next) job ∨
        ∃ error, after.1 = .finished (.error error) ∧ (Finished (repository.job? next) job ∨
          signal.Raised ∧ task.call? = some (.setFailed job.jobId failureMessage))) := by
  cases move with
  | loaded => exact works.elim
  | started => exact works.elim
  | @scored jobId held outcome =>
      refine ⟨rfl, .inl ?_⟩
      cases outcome <;> exact works
  | @succeeded jobId held result now outcome =>
      refine ⟨rfl, ?_⟩
      cases outcome with
      | error _ => exact .inl works
      | ok updated =>
          rcases heard.step_or_raised with stepped | ⟨className, raised⟩
          · exact .inr (.inl ⟨rfl, succeeded_of_reply implements works.1 stepped⟩)
          · cases raised
  | @failed jobId held error now outcome =>
      refine ⟨rfl, .inr (.inr ?_)⟩
      obtain ⟨rfl, rfl⟩ := works
      rcases heard.step_or_raised with stepped | ⟨className, raised⟩
      · have finished := finished_of_reply implements found stepped
        cases outcome <;> exact ⟨error, rfl, .inl finished⟩
      · cases raised
        exact ⟨error, rfl, .inr ⟨⟨_, className, rfl⟩, rfl⟩⟩

theorem WorkerPhase.Settled.append_none {store : Lookup} {lost : EvaluationJob → Prop}
    {jobs : List EvaluationJob} {phase : WorkerPhase} {signal : Signal}
    (settled : phase.Settled store lost jobs) (none : signal.handed? = none) :
    phase.Settled store lost (jobs ++ signal.handed?.toList) := by
  rw [none, Option.toList_none, List.append_nil]
  exact settled

/-- Each step of the worker settles what the step before left open. -/
theorem WorkerPhase.Move.settled (implements : Implements repository release)
    {phase : WorkerPhase} {signal : Signal} {stopping : Bool}
    {after : WorkerPhase × List Emission} {store next : repository.State}
    {lost lostAfter : EvaluationJob → Prop} {jobs : List EvaluationJob}
    (move : Move staleJobSeconds stopping phase signal after)
    (heard : HeardUnreliably repository evaluator phase.call? phase.scoring? store signal next)
    (settled : phase.Settled (repository.job? store) lost jobs)
    (keeps : KeepsFinished (repository.job? store) (repository.job? next))
    (remains : KeepsSubmissions (repository.job? store) (repository.job? next))
    (stays : ∀ job, lost job → lostAfter job)
    (loses : ∀ job : EvaluationJob, signal.Raised →
      phase.call? = some (.setFailed job.jobId ServiceState.failureMessage) → lostAfter job) :
    after.1.Settled (repository.job? next) lostAfter (jobs ++ signal.handed?.toList) := by
  have later := settled.stable keeps remains stays
  cases move with
  | stopped _ | polled _ | slept => exact Settled.append_none later rfl
  | @recovered cutoff now outcome =>
      refine Settled.append_none ?_ rfl
      rcases outcome with error | _ | _
      · exact fun job member => .inl (later job member).finished
      · exact later
      · exact later
  | @claimed now outcome =>
      rcases outcome with error | _ | job
      · exact Settled.append_none (fun job member => .inl (later job member).finished) rfl
      · exact Settled.append_none later rfl
      · rcases heard.step_or_raised with stepped | ⟨className, raised⟩
        · have effect := implements.step (by intro _ create; cases create) stepped
          exact ⟨jobs, job, rfl, ⟨rfl, rfl⟩, ⟨job, effect.claim_stored⟩, later⟩
        · cases raised
  | @processed task _ after moved =>
      obtain ⟨earlier, job, rfl, works, ⟨stored, found⟩, others⟩ := settled
      obtain ⟨kept, foundAfter, -⟩ := remains _ _ found
      have earlierAfter : ∀ other ∈ earlier, Succeeded (repository.job? next) other :=
        fun other member => (others other member).stable keeps
      obtain ⟨none, goesOn⟩ := moved.worksOn implements works found heard
      refine Settled.append_none ?_ none
      obtain ⟨state, emitted⟩ := after
      dsimp only at goesOn
      rcases goesOn with staysOn | ⟨rfl, succeeded⟩ | ⟨error, rfl, ended⟩
      · cases state with
        | loading _ | starting _ _ | finished _ => exact staysOn.elim
        | scoring _ _ | succeeding _ _ _ | recordingFailure _ _ _ =>
            exact ⟨earlier, job, rfl, staysOn, ⟨kept, foundAfter⟩, earlierAfter⟩
      · intro other member
        rcases List.mem_append.mp member with before | last
        · exact earlierAfter other before
        · rw [List.mem_singleton.mp last]
          exact succeeded
      · intro other member
        rcases List.mem_append.mp member with before | last
        · exact .inl (earlierAfter other before).finished
        · rw [List.mem_singleton.mp last]
          exact ended.imp id fun ⟨raised, calls⟩ => loses job raised calls

/-- A worker acts by a move of its phase, or hears of `stop`. -/
theorem Thread.worker_of_next {thread following : Thread} {signal : Signal}
    {after : Thread × List Emission} {worker : WorkerState}
    (moved : thread.next staleJobSeconds signal = some after) (isAfter : following = after.1)
    (isWorker : following = .worker worker) :
    ∃ earlier, thread = .worker earlier ∧ (signal = .stop ∧ worker.phase = earlier.phase ∨
      ∃ target, earlier.phase.Move staleJobSeconds earlier.stopping signal target ∧
        worker.phase = target.1) := by
  subst isAfter
  cases Thread.move_of_next moved with
  | service _ => cases isWorker
  | @loop _ _ _ target move =>
      cases isWorker
      exact ⟨_, rfl, .inr ⟨target, move, rfl⟩⟩
  | stop =>
      cases isWorker
      exact ⟨_, rfl, .inl ⟨rfl, rfl⟩⟩

theorem handedTo_snoc (trace : SystemTrace repository)
    (taken : Transition (Pool (World repository) Thread) SystemEvent) :
    handedTo index (trace ++ [taken]) = handedTo index trace ++ (handed index taken.event).toList := by
  have last : [taken].filterMap (fun taken => handed index taken.event) =
      (handed index taken.event).toList := by
    cases handedOver : handed index taken.event <;> simp [handedOver]
  rw [handedTo, List.filterMap_append, last, handedTo]

/-- What has been handed to a thread, as far as it is known from its place in the pool. -/
def SettledAt (index : Nat) (trace : SystemTrace repository)
    (pool : Pool (World repository) Thread) : Prop :=
  (pool.threads index = none → handedTo index trace = []) ∧
    ∀ worker, pool.threads index = some (.worker worker) →
      worker.phase.Settled (repository.job? pool.store.store) (Unrecorded index trace)
        (handedTo index trace)

/-- In every run, with any number of workers and calls beside it and with any database errors, a
worker has settled the jobs that it was handed. -/
theorem UnreliableReaches.settledAt (implements : Implements repository release)
    {trace : SystemTrace repository} {pool : Pool (World repository) Thread}
    (reached : UnreliableReaches repository evaluator staleJobSeconds trace pool) (index : Nat) :
    SettledAt index trace pool := by
  induction reached with
  | nil => exact ⟨fun _ => rfl, by rintro _ ⟨⟩⟩
  | @snoc trace pool next event prior stepped ih =>
      obtain ⟨empty, settled⟩ := ih
      have keeps := keepsFinished_of_step implements stepped
      have remains := keepsSubmissions_of_step implements stepped
      have stays (job : EvaluationJob) (lost : Unrecorded index trace job) :
          Unrecorded index (trace ++ [⟨pool, event, next⟩]) job := lost.append _
      -- a step that is not the worker's leaves its phase and its jobs as they are
      have aside (same : next.threads index = pool.threads index) (none : handed index event = none) :
          SettledAt index (trace ++ [⟨pool, event, next⟩]) next := by
        rw [SettledAt, handedTo_snoc, none, Option.toList_none, List.append_nil, same]
        exact ⟨empty, fun worker found => (settled worker found).stable keeps remains stays⟩
      cases stepped with
      | arrive _ => exact aside rfl rfl
      | @start other store thread free starts =>
          by_cases new : index = other
          · subst new
            refine ⟨fun none => ?_, fun worker found => ?_⟩
            · dsimp only at none
              rw [Function.update_self] at none
              cases none
            · dsimp only at found
              rw [Function.update_self, Option.some_inj] at found
              subst found
              rw [handedTo_snoc, empty free]
              rcases starts with ⟨_, ⟨⟩, _⟩ | ⟨⟨⟩, _⟩
              exact fun job member => nomatch member
          · exact aside (Function.update_of_ne new _ _) rfl
      | @act other signal store thread following occupied acted =>
          by_cases own : index = other
          · subst own
            refine ⟨fun none => ?_, fun worker found => ?_⟩
            · dsimp only at none
              rw [Function.update_self] at none
              cases none
            · dsimp only at found keeps remains stays ⊢
              rw [Function.update_self, Option.some_inj] at found
              obtain ⟨after, moved, isAfter, heard, -⟩ := acted
              obtain ⟨earlier, rfl, kind⟩ := Thread.worker_of_next moved isAfter found
              have before := settled earlier occupied
              rw [handedTo_snoc]
              dsimp only
              rw [handed, if_pos rfl]
              rcases kind with ⟨rfl, same⟩ | ⟨target, move, same⟩
              · rw [same]
                exact WorkerPhase.Settled.append_none (before.stable keeps remains stays) rfl
              · rw [same]
                refine move.settled implements heard before keeps remains stays ?_
                rintro job ⟨now, className, rfl⟩ calls
                refine ⟨_, List.mem_append_right _ List.mem_cons_self, ⟨now, className, rfl⟩, ?_⟩
                dsimp only
                rw [occupied]
                exact calls
          · refine aside (Function.update_of_ne own _ _) ?_
            rw [handed, if_neg (Ne.symm own)]

/-! ## Stopping -/

/-- A worker that has not left can go on: the repository answers, and so does the evaluator. -/
theorem exists_step (answers : ∀ request, ∃ outcome, evaluator request outcome)
    {pool : Pool (World repository) Thread} {worker : WorkerState} {jobs : List EvaluationJob}
    {lost : EvaluationJob → Prop} (found : pool.threads index = some (.worker worker))
    (settled : worker.phase.Settled (repository.job? pool.store.store) lost jobs)
    (inLoop : ∀ outcome, worker.phase ≠ .left outcome) :
    ∃ event target, ownStep index event = true ∧
      (system repository evaluator staleJobSeconds).Step pool event target := by
  -- it is enough to find something that the worker waits to hear
  have going : ∀ signal store moved, signal ≠ .stop →
      worker.phase.next staleJobSeconds worker.stopping signal = some moved →
      Heard repository evaluator worker.phase.call? worker.phase.scoring? pool.store.store signal
        store → ∃ event target, ownStep index event = true ∧
          (system repository evaluator staleJobSeconds).Step pool event target := by
    intro signal store moved notStop ran heard
    have advanced : Thread.next staleJobSeconds (.worker worker) signal =
        some (.worker { worker with phase := moved.1 }, moved.2) := by
      cases signal with
      | stop => exact absurd rfl notStop
      | replied _ _ | scored _ | resumed _ =>
          simp only [Thread.next, WorkerState.next, ran, Option.map_some]
          rfl
    refine ⟨.act index signal, ⟨⟨store, pool.store.submissions, pool.store.telemetry ++ moved.2⟩, _⟩,
      ?_, .act found ⟨_, advanced, rfl, heard, rfl, rfl⟩⟩
    cases signal with
    | stop => exact absurd rfl notStop
    | replied _ _ | scored _ | resumed _ => exact beq_self_eq_true index
  have performed : ∀ call, repository.Step pool.store.store
      ⟨0, call, (repository.perform pool.store.store 0 call).1⟩
      (repository.perform pool.store.store 0 call).2 :=
    fun call => ⟨_, repository.arranges_refl _, rfl⟩
  obtain ⟨stopping, phase⟩ := worker
  cases phase with
  | polling =>
      cases stopping with
      | true => exact going (.resumed 0) _ _ (by rintro ⟨⟩) rfl rfl
      | false => exact going (.resumed 0) _ _ (by rintro ⟨⟩) rfl rfl
  | sleeping => exact going (.resumed 0) _ _ (by rintro ⟨⟩) rfl rfl
  | recovering cutoff =>
      exact going (.replied 0 _) _ _ (by rintro ⟨⟩) rfl ⟨_, rfl, performed (.recoverStaleRunning cutoff)⟩
  | claiming =>
      exact going (.replied 0 _) _ _ (by rintro ⟨⟩) rfl ⟨_, rfl, performed .claimNextQueued⟩
  | left outcome => exact absurd rfl (inLoop outcome)
  | processing task =>
      obtain ⟨_, _, -, works, -⟩ := settled
      cases task with
      | loading _ | starting _ _ | finished _ => exact works.elim
      | scoring jobId held =>
          obtain ⟨outcome, answered⟩ := answers held.request
          exact going (.scored outcome) _ _ (by rintro ⟨⟩) rfl ⟨rfl, _, rfl, answered⟩
      | succeeding jobId held result =>
          exact going (.replied 0 _) _ _ (by rintro ⟨⟩) rfl
            ⟨_, rfl, performed (.setSucceeded jobId result)⟩
      | recordingFailure jobId held error =>
          exact going (.replied 0 _) _ _ (by rintro ⟨⟩) rfl
            ⟨_, rfl, performed (.setFailed held.jobId ServiceState.failureMessage)⟩

/-- What becomes of a worker that hears of `stop` at one step of a run. -/
structure ShutsDown (repository : JobRepository) (evaluator : EvaluatorBehavior)
    (staleJobSeconds : Int) (index : Nat) (trace later : SystemTrace repository)
    (pool : Pool (World repository) Thread) : Prop where
  steps : later.countP (fun taken => ownStep index taken.event) ≤ 6
  claims : later.countP (fun taken => asksForJob index taken.event) ≤ 1
  /-- It has left the loop, or it can take its next step. -/
  goesOn : (∃ outcome, pool.threads index = some (.worker ⟨true, .left outcome⟩)) ∨
    ∃ event target, ownStep index event = true ∧
      (system repository evaluator staleJobSeconds).Step pool event target
  /-- Once it has left, every job that it was ever handed has succeeded if no exception ended the
  loop, and otherwise it has ended, or storing its failure was answered by a database error. -/
  leaves : ∀ outcome, pool.threads index = some (.worker ⟨true, .left outcome⟩) →
    ∀ job ∈ handedTo index trace,
      (outcome = .ok () → Succeeded (repository.job? pool.store.store) job) ∧
        (Finished (repository.job? pool.store.store) job ∨ Unrecorded index trace job)

theorem WorkerPhase.toLeave_le {store : Lookup} {lost : EvaluationJob → Prop}
    {jobs : List EvaluationJob} {phase : WorkerPhase} (settled : phase.Settled store lost jobs) :
    phase.toLeave ≤ 6 ∧ phase.toClaim ≤ 1 := by
  cases phase with
  | polling | sleeping | recovering _ | claiming | left _ => simp [toLeave, toClaim]
  | processing task =>
      obtain ⟨_, _, -, works, -⟩ := settled
      cases task with
      | loading _ | starting _ _ | finished _ => exact works.elim
      | scoring _ _ | succeeding _ _ _ | recordingFailure _ _ _ =>
          simp [toLeave, toClaim, ServiceState.remaining]

/-- Stopping a worker is bounded and leaves nothing in progress whose end could be stored, in
every run of the service and with any database errors. -/
theorem graceful_shutdown (backend : StorageBackend) (evaluator : EvaluatorBehavior)
    (answers : ∀ request, ∃ outcome, evaluator request outcome) (staleJobSeconds : Int)
    (earlier later : SystemTrace (buildRepository backend))
    (stopped : Transition (Pool (World (buildRepository backend)) Thread) SystemEvent)
    (pool : Pool (World (buildRepository backend)) Thread)
    (reached : UnreliableReaches (buildRepository backend) evaluator staleJobSeconds
      (earlier ++ stopped :: later) pool)
    (index : Nat) (isStop : stopped.event = .act index .stop) (worker : WorkerState)
    (isWorker : stopped.source.threads index = some (.worker worker)) :
    ShutsDown (buildRepository backend) evaluator staleJobSeconds index
      (earlier ++ stopped :: later) later pool := by
  have implements := buildRepository_implements backend
  obtain ⟨prior, stepped, rest⟩ := Run.around reached
  have settledBefore := (UnreliableReaches.settledAt implements prior index).2 worker isWorker
  have found : stopped.target.threads index = some (.worker ⟨true, worker.phase⟩) := by
    obtain ⟨source, event, target⟩ := stopped
    dsimp only at isStop isWorker stepped ⊢
    subst isStop
    cases stepped with
    | act occupied acted =>
        rw [isWorker] at occupied
        cases occupied
        obtain ⟨after, moved, rfl, -⟩ := acted
        cases moved
        exact Function.update_self _ _ _
  obtain ⟨last, isLast, steps, claims⟩ := stopped_of_run rest found
  obtain ⟨bounded, once⟩ := WorkerPhase.toLeave_le settledBefore
  have settled := (UnreliableReaches.settledAt implements reached index).2 _ isLast
  refine ⟨by omega, by omega, ?_, ?_⟩
  · by_cases ended : ∃ outcome, last = .left outcome
    · obtain ⟨outcome, rfl⟩ := ended
      exact .inl ⟨outcome, isLast⟩
    · exact .inr (exists_step answers isLast settled fun outcome same => ended ⟨outcome, same⟩)
  · intro outcome left job member
    rw [isLast, Option.some_inj] at left
    cases left
    cases outcome with
    | ok _ => exact ⟨fun _ => settled job member, .inl (settled job member).finished⟩
    | error _ => exact ⟨by rintro ⟨⟩, settled job member⟩

/-- A worker that is stopped while the evaluator works on its job, and the evaluator times out. -/
def stoppingSchedule : List Turn :=
  [.submit demoSubmission, .work 0, .act 0 (.resume 1), .act 0 (.reply 1), .act 0 (.reply 2),
    .act 0 .stop, .act 0 .score]

/-- The failure cannot be stored: the worker leaves, and the job is still running. -/
theorem graceful_shutdown_timeout :
    let repository := buildRepository .postgres
    let run := execute repository (fun _ => .error .timeoutError) 300 (.idle (.initial _))
      stoppingSchedule
    ∃ failed : Transition (Pool (World repository) Thread) SystemEvent,
      ShutsDown repository Evaluator.arbitrary 300 0 (run.1 ++ [failed]) (run.1.drop 6 ++ [failed])
        failed.target ∧
      failed.target.threads 0 = some (.worker ⟨true, .left (.error .timeoutError)⟩) ∧
      (handedTo 0 (run.1 ++ [failed])).map (·.jobId) = [7] ∧
      (repository.job? failed.target.store.store 7).map (·.status) = some .running := by
  intro repository run
  have reached : SystemReaches repository Evaluator.arbitrary 300 run.1 run.2 :=
    run_execute (fun _ => .error .timeoutError) (fun _ => trivial) (.idle (.initial _))
      stoppingSchedule
  have recording : ∃ job : EvaluationJob, job.jobId = 7 ∧ run.2.threads 0 =
      some (.worker ⟨true, .processing (.recordingFailure 7 job .timeoutError)⟩) :=
    ⟨_, by decide, rfl⟩
  obtain ⟨job, isJob, found⟩ := recording
  let raised : Signal := .replied 3 (.job (.error (.other "OperationalError")))
  let left : WorkerPhase × List Emission :=
    (WorkerPhase.afterProcess (ServiceState.afterSetFailed 3 7 job .timeoutError
      (.error (.other "OperationalError"))).1).map id
        ((ServiceState.afterSetFailed 3 7 job .timeoutError (.error (.other "OperationalError"))).2 ++ ·)
  let target : Pool (World repository) Thread :=
    ⟨⟨run.2.store.store, run.2.store.submissions, run.2.store.telemetry ++ left.2⟩,
      Function.update run.2.threads 0 (some (.worker ⟨true, left.1⟩))⟩
  have failed : (unreliableSystem repository Evaluator.arbitrary 300).Step run.2 (.act 0 raised)
      target :=
    .act found ⟨_, rfl, rfl, .inr ⟨_, rfl, 3, _, rfl, ⟨"OperationalError", rfl⟩, .inl rfl⟩, rfl, rfl⟩
  have reachedTarget := reached.unreliable.snoc failed
  have hasLeft : target.threads 0 = some (.worker ⟨true, .left (.error .timeoutError)⟩) := by
    change Function.update run.2.threads 0 (some (.worker ⟨true, left.1⟩)) 0 = _
    rw [Function.update_self]
    rfl
  have running : (repository.job? run.2.store.store 7).map (·.status) = some .running := by
    decide
  refine ⟨⟨run.2, .act 0 raised, target⟩, ?_, hasLeft, rfl, running⟩
  cases rest : run.1.drop 5 with
  | nil => cases rest
  | cons stopped later =>
      have split : run.1 = run.1.take 5 ++ stopped :: later := by
        rw [← rest, List.take_append_drop]
      have remains : run.1.drop 6 = later := by
        rw [← List.drop_drop (i := 1) (j := 5), rest]
        rfl
      have isStop : stopped.event = .act 0 .stop := by
        have first : ((run.1.drop 5).head?.map (·.event)) = some (.act 0 .stop) := rfl
        rw [rest] at first
        exact Option.some.inj first
      have isWorker : ∃ task, stopped.source.threads 0 = some (.worker ⟨false, task⟩) := by
        have first : ∃ task, ((run.1.drop 5).head?.bind (·.source.threads 0)) =
            some (.worker ⟨false, task⟩) := ⟨_, rfl⟩
        rw [rest] at first
        exact first
      obtain ⟨task, isWorker⟩ := isWorker
      rw [remains, split, List.append_assoc, List.cons_append]
      rw [split, List.append_assoc, List.cons_append] at reachedTarget
      exact graceful_shutdown .postgres Evaluator.arbitrary
        (fun _ => ⟨.ok demoResult, trivial⟩) 300 _ _ _ _ reachedTarget 0 isStop _ isWorker

end EvaluationService
