import EvaluationService.Services.AuditTrail
import EvaluationService.Services.Faults

/-!
How often the evaluator is called for a job. Each call is paid for, and a worker that lost
its job goes on waiting for the answer. Every call is told by one event of the job's trail, so
that the calls, with the ones still waited for, stay within the attempts of the job. Database
errors lose calls, but never add one: a start that a thread is not told of is not followed by
an evaluation.
-/

set_option autoImplicit false

namespace EvaluationService

open Foundation

def ServiceState.evaluates (jobId : UUID) : ServiceState → Bool
  | .scoring evaluated _ => evaluated = jobId
  | _ => false

/-- The thread waits for the evaluator's answer about the job. -/
def Thread.evaluates (jobId : UUID) (thread : Thread) : Bool :=
  thread.task?.any (ServiceState.evaluates jobId)

def Signal.isScored : Signal → Bool
  | .scored _ => true
  | _ => false

/-- The step hands the evaluator's answer about the job to a thread. -/
def evaluated {repository : JobRepository} (jobId : UUID)
    (taken : Transition (Pool (World repository) Thread) SystemEvent) : Bool :=
  match taken.event with
  | .act index signal => signal.isScored && (taken.source.threads index).any (Thread.evaluates jobId)
  | _ => false

/-- The calls of the evaluator for a job: those that were answered in the run, and those that
a thread still waits for. -/
noncomputable def evaluatorCalls {repository : JobRepository} (jobId : UUID) (trace : SystemTrace repository)
    (pool : Pool (World repository) Thread) : Nat :=
  (Pool.within (Thread.evaluates jobId) pool.threads).ncard + trace.countP (evaluated jobId)

/-- The recorded runs of a job. -/
def runs (jobId : UUID) (telemetry : List Emission) : Nat :=
  (audited telemetry).count (jobId, "evaluation.job_running")

theorem runs_append (jobId : UUID) (first second : List Emission) :
    runs jobId (first ++ second) = runs jobId first + runs jobId second := by
  unfold runs
  rw [audited_append, List.count_append]

theorem count_trailOf (jobId : UUID) (eventType : String) (entries : List (UUID × String)) :
    (trailOf jobId entries).count eventType = entries.count (jobId, eventType) := by
  unfold trailOf
  rw [List.count, List.countP_map, List.countP_filter, List.count]
  refine List.countP_congr fun entry _ => ?_
  simp [Prod.ext_iff, and_comm]

/-! ## A step of a thread -/

section Steps

variable {signal : Signal}

theorem runs_of_audited {jobId : UUID} {entry : UUID × String} {emitted : List Emission}
    (records : audited emitted = [entry]) :
    runs jobId emitted = (decide (entry = (jobId, "evaluation.job_running"))).toNat := by
  unfold runs
  rw [records, List.count_singleton]
  by_cases same : entry = (jobId, "evaluation.job_running") <;> simp [same]

theorem runs_of_other {jobId changed : UUID} {eventType : String} {emitted : List Emission}
    (records : audited emitted = [(changed, eventType)])
    (other : eventType ≠ "evaluation.job_running") : runs jobId emitted = 0 := by
  rw [runs_of_audited records]
  simp [other]

theorem runs_afterCreate {jobId : UUID} (now : DateTime) (job : EvaluationJob)
    (outcome : Except Exn EvaluationJob) : runs jobId (afterCreate now job outcome).2 = 0 := by
  cases outcome with
  | error _ => rfl
  | ok stored => exact runs_of_other (afterCreate_audited now job (.ok stored)) (by decide)

/-- A task starts to wait for the evaluator with the event that tells of it, and stops with the
answer. -/
theorem ServiceState.Move.evaluations (jobId : UUID) {state : ServiceState}
    {after : ServiceState × List Emission} (move : state.Move signal after) :
    (after.1.evaluates jobId).toNat + (signal.isScored && state.evaluates jobId).toNat =
      (state.evaluates jobId).toNat + runs jobId after.2 := by
  cases move with
  | @loaded _ _ outcome => cases outcome <;> rfl
  | @started started job now outcome =>
      cases outcome with
      | error _ => rfl
      | ok _ =>
          have told : runs jobId (afterSetRunning now started job (.ok ‹_›)).2 = _ :=
            runs_of_audited rfl
          rw [told]
          simp [evaluates, afterSetRunning, Signal.isScored]
  | @scored _ _ outcome =>
      cases outcome with
      | error _ => exact Nat.zero_add _
      | ok _ => exact Nat.zero_add _
  | @succeeded ended job result now outcome =>
      cases outcome with
      | error _ => rfl
      | ok updated =>
          have told : EvaluationService.audited
              (afterSetSucceeded now ended job result (.ok updated)).2 =
              [(ended, "evaluation.job_succeeded")] := rfl
          rw [runs_of_other told (by decide)]
          rfl
  | @failed ended job error now outcome =>
      cases outcome with
      | error _ => rfl
      | ok updated =>
          have told : EvaluationService.audited
              (afterSetFailed now ended job error (.ok updated)).2 =
              [(job.jobId, "evaluation.job_failed")] := rfl
          rw [runs_of_other told (by decide)]
          rfl

theorem WorkerPhase.Move.evaluations (jobId : UUID) {staleJobSeconds : Int} {stopping : Bool}
    {phase : WorkerPhase} {after : WorkerPhase × List Emission}
    (move : phase.Move staleJobSeconds stopping signal after) :
    (Thread.evaluates jobId (.worker ⟨stopping, after.1⟩)).toNat +
        (signal.isScored && Thread.evaluates jobId (.worker ⟨stopping, phase⟩)).toNat =
      (Thread.evaluates jobId (.worker ⟨stopping, phase⟩)).toNat + runs jobId after.2 := by
  cases move with
  | stopped _ => rfl
  | polled _ => rfl
  | @recovered _ _ outcome => rcases outcome with _ | _ | _ <;> rfl
  | @claimed now outcome =>
      rcases outcome with _ | _ | job
      · rfl
      · rfl
      · have told : runs jobId (afterClaim now (.ok (some job))).2 = _ := runs_of_audited rfl
        rw [told]
        simp [afterClaim, ServiceState.processClaimed, Thread.evaluates, Thread.task?,
          ServiceState.evaluates, Signal.isScored]
  | slept => rfl
  | @processed task _ after advanced =>
      have quiet : runs jobId (afterProcess after.1).2 = 0 := by
        rw [runs, EvaluationService.audited, auditEvents_afterProcess]
        rfl
      have same : Thread.evaluates jobId (.worker ⟨stopping, (afterProcess after.1).1⟩) =
          after.1.evaluates jobId := by
        cases after.1 with
        | finished outcome => rcases outcome with _ | _ <;> rfl
        | _ => rfl
      change (Thread.evaluates jobId (.worker ⟨stopping, (afterProcess after.1).1⟩)).toNat + _ =
        _ + runs jobId (after.2 ++ (afterProcess after.1).2)
      rw [same, runs_append, quiet, Nat.add_zero]
      exact advanced.evaluations jobId

theorem Thread.next_evaluations (jobId : UUID) {staleJobSeconds : Int} {thread : Thread}
    {after : Thread × List Emission} (ran : thread.next staleJobSeconds signal = some after) :
    (after.1.evaluates jobId).toNat + (signal.isScored && thread.evaluates jobId).toNat =
      (thread.evaluates jobId).toNat + runs jobId after.2 := by
  cases Thread.move_of_next ran with
  | service move => exact move.evaluations jobId
  | loop move => exact move.evaluations jobId
  | @stop _ phase => cases phase <;> rfl

end Steps

/-! ## The calls in every state -/

section Runs

variable {repository : JobRepository} {release : Option DateTime → Option DateTime}
variable {evaluator : EvaluatorBehavior} {staleJobSeconds : Int}

/-- The threads that wait and the answers of a step are told by what the step records. -/
theorem evaluations_of_step (jobId : UUID) {pool target : Pool (World repository) Thread}
    {event : SystemEvent} (finite : (Pool.within (Thread.evaluates jobId) pool.threads).Finite)
    (stepped : (unreliableSystem repository evaluator staleJobSeconds).Step pool event target) :
    (Pool.within (Thread.evaluates jobId) target.threads).Finite ∧
      (Pool.within (Thread.evaluates jobId) target.threads).ncard +
          (evaluated jobId ⟨pool, event, target⟩).toNat + runs jobId pool.store.telemetry =
        (Pool.within (Thread.evaluates jobId) pool.threads).ncard +
          runs jobId target.store.telemetry := by
  cases stepped with
  | @arrive submission world submits =>
      have quiet : runs jobId world.telemetry = runs jobId pool.store.telemetry := by
        rcases submits with ⟨-, outcome, -, -, emits⟩ | ⟨-, emits, -⟩
        · rw [emits, runs_append, runs_afterCreate, Nat.add_zero]
        · rw [emits, runs_append]
          rfl
      refine ⟨finite, ?_⟩
      dsimp only
      rw [quiet]
      rfl
  | @start index world thread free starts =>
      have idle : thread.evaluates jobId = false := by
        rcases starts with ⟨_, rfl, -⟩ | ⟨rfl, -⟩
        · rfl
        · rfl
      have quiet : runs jobId world.telemetry = runs jobId pool.store.telemetry := by
        rcases starts with ⟨_, -, rfl⟩ | ⟨-, rfl⟩
        · rfl
        · exact runs_append jobId _ _
      obtain ⟨updated, moved⟩ := Pool.within_update finite index thread
      rw [free, idle] at moved
      refine ⟨updated, ?_⟩
      dsimp only
      rw [quiet]
      exact congrArg (· + runs jobId pool.store.telemetry) moved
  | @act index signal world thread next found acts =>
      obtain ⟨after, ran, rfl, -, -, emits⟩ := acts
      have advanced := Thread.next_evaluations jobId ran
      obtain ⟨updated, moved⟩ := Pool.within_update finite index after.1
      have answered : evaluated jobId
          ⟨pool, .act index signal, ⟨world, Function.update pool.threads index (some after.1)⟩⟩ =
          (signal.isScored && thread.evaluates jobId) := by
        change (signal.isScored && (pool.threads index).any (Thread.evaluates jobId)) = _
        rw [found]
        rfl
      have waited : Pool.counted (Thread.evaluates jobId) (some thread) =
          (thread.evaluates jobId).toNat := rfl
      rw [found, waited] at moved
      refine ⟨updated, ?_⟩
      dsimp only
      rw [answered, emits, runs_append]
      omega

theorem UnreliableReaches.evaluations {trace : SystemTrace repository}
    {pool : Pool (World repository) Thread}
    (reached : UnreliableReaches repository evaluator staleJobSeconds trace pool) (jobId : UUID) :
    (Pool.within (Thread.evaluates jobId) pool.threads).Finite ∧
      evaluatorCalls jobId trace pool = runs jobId pool.store.telemetry := by
  unfold UnreliableReaches at reached
  induction reached with
  | nil =>
      unfold evaluatorCalls
      rw [Pool.within_idle]
      exact ⟨Set.finite_empty, Set.ncard_empty Nat⟩
  | snoc prior stepped ih =>
      obtain ⟨finite, calls⟩ := ih
      obtain ⟨updated, moved⟩ := evaluations_of_step jobId finite stepped
      refine ⟨updated, ?_⟩
      unfold evaluatorCalls at calls ⊢
      rw [List.countP_append, List.countP_singleton, ← Bool.cond_eq_ite, ← Bool.toNat]
      omega

/-- The trail has one run for each start of the job. -/
theorem AuditTrail.runs_eq {job : EvaluationJob} {trail : List String}
    (trailed : AuditTrail (some job) trail) :
    job.StartedTimes (trail.count "evaluation.job_running") := by
  cases trailed with
  | @stored _ starts times =>
      have unended : job.ending.count "evaluation.job_running" = 0 := by
        unfold EvaluationJob.ending
        split
        · rfl
        · rfl
        · rfl
        · split <;> rfl
      rw [List.count_cons_of_ne (by decide), List.count_append, List.count_replicate_self, unended]
      exact times

/-! ## What the store has counted -/

/-- Some trail fits the stored job and tells of at least so many runs. -/
def Fits (store : Lookup) (jobId : UUID) (calls : Nat) : Prop :=
  ∃ trail, AuditTrail (store jobId) trail ∧ calls ≤ trail.count "evaluation.job_running"

theorem Fits.mono {store : Lookup} {jobId : UUID} {calls fewer : Nat}
    (fits : Fits store jobId calls) (less : fewer ≤ calls) : Fits store jobId fewer := by
  obtain ⟨trail, trailed, most⟩ := fits
  exact ⟨trail, trailed, less.trans most⟩

theorem Effect.fits {now : DateTime} {before after : Lookup} {call : RepositoryCall}
    {reply : RepositoryReply} {calls : UUID → Nat}
    (effect : Effect release now before call reply after) (ofService : call.OfService)
    (consistent : ∀ jobId job, before jobId = some job → job.Consistent)
    (fits : ∀ jobId, Fits before jobId (calls jobId)) (jobId : UUID) :
    Fits after jobId (calls jobId +
      (call.audit? reply).toList.count (jobId, "evaluation.job_running")) := by
  choose trails trailed most using fits
  refine ⟨_, effect.trailed ofService consistent trailed jobId, ?_⟩
  rw [List.count_append, count_trailOf]
  exact Nat.add_le_add_right (most jobId) _

theorem RepositoryCall.audit?_raised (call : RepositoryCall) (className : String) :
    call.audit? (call.raised className) = none := by
  cases call <;> rfl

/-- What a thread hears of its call, if anything, is no more than the call has done. -/
theorem HeardUnreliably.fits (implements : Implements repository release)
    {thread : Thread} {signal : Signal} {store after : repository.State} {calls : UUID → Nat}
    (heard : HeardUnreliably repository evaluator thread.call? thread.scoring? store signal after)
    (consistent : ∀ jobId job, repository.job? store jobId = some job → job.Consistent)
    (fits : ∀ jobId, Fits (repository.job? store) jobId (calls jobId)) (jobId : UUID) :
    Fits (repository.job? after) jobId (calls jobId +
      (signal.audit? thread.call?).toList.count (jobId, "evaluation.job_running")) := by
  have called : ∀ {call now reply}, thread.call? = some call →
      repository.Step store ⟨now, call, reply⟩ after →
      Fits (repository.job? after) jobId (calls jobId +
        (call.audit? reply).toList.count (jobId, "evaluation.job_running")) := by
    intro call now reply waits stepped
    have created := Thread.call?_ne_create waits
    have effect := implements.step (fun job create => absurd create (created job)) stepped
    exact effect.fits (Thread.call?_ofService waits) consistent fits jobId
  rcases heard with heard | ⟨call, waits, now, reply, rfl, ⟨className, raised⟩, outcome⟩
  · cases signal with
    | replied now reply =>
        obtain ⟨call, waits, stepped⟩ := heard
        rw [Signal.audit?, waits]
        exact called waits stepped
    | scored _ =>
        rw [heard.1]
        exact fits jobId
    | resumed _ =>
        rw [heard]
        exact fits jobId
    | stop =>
        rw [heard]
        exact fits jobId
  · have silent : (Signal.replied now reply).audit? thread.call? = none := by
      rw [Signal.audit?, waits]
      dsimp only at raised
      rw [raised]
      exact call.audit?_raised className
    rw [silent]
    rcases outcome with rfl | ⟨answer, stepped⟩
    · exact fits jobId
    · exact (called waits stepped).mono (Nat.le_add_right _ _)

theorem UnreliableReaches.consistent (implements : Implements repository release)
    {trace : SystemTrace repository} {pool : Pool (World repository) Thread}
    (reached : UnreliableReaches repository evaluator staleJobSeconds trace pool)
    (jobId : UUID) (job : EvaluationJob)
    (stored : repository.job? pool.store.store jobId = some job) : job.Consistent := by
  obtain ⟨history, inHistory⟩ := Run.abstracts (fun pool : Pool (World repository) Thread =>
    pool.store.store) (fun _ _ _ => unreliable_step_operates) reached
  exact JobRepository.Reaches.consistent implements inHistory stored

theorem UnreliableReaches.fits (implements : Implements repository release)
    {trace : SystemTrace repository} {pool : Pool (World repository) Thread}
    (reached : UnreliableReaches repository evaluator staleJobSeconds trace pool) (jobId : UUID) :
    Fits (repository.job? pool.store.store) jobId (runs jobId pool.store.telemetry) := by
  unfold UnreliableReaches at reached
  induction reached generalizing jobId with
  | nil =>
      have absent : repository.job? (World.initial repository).store jobId = none :=
        implements.empty jobId
      refine ⟨[], ?_, Nat.le_refl 0⟩
      change AuditTrail (repository.job? (World.initial repository).store jobId) []
      rw [absent]
      exact .absent
  | snoc prior stepped ih =>
      have consistent := UnreliableReaches.consistent implements prior
      cases stepped with
      | @arrive submission world submits =>
          have created : ∀ {outcome}, repository.Operates _ ⟨submission.now,
              .create submission.job, .job outcome⟩ world.store →
              Fits (repository.job? world.store) jobId _ := fun operates =>
            ((implements.operates operates).fits submission.create_ofService consistent ih jobId).mono
              (Nat.le_add_right _ _)
          dsimp only
          rcases submits with ⟨fresh, outcome, stepped, -, emits⟩ |
            ⟨fresh, emits, ⟨same, -⟩ | ⟨⟨outcome, stepped⟩, -⟩⟩
          · rw [emits, runs_append, runs_afterCreate]
            exact created ⟨submission_admissible fresh, stepped⟩
          · rw [emits, runs_append, same]
            exact ih jobId
          · rw [emits, runs_append]
            exact created ⟨submission_admissible fresh, stepped⟩
      | start _ starts =>
          rcases starts with ⟨_, _, rfl⟩ | ⟨_, rfl⟩
          · exact ih jobId
          · exact (ih jobId).mono (Nat.le_of_eq (runs_append jobId _ _))
      | act found acts =>
          obtain ⟨after, ran, rfl, heard, -, emits⟩ := acts
          dsimp only
          rw [emits, runs_append]
          unfold runs
          rw [Thread.next_audited ran]
          exact heard.fits implements consistent ih jobId

end Runs

/-- The evaluator is called for a job at most as often as the job was started, and never more
often than `max_attempts`, with any database errors and also where calls that lost the job are
still waiting. Without errors there is exactly one call for each start: one for every attempt,
and at most one more. -/
theorem evaluator_calls_within_attempts (backend : StorageBackend) (evaluator : EvaluatorBehavior)
    (staleJobSeconds : Int) (trace : SystemTrace (buildRepository backend))
    (pool : Pool (World (buildRepository backend)) Thread)
    (reached : UnreliableReaches (buildRepository backend) evaluator staleJobSeconds trace pool)
    (jobId : UUID) :
    (Pool.within (Thread.evaluates jobId) pool.threads).Finite ∧
      ((buildRepository backend).job? pool.store.store jobId = none →
        evaluatorCalls jobId trace pool = 0) ∧
      ∀ job, (buildRepository backend).job? pool.store.store jobId = some job →
        evaluatorCalls jobId trace pool ≤ job.maxAttempts ∧
        (∃ starts, job.StartedTimes starts ∧ evaluatorCalls jobId trace pool ≤ starts) ∧
        (SystemReaches (buildRepository backend) evaluator staleJobSeconds trace pool →
          job.StartedTimes (evaluatorCalls jobId trace pool)) := by
  have implements := buildRepository_implements backend
  obtain ⟨finite, calls⟩ := reached.evaluations jobId
  obtain ⟨trail, fits, most⟩ := reached.fits implements jobId
  rw [← calls] at most
  refine ⟨finite, ?_, ?_⟩
  · intro absent
    rw [absent] at fits
    cases fits
    exact Nat.le_zero.mp most
  · intro job stored
    rw [stored] at fits
    have started := fits.runs_eq
    have withinBudget := started.withinBudget
    refine ⟨by omega, ⟨_, started, most⟩, fun answered => ?_⟩
    have trailed := answered.trailed implements jobId
    rw [stored] at trailed
    have exactly := trailed.runs_eq
    rwa [count_trailOf, ← runs, ← calls] at exactly

/-- Three workers lose the job and a fourth one times it out: three calls of the evaluator. -/
theorem evaluator_calls_within_attempts_exhausted :
    let run := execute (buildRepository .memory) (fun _ => .ok demoResult) 300
      (.idle (.initial _)) exhaustedSchedule
    (evaluatorCalls 7 run.1 run.2 : Int) = 3 := by
  intro run
  have state : ((buildRepository .memory).job? run.2.store.store 7).map
      (fun job => (job.status, job.errorMessage, job.maxAttempts)) =
      some (.failed, some EvaluationJob.timeoutMessage, 3) := by
    decide
  obtain ⟨job, stored, same⟩ := Option.map_eq_some_iff.mp state
  simp only [Prod.mk.injEq] at same
  obtain ⟨failed, message, attempts⟩ := same
  have reached : SystemReaches (buildRepository .memory) Evaluator.arbitrary 300 run.1 run.2 :=
    run_execute (fun _ => .ok demoResult) (fun _ => trivial) (.idle (.initial _)) exhaustedSchedule
  obtain ⟨-, -, counts⟩ :=
    evaluator_calls_within_attempts .memory Evaluator.arbitrary 300 _ _ reached.unreliable 7
  rw [((counts job stored).2.2 reached).timedOut failed message, attempts]

end EvaluationService
