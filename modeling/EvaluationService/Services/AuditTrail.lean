import EvaluationService.Services.Accounting

/-!
The audit trail of a job. The recorder is append-only, so that the events of one job are
its history as the service tells it: it was queued, it was run so many times, and it ended
one way or not at all. In every state of every run the trail says what the store says, but
for a failure that `recover_stale_running` brings about. The runs it tells of are the
evaluations of the job, and the attempts that the budget allows bound them.
-/

set_option autoImplicit false

namespace EvaluationService

open Foundation

/-! ## What a trail says of a job -/

/-- The jobs and the types of the recorded events. -/
def audited (telemetry : List Emission) : List (UUID × String) :=
  (auditEvents telemetry).map fun event => (event.jobId, event.eventType)

def trailOf (jobId : UUID) (entries : List (UUID × String)) : List String :=
  (entries.filter (·.1 = jobId)).map Prod.snd

namespace EvaluationJob

/-- How the trail of a job ends; a job that timed out has no last event. -/
def ending (job : EvaluationJob) : List String :=
  match job.status with
  | .queued | .running => []
  | .succeeded => ["evaluation.job_succeeded"]
  | .failed => if job.errorMessage = some timeoutMessage then [] else ["evaluation.job_failed"]

/-- A job was started once for every attempt, and once more by a call of `process`, which
takes no attempt; only a job without attempts left times out. -/
structure StartedTimes (job : EvaluationJob) (starts : Nat) : Prop where
  atLeast : job.attemptCount ≤ starts
  atMost : starts ≤ job.attemptCount + 1
  withinBudget : starts ≤ job.maxAttempts
  queued : job.status = .queued → starts = job.attemptCount
  running : job.status = .running →
    starts = job.attemptCount + if job.claimedAt.isSome then 0 else 1
  timedOut : job.status = .failed → job.errorMessage = some timeoutMessage →
    starts = job.maxAttempts
  failed : job.status = .failed →
    job.errorMessage = some timeoutMessage ∨ job.errorMessage = some ServiceState.failureMessage

end EvaluationJob

inductive AuditTrail : Option EvaluationJob → List String → Prop where
  | absent : AuditTrail none []
  | stored {job : EvaluationJob} {starts : Nat} : job.StartedTimes starts →
      AuditTrail (some job) ("evaluation.job_queued" ::
        (List.replicate starts "evaluation.job_running" ++ job.ending))

@[simp] theorem audited_nil : audited [] = [] := rfl

@[simp] theorem audited_append (first second : List Emission) :
    audited (first ++ second) = audited first ++ audited second := by
  simp [audited]

@[simp] theorem trailOf_nil (jobId : UUID) : trailOf jobId [] = [] := rfl

@[simp] theorem trailOf_append (jobId : UUID) (first second : List (UUID × String)) :
    trailOf jobId (first ++ second) = trailOf jobId first ++ trailOf jobId second := by
  simp [trailOf]

@[simp] theorem trailOf_singleton (jobId : UUID) (eventType : String) :
    trailOf jobId [(jobId, eventType)] = [eventType] := by
  simp [trailOf]

theorem trailOf_singleton_of_ne {jobId other : UUID} (different : other ≠ jobId)
    (eventType : String) : trailOf jobId [(other, eventType)] = [] := by
  simp [trailOf, different]

/-! ## What a change of the job adds to its trail -/

namespace AuditTrail

variable {job : EvaluationJob} {trail : List String} {now : DateTime}

theorem created (submitted : job.Submitted) (trailed : AuditTrail none trail) :
    AuditTrail (some job) (trail ++ ["evaluation.job_queued"]) := by
  cases trailed
  have started : job.StartedTimes 0 := by
    have budget := submitted.budget
    have unattempted := submitted.unattempted
    constructor
    · omega
    · omega
    · omega
    · intro _
      omega
    · intro running
      rw [submitted.queued] at running
      cases running
    · intro failed
      rw [submitted.queued] at failed
      cases failed
    · intro failed
      rw [submitted.queued] at failed
      cases failed
  have trail := AuditTrail.stored started
  unfold EvaluationJob.ending at trail
  rw [submitted.queued] at trail
  exact trail

/-- A queued job is run once more. -/
theorem run {next : EvaluationJob} (trailed : AuditTrail (some job) trail)
    (queued : job.status = .queued) (running : next.status = .running)
    (started : ∀ starts, job.StartedTimes starts → next.StartedTimes (starts + 1)) :
    AuditTrail (some next) (trail ++ ["evaluation.job_running"]) := by
  cases trailed with
  | @stored _ starts times =>
      have after := AuditTrail.stored (started starts times)
      unfold EvaluationJob.ending at after ⊢
      rw [running, List.append_nil, List.replicate_succ'] at after
      rw [queued, List.append_nil]
      exact after

theorem claimed (trailed : AuditTrail (some job) trail) (claimable : job.Claimable) :
    AuditTrail (some (job.claimed now)) (trail ++ ["evaluation.job_running"]) := by
  obtain ⟨queued, budget⟩ := claimable
  refine trailed.run queued rfl ?_
  intro starts times
  have exactly := times.queued queued
  constructor <;> simp [EvaluationJob.claimed] <;> omega

theorem started (trailed : AuditTrail (some job) trail) (sound : job.Consistent)
    (queued : job.status = .queued) :
    AuditTrail (some (job.started now)) (trail ++ ["evaluation.job_running"]) := by
  refine trailed.run queued rfl ?_
  intro starts times
  have exactly := times.queued queued
  have budget := sound.queuedBudget queued
  have unclaimed := sound.queuedUnclaimed queued
  constructor <;> simp [EvaluationJob.started, unclaimed] <;> omega

/-- A job ends, with the event that tells of it. -/
theorem ended (next : EvaluationJob) (trailed : AuditTrail (some job) trail)
    (unfinished : job.status = .queued ∨ job.status = .running)
    (started : ∀ starts, job.StartedTimes starts → next.StartedTimes starts) :
    AuditTrail (some next) (trail ++ next.ending) := by
  cases trailed with
  | @stored _ starts times =>
      have unended : job.ending = [] := by
        unfold EvaluationJob.ending
        rcases unfinished with queued | running
        · rw [queued]
        · rw [running]
      rw [unended, List.append_nil]
      exact .stored (started starts times)

theorem succeeded {release : Option DateTime → Option DateTime} {result : EvaluationResult}
    (trailed : AuditTrail (some job) trail) (running : job.status = .running) :
    AuditTrail (some (job.succeeded release now result))
      (trail ++ ["evaluation.job_succeeded"]) := by
  refine trailed.ended (job.succeeded release now result) (.inr running) ?_
  intro starts times
  obtain ⟨atLeast, atMost, withinBudget, _, _, _, _⟩ := times
  constructor <;> simp_all [EvaluationJob.succeeded]

theorem failed {release : Option DateTime → Option DateTime}
    (trailed : AuditTrail (some job) trail)
    (unfinished : job.status = .queued ∨ job.status = .running) :
    AuditTrail (some (job.failed release now ServiceState.failureMessage))
      (trail ++ ["evaluation.job_failed"]) := by
  have differ : ServiceState.failureMessage ≠ EvaluationJob.timeoutMessage := by decide
  have ends : (job.failed release now ServiceState.failureMessage).ending =
      ["evaluation.job_failed"] := by
    simp [EvaluationJob.ending, EvaluationJob.failed, differ]
  rw [← ends]
  refine trailed.ended _ unfinished ?_
  intro starts times
  obtain ⟨atLeast, atMost, withinBudget, _, _, _, _⟩ := times
  constructor <;> simp_all [EvaluationJob.failed]

/-- A recovery adds nothing to the trail, also where it ends the job. -/
theorem recovered {cutoff : DateTime} (trailed : AuditTrail (some job) trail)
    (sound : job.Consistent) : AuditTrail (some (job.recovered cutoff now)) trail := by
  unfold EvaluationJob.recovered
  split
  · rename_i stale
    obtain ⟨running, claimedAt, claimed, _⟩ := stale
    have exactly : ∀ starts, job.StartedTimes starts → (starts : Int) = job.attemptCount := by
      intro starts times
      have counted := times.running running
      rwa [Option.mem_def.mp claimed, Option.isSome_some, if_pos rfl, add_zero] at counted
    split
    · rename_i exhausted
      have ends : (job.timedOut now).ending = [] := rfl
      have after := trailed.ended (job.timedOut now) (.inr running) (by
        intro starts times
        have counted := exactly starts times
        have budget := sound.withinBudget
        constructor <;> simp [EvaluationJob.timedOut] <;> omega)
      rwa [ends, List.append_nil] at after
    · rename_i spared
      have ends : (job.requeued now).ending = [] := rfl
      have after := trailed.ended (job.requeued now) (.inr running) (by
        intro starts times
        have counted := exactly starts times
        constructor <;> simp [EvaluationJob.requeued] <;> omega)
      rwa [ends, List.append_nil] at after
  · exact trailed

end AuditTrail

/-! ## What a call adds to the trails -/

/-- The event that is recorded for a call, by its reply. -/
def RepositoryCall.audit? : RepositoryCall → RepositoryReply → Option (UUID × String)
  | .create job, .job (.ok _) => some (job.jobId, "evaluation.job_queued")
  | .claimNextQueued, .claim (.ok (some job)) => some (job.jobId, "evaluation.job_running")
  | .setRunning jobId, .job (.ok _) => some (jobId, "evaluation.job_running")
  | .setSucceeded jobId _, .job (.ok _) => some (jobId, "evaluation.job_succeeded")
  | .setFailed jobId _, .job (.ok _) => some (jobId, "evaluation.job_failed")
  | _, _ => none

/-- The calls that the service makes: it creates submitted jobs and has one failure message. -/
structure RepositoryCall.OfService (call : RepositoryCall) : Prop where
  submits : ∀ job, call = .create job → job.Submitted
  fails : ∀ jobId message, call = .setFailed jobId message → message = ServiceState.failureMessage

theorem Submission.create_ofService (submission : Submission) :
    (RepositoryCall.create submission.job).OfService := by
  constructor
  · intro job create
    cases create
    exact submission.submitted
  · intro jobId message fails
    cases fails

section Calls

variable {release : Option DateTime → Option DateTime} {now : DateTime} {before after : Lookup}
variable {trails : UUID → List String}

/-- Only the trail of the job that the call is about grows. -/
theorem AuditTrail.update {changed : UUID} {next : EvaluationJob} {eventType : String}
    (trailed : ∀ jobId, AuditTrail (before jobId) (trails jobId))
    (grown : AuditTrail (some next) (trails changed ++ [eventType])) (jobId : UUID) :
    AuditTrail (Function.update before changed (some next) jobId)
      (trails jobId ++ trailOf jobId [(changed, eventType)]) := by
  by_cases same : jobId = changed
  · subst same
    rw [Function.update_self, trailOf_singleton]
    exact grown
  · rw [Function.update_of_ne same, trailOf_singleton_of_ne fun equal => same equal.symm,
      List.append_nil]
    exact trailed jobId

theorem AuditTrail.silent (trailed : ∀ jobId, AuditTrail (before jobId) (trails jobId))
    (jobId : UUID) : AuditTrail (before jobId) (trails jobId ++ trailOf jobId []) := by
  rw [trailOf_nil, List.append_nil]
  exact trailed jobId

theorem Effect.trailed {call : RepositoryCall} {reply : RepositoryReply}
    (effect : Effect release now before call reply after) (ofService : call.OfService)
    (consistent : ∀ jobId job, before jobId = some job → job.Consistent)
    (trailed : ∀ jobId, AuditTrail (before jobId) (trails jobId)) (jobId : UUID) :
    AuditTrail (after jobId) (trails jobId ++ trailOf jobId (call.audit? reply).toList) := by
  have current : ∀ {given job}, before given = some job → AuditTrail (some job) (trails given) := by
    intro given job stored
    rw [← stored]
    exact trailed given
  cases effect with
  | @create job free =>
      refine AuditTrail.update trailed (.created (ofService.submits job rfl) ?_) jobId
      rw [← free]
      exact trailed job.jobId
  | get =>
      generalize foundOr404 _ = found
      cases found <;> exact AuditTrail.silent trailed jobId
  | getForTenant =>
      generalize foundOr404 _ = found
      cases found <;> exact AuditTrail.silent trailed jobId
  | listRecent => exact AuditTrail.silent trailed jobId
  | claimNone => exact AuditTrail.silent trailed jobId
  | claim stored claimable _ => exact AuditTrail.update trailed ((current stored).claimed claimable) jobId
  | @recover cutoff _ _ _ =>
      have quiet := AuditTrail.silent trailed jobId
      dsimp only
      cases stored : before jobId with
      | none =>
          rw [stored] at quiet
          exact quiet
      | some job =>
          rw [stored] at quiet
          exact quiet.recovered (consistent jobId job stored)
  | start stored queued =>
      exact AuditTrail.update trailed ((current stored).started (consistent _ _ stored) queued) jobId
  | succeed stored running => exact AuditTrail.update trailed ((current stored).succeeded running) jobId
  | @fail failing job message stored unfinished =>
      have given := ofService.fails failing message rfl
      subst given
      exact AuditTrail.update trailed ((current stored).failed unfinished) jobId
  | @refuse call _ _ error _ _ =>
      have nothing : call.audit? (.job (.error error)) = none := by cases call <;> rfl
      rw [nothing]
      exact AuditTrail.silent trailed jobId

end Calls

/-! ## What a thread records -/

def Signal.audit? (call? : Option RepositoryCall) : Signal → Option (UUID × String)
  | .replied _ reply => call?.bind (·.audit? reply)
  | _ => none

theorem afterCreate_audited (now : DateTime) (job : EvaluationJob)
    (outcome : Except Exn EvaluationJob) :
    audited (afterCreate now job outcome).2 =
      ((RepositoryCall.create job).audit? (.job outcome)).toList := by
  cases outcome <;> rfl

/-- What a loop adds after its task is logged only. -/
theorem auditEvents_afterProcess (task : ServiceState) :
    auditEvents (WorkerPhase.afterProcess task).2 = [] := by
  cases task with
  | finished outcome => rcases outcome with _ | _ <;> rfl
  | _ => rfl

theorem ServiceState.Move.audited {state : ServiceState} {signal : Signal}
    {after : ServiceState × List Emission} (move : state.Move signal after) :
    audited after.2 = (signal.audit? state.call?).toList := by
  cases move with
  | @loaded _ _ outcome => cases outcome <;> rfl
  | @started _ _ _ outcome => cases outcome <;> rfl
  | @scored _ _ outcome => cases outcome <;> rfl
  | @succeeded _ _ _ _ outcome => cases outcome <;> rfl
  | @failed _ _ _ _ outcome => cases outcome <;> rfl

theorem WorkerPhase.Move.audited {staleJobSeconds : Int} {stopping : Bool} {phase : WorkerPhase}
    {signal : Signal} {after : WorkerPhase × List Emission}
    (move : phase.Move staleJobSeconds stopping signal after) :
    audited after.2 = (signal.audit? phase.call?).toList := by
  cases move with
  | stopped _ => rfl
  | polled _ => rfl
  | @recovered _ _ outcome => rcases outcome with _ | _ | _ <;> rfl
  | @claimed now outcome => rcases outcome with _ | _ | job <;> rfl
  | slept => rfl
  | @processed task _ after advanced =>
      have quiet : EvaluationService.audited (afterProcess after.1).2 = [] :=
        congrArg (List.map _) (auditEvents_afterProcess after.1)
      have same := advanced.audited
      change EvaluationService.audited (after.2 ++ (afterProcess after.1).2) = _
      rw [audited_append, quiet, List.append_nil]
      exact same

theorem Thread.next_audited {staleJobSeconds : Int} {thread : Thread} {signal : Signal}
    {after : Thread × List Emission} (ran : thread.next staleJobSeconds signal = some after) :
    audited after.2 = (signal.audit? thread.call?).toList := by
  cases Thread.move_of_next ran with
  | service move => exact move.audited
  | loop move => exact move.audited
  | stop => rfl

theorem Thread.call?_ofService {thread : Thread} {call : RepositoryCall}
    (waits : thread.call? = some call) : call.OfService := by
  constructor
  · intro job create
    exact absurd create (Thread.call?_ne_create waits job)
  · intro jobId message fails
    subst fails
    rcases Thread.call?_cases waits with ⟨task, _, calls⟩ | ⟨cutoff, recovers⟩ | claims
    · cases task <;> cases calls
      rfl
    · cases recovers
    · cases claims

/-! ## The trails in every state -/

def World.Trailed {repository : JobRepository} (world : World repository) : Prop :=
  ∀ jobId, AuditTrail (repository.job? world.store jobId) (trailOf jobId (audited world.telemetry))

section Runs

variable {repository : JobRepository} {release : Option DateTime → Option DateTime}
variable {evaluator : EvaluatorBehavior} {staleJobSeconds : Int} {world next : World repository}
variable {thread following : Thread} {signal : Signal}

theorem World.Trailed.effect {now : DateTime} {call : RepositoryCall} {reply : RepositoryReply}
    {emitted : List Emission} (trailed : world.Trailed)
    (consistent : ∀ jobId job, repository.job? world.store jobId = some job → job.Consistent)
    (effect : Effect release now (repository.job? world.store) call reply
      (repository.job? next.store))
    (ofService : call.OfService) (emits : next.telemetry = world.telemetry ++ emitted)
    (records : audited emitted = (call.audit? reply).toList) : next.Trailed := by
  intro jobId
  rw [emits, audited_append, records, trailOf_append]
  exact effect.trailed ofService consistent trailed jobId

theorem World.Trailed.unchanged {emitted : List Emission} (trailed : world.Trailed)
    (same : next.store = world.store) (emits : next.telemetry = world.telemetry ++ emitted)
    (quiet : audited emitted = []) : next.Trailed := by
  intro jobId
  rw [same, emits, audited_append, quiet, List.append_nil]
  exact trailed jobId

theorem World.Trailed.step (implements : Implements repository release)
    {pool target : Pool (World repository) Thread} {event : SystemEvent}
    (trailed : pool.store.Trailed)
    (consistent : ∀ jobId job, repository.job? pool.store.store jobId = some job → job.Consistent)
    (stepped : (system repository evaluator staleJobSeconds).Step pool event target) :
    target.store.Trailed := by
  cases stepped with
  | @arrive submission _ submits =>
      obtain ⟨fresh, outcome, stepped, _, emits⟩ := submits
      have effect := implements.step (by intro job create; cases create; exact fresh) stepped
      exact trailed.effect consistent effect submission.create_ofService emits
        (afterCreate_audited _ _ outcome)
  | start _ starts =>
      rcases starts with ⟨_, _, rfl⟩ | ⟨_, rfl⟩
      · exact trailed
      · exact trailed.unchanged rfl rfl rfl
  | @act _ signal _ _ _ found acts =>
      obtain ⟨after, ran, _, heard, _, emits⟩ := acts
      have records := Thread.next_audited ran
      cases signal with
      | replied now reply =>
          obtain ⟨call, waits, stepped⟩ := heard
          have created := Thread.call?_ne_create waits
          have effect := implements.step (fun job create => absurd create (created job)) stepped
          rw [Signal.audit?, waits] at records
          exact trailed.effect consistent effect (Thread.call?_ofService waits) emits records
      | scored _ => exact trailed.unchanged heard.1 emits records
      | resumed _ => exact trailed.unchanged heard emits records
      | stop => exact trailed.unchanged heard emits records

theorem SystemReaches.consistent (implements : Implements repository release)
    {trace : SystemTrace repository} {pool : Pool (World repository) Thread}
    (reached : SystemReaches repository evaluator staleJobSeconds trace pool)
    (jobId : UUID) (job : EvaluationJob)
    (stored : repository.job? pool.store.store jobId = some job) : job.Consistent := by
  obtain ⟨history, inHistory⟩ := reached.history
  exact inHistory.consistent implements stored

theorem SystemReaches.trailed (implements : Implements repository release)
    {trace : SystemTrace repository} {pool : Pool (World repository) Thread}
    (reached : SystemReaches repository evaluator staleJobSeconds trace pool) :
    pool.store.Trailed := by
  unfold SystemReaches at reached
  induction reached with
  | nil =>
      intro jobId
      have absent : repository.job? (World.initial repository).store jobId = none :=
        implements.empty jobId
      change AuditTrail (repository.job? (World.initial repository).store jobId) []
      rw [absent]
      exact .absent
  | snoc prior stepped ih =>
      exact ih.step implements (SystemReaches.consistent implements prior) stepped

end Runs

/-- In the process of the in-memory repository, where a call is told of its outcome before
any other runs, the events of a job are its history in order: it was queued, it was run as
often as the store says and no more often than its budget, and its outcome is the last
event, unless it is the time-out. -/
theorem audit_trail (evaluator : EvaluatorBehavior) (staleJobSeconds : Int)
    (trace : SystemTrace (buildRepository .memory))
    (pool : Pool (World (buildRepository .memory)) Thread)
    (reached : SystemReaches (buildRepository .memory) evaluator staleJobSeconds trace pool)
    (jobId : UUID) :
    AuditTrail ((buildRepository .memory).job? pool.store.store jobId)
      (trailOf jobId (audited pool.store.telemetry)) :=
  reached.trailed (buildRepository_implements .memory) jobId

/-- Three workers lose the job, and a fourth one times it out: it was run three times, and its
trail does not end. -/
theorem audit_trail_exhausted :
    let world := (execute (buildRepository .memory) (fun _ => .ok demoResult) 300
      (.idle (.initial _)) exhaustedSchedule).2.store
    ∃ job, (buildRepository .memory).job? world.store 7 = some job ∧ job.status = .failed ∧
      AuditTrail (some job) ["evaluation.job_queued", "evaluation.job_running",
        "evaluation.job_running", "evaluation.job_running"] := by
  intro world
  have trail := audit_trail Evaluator.arbitrary 300 _ _
    (run_execute (fun _ => .ok demoResult) (fun _ => trivial) (.idle (.initial _))
      exhaustedSchedule) 7
  have failed : ((buildRepository .memory).job? world.store 7).map (·.status) = some .failed := by
    decide
  have events : trailOf 7 (audited world.telemetry) = ["evaluation.job_queued",
      "evaluation.job_running", "evaluation.job_running", "evaluation.job_running"] := by decide
  obtain ⟨job, stored, status⟩ := Option.map_eq_some_iff.mp failed
  rw [stored, events] at trail
  exact ⟨job, stored, status, trail⟩

/-! ## Whose tenant an event names -/

/-- The event is about a stored job and names the tenant and the project of that job. -/
def AuditEvent.Names (store : Lookup) (event : AuditEvent) : Prop :=
  ∃ job, store event.jobId = some job ∧ event.tenantId = job.tenantId ∧
    event.projectId = job.projectId

def World.Attributed {repository : JobRepository} (world : World repository) : Prop :=
  ∀ event ∈ auditEvents world.telemetry, event.Names (repository.job? world.store)

theorem AuditEvent.Names.stable {before after : Lookup} {event : AuditEvent}
    (names : event.Names before) (keeps : KeepsSubmissions before after) : event.Names after := by
  obtain ⟨job, stored, tenant, project⟩ := names
  obtain ⟨next, kept, same⟩ := keeps event.jobId job stored
  exact ⟨next, kept, tenant.trans same.tenantId.symm, project.trans same.projectId.symm⟩

theorem Holding.names {store : Lookup} {jobId : UUID} {held : EvaluationJob}
    (holding : Holding store jobId held) (eventType : String) (createdAt : DateTime)
    (metadata : Fields) :
    AuditEvent.Names store ⟨eventType, held.tenantId, held.projectId, jobId, createdAt, metadata⟩ := by
  obtain ⟨current, stored, same⟩ := holding
  exact ⟨current, stored, same.tenantId.symm, same.projectId.symm⟩

section Attribution

variable {repository : JobRepository} {release : Option DateTime → Option DateTime}
variable {evaluator : EvaluatorBehavior} {staleJobSeconds : Int} {world next : World repository}
variable {thread following : Thread} {signal : Signal}

theorem Holding.jobId_eq (implements : Implements repository release) {store : repository.State}
    {jobId : UUID} {held : EvaluationJob} (holding : Holding (repository.job? store) jobId held) :
    held.jobId = jobId := by
  obtain ⟨current, stored, same⟩ := holding
  exact same.jobId.symm.trans (implements.identified stored)

/-- A call of the service names the tenant of its own copy of the job, or of the job that
`set_succeeded` returned. -/
theorem ServiceState.Move.names (implements : Implements repository release)
    {state : ServiceState} {moved : ServiceState × List Emission} {store after : repository.State}
    (move : state.Move signal moved) (sound : state.Sound evaluator (repository.job? store))
    (keeps : KeepsSubmissions (repository.job? store) (repository.job? after))
    (heard : Heard repository evaluator state.call? state.scoring? store signal after) :
    ∀ event ∈ auditEvents moved.2, event.Names (repository.job? after) := by
  intro event member
  cases move with
  | @loaded _ _ outcome => cases outcome <;> cases member
  | @started jobId job now outcome =>
      cases outcome with
      | error _ => cases member
      | ok _ =>
          cases List.mem_singleton.mp member
          exact (Holding.stable sound keeps).names _ _ _
  | @scored _ _ outcome => cases outcome <;> cases member
  | @succeeded jobId job result now outcome =>
      cases outcome with
      | error _ => cases member
      | ok updated =>
          cases List.mem_singleton.mp member
          obtain ⟨call, waits, effect⟩ := heard.effect implements
          cases waits
          obtain ⟨⟨current, stored, _⟩, _⟩ := sound
          rcases effect.setSucceeded stored with ⟨_, replied, changed⟩ | ⟨_, refused, _⟩
          · cases replied
            rw [changed]
            exact ⟨_, Function.update_self _ _ _, rfl, rfl⟩
          · cases refused
  | @failed jobId job error now outcome =>
      cases outcome with
      | error _ => cases member
      | ok _ =>
          cases List.mem_singleton.mp member
          have holding := Holding.stable sound keeps
          rw [holding.jobId_eq implements]
          exact holding.names _ _ _

theorem WorkerPhase.Move.names (implements : Implements repository release)
    {phase : WorkerPhase} {stopping : Bool} {moved : WorkerPhase × List Emission}
    {store after : repository.State} (move : phase.Move staleJobSeconds stopping signal moved)
    (sound : ∀ task, phase = .processing task → task.Sound evaluator (repository.job? store))
    (keeps : KeepsSubmissions (repository.job? store) (repository.job? after))
    (heard : Heard repository evaluator phase.call? phase.scoring? store signal after) :
    ∀ event ∈ auditEvents moved.2, event.Names (repository.job? after) := by
  intro event member
  cases move with
  | stopped _ | polled _ | slept => cases member
  | @recovered _ _ outcome => rcases outcome with _ | _ | _ <;> cases member
  | @claimed now outcome =>
      rcases outcome with _ | _ | job
      · cases member
      · cases member
      · cases List.mem_singleton.mp member
        have effect := heard.effect_of_call implements rfl (by rintro _ ⟨⟩)
        exact ⟨job, effect.claim_stored, rfl, rfl⟩
  | @processed task _ after advanced =>
      refine advanced.names implements (sound task rfl) keeps heard event ?_
      change event ∈ auditEvents (after.2 ++ (afterProcess after.1).2) at member
      rwa [auditEvents_append, auditEvents_afterProcess, List.append_nil] at member

theorem Thread.next_names (implements : Implements repository release)
    {after : Thread × List Emission} {next : repository.State}
    (ran : thread.next staleJobSeconds signal = some after) (sound : thread.Sound evaluator world)
    (keeps : KeepsSubmissions (repository.job? world.store) (repository.job? next))
    (heard : Heard repository evaluator thread.call? thread.scoring? world.store signal next) :
    ∀ event ∈ auditEvents after.2, event.Names (repository.job? next) := by
  cases Thread.move_of_next ran with
  | service move => exact move.names implements (sound _ rfl) keeps heard
  | loop move =>
      refine move.names implements ?_ keeps heard
      rintro task rfl
      exact sound task rfl
  | stop =>
      intro event member
      cases member

theorem World.Attributed.extend {emitted : List Emission} (attributed : world.Attributed)
    (keeps : KeepsSubmissions (repository.job? world.store) (repository.job? next.store))
    (emits : next.telemetry = world.telemetry ++ emitted)
    (names : ∀ event ∈ auditEvents emitted, event.Names (repository.job? next.store)) :
    next.Attributed := by
  intro event member
  rw [emits, auditEvents_append] at member
  rcases List.mem_append.mp member with earlier | last
  · exact (attributed event earlier).stable keeps
  · exact names event last

theorem SystemReaches.attributed (implements : Implements repository release)
    {trace : SystemTrace repository} {pool : Pool (World repository) Thread}
    (reached : SystemReaches repository evaluator staleJobSeconds trace pool) :
    pool.store.Attributed := by
  unfold SystemReaches at reached
  induction reached with
  | nil =>
      intro event member
      cases member
  | @snoc trace pool target event prior stepped ih =>
      have sound := (SystemReaches.holds implements prior).2
      cases stepped with
      | @arrive submission _ submits =>
          obtain ⟨outcome, operates⟩ := World.Submits.operates submits
          have stored := (implements.operates operates).create_stored
          obtain ⟨-, outcome, -, -, emits⟩ := submits
          refine ih.extend (keepsSubmissions_of_operates implements operates) emits ?_
          intro event member
          cases outcome with
          | error _ => cases member
          | ok job =>
              cases List.mem_singleton.mp member
              exact ⟨submission.job, stored, rfl, rfl⟩
      | start _ starts =>
          rcases starts with ⟨_, _, rfl⟩ | ⟨_, rfl⟩
          · exact ih
          · exact ih.extend (.refl _) rfl (by intro event member; cases member)
      | act found acts =>
          have keeps := World.Acts.keeps implements acts
          obtain ⟨after, ran, -, heard, -, emits⟩ := acts
          exact ih.extend keeps emits
            (Thread.next_names implements ran (sound _ _ found) keeps heard)

end Attribution

/-- Every audit event is about a stored job and names its tenant and its project, in every run. -/
theorem audit_attribution (backend : StorageBackend) (evaluator : EvaluatorBehavior)
    (staleJobSeconds : Int) (trace : SystemTrace (buildRepository backend))
    (pool : Pool (World (buildRepository backend)) Thread)
    (reached : SystemReaches (buildRepository backend) evaluator staleJobSeconds trace pool)
    (event : AuditEvent) (recorded : event ∈ auditEvents pool.store.telemetry) :
    event.Names ((buildRepository backend).job? pool.store.store) :=
  reached.attributed (buildRepository_implements backend) event recorded

theorem audit_attribution_exhausted :
    let world := (execute (buildRepository .memory) (fun _ => .ok demoResult) 300
      (.idle (.initial _)) exhaustedSchedule).2.store
    ∃ event ∈ auditEvents world.telemetry, event.eventType = "evaluation.job_running" ∧
      event.Names ((buildRepository .memory).job? world.store) := by
  intro world
  have some : (auditEvents world.telemetry)[1]? =
      some ⟨"evaluation.job_running", "tenant-a", "project-a", 7, 2, []⟩ := by
    decide
  have member := List.mem_of_getElem? some
  exact ⟨_, member, rfl, audit_attribution .memory Evaluator.arbitrary 300 _ _
    (run_execute (fun _ => .ok demoResult) (fun _ => trivial) (.idle (.initial _))
      exhaustedSchedule) _ member⟩

end EvaluationService
