import EvaluationService.Core.Metrics
import EvaluationService.Foundation.Ledger
import EvaluationService.Services.SystemProperties

/-!
Outcome accounting. A job that succeeds or fails is to be counted once in the metrics and
audited once. The service does so for every outcome that it brings about itself; the
outcome that `recover_stale_running` brings about, the failure of a stale job whose
attempts are used up, is recorded by nobody.
-/

set_option autoImplicit false

namespace EvaluationService

open Foundation

/-! ## What the metrics count -/

/-- An emission is recorded in the registry; durations and queue depths are as measured. -/
inductive Emission.Records (registry : MetricsRegistry) : Emission → MetricsRegistry → Prop where
  | span {name : String} {attributes : Fields} : Records registry (.span name attributes) registry
  | audit {event : AuditEvent} : Records registry (.audit event) registry
  | log {record : LogRecord} : Records registry (.log record) registry
  | jobStatus {status : JobStatus} :
      Records registry (.jobStatus status) (registry.recordJobStatus status.value)
  | scoringDuration {seconds : ℚ} :
      Records registry .scoringDuration (registry.recordScoringDuration seconds)
  | recoveredJobs {count : Nat} :
      Records registry (.recoveredJobs count) (registry.recordWorkerRecoveredJobs count)
  | enqueued {jobId : UUID} {depth : Int} :
      Records registry (.enqueued jobId) (registry.recordQueueDepth depth)

/-- The registries that the service's emissions may lead to, between any HTTP requests. -/
inductive Recorded : List Emission → MetricsRegistry → Prop where
  | empty : Recorded [] .empty
  | emitted {telemetry : List Emission} {emission : Emission} {registry next : MetricsRegistry} :
      Recorded telemetry registry → emission.Records registry next →
      Recorded (telemetry ++ [emission]) next
  | request {telemetry : List Emission} {registry : MetricsRegistry} {method route : String}
      {statusCode : Nat} {seconds : ℚ} :
      Recorded telemetry registry →
      Recorded telemetry (registry.recordHttpRequest method route statusCode seconds)

def jobsTotal (status : JobStatus) : MetricKey :=
  ("evaluation_jobs_total", MetricsRegistry.labelSet [("status", status.value)])

theorem jobsTotal_inj {status other : JobStatus} (same : jobsTotal status = jobsTotal other) :
    status = other := by
  have labels : [("status", status.value)] = [("status", other.value)] := by
    simpa [jobsTotal, MetricsRegistry.labelSet, sortBy] using congrArg Prod.snd same
  have values : status.value = other.value := by simpa using labels
  rw [← Option.some_inj, ← JobStatus.ofValue?_value, values, JobStatus.ofValue?_value]

theorem value_increment_of_name {registry : MetricsRegistry} {name : String}
    {labels : List (String × String)} {amount : ℚ} {key : MetricKey} (other : key.1 ≠ name) :
    (registry.increment name labels amount).value key = registry.value key := by
  rw [MetricsRegistry.value_increment, if_neg fun same => other (congrArg Prod.fst same), add_zero]

theorem value_observeDuration_of_name {registry : MetricsRegistry} {name : String} {seconds : ℚ}
    {labels : List (String × String)} {key : MetricKey} (count : key.1 ≠ name ++ "_count")
    (sum : key.1 ≠ name ++ "_sum") :
    (registry.observeDuration name seconds labels).value key = registry.value key := by
  rw [MetricsRegistry.observeDuration, value_increment_of_name sum, value_increment_of_name count]

theorem Emission.Records.value_jobsTotal {registry next : MetricsRegistry} {emission : Emission}
    (records : emission.Records registry next) (status : JobStatus) :
    next.value (jobsTotal status) =
      registry.value (jobsTotal status) + (emission.jobStatus?.toList.count status : ℚ) := by
  cases records with
  | span => simp
  | audit => simp
  | log => simp
  | @jobStatus given =>
      rw [MetricsRegistry.recordJobStatus, MetricsRegistry.value_increment]
      by_cases same : given = status
      · subst same
        simp [jobsTotal]
      · have other : jobsTotal status ≠ ("evaluation_jobs_total",
            MetricsRegistry.labelSet [("status", given.value)]) :=
          fun equal => same (@jobsTotal_inj given status equal.symm)
        simp [other, same]
  | scoringDuration =>
      rw [MetricsRegistry.recordScoringDuration,
        value_observeDuration_of_name (by simp [jobsTotal]) (by simp [jobsTotal])]
      simp
  | recoveredJobs =>
      rw [MetricsRegistry.recordWorkerRecoveredJobs, value_increment_of_name (by simp [jobsTotal])]
      simp
  | enqueued =>
      rw [MetricsRegistry.recordQueueDepth, MetricsRegistry.setGauge, MetricsRegistry.value_set,
        if_neg fun same => absurd (congrArg Prod.fst same) (by simp [jobsTotal])]
      simp

/-- The counter of a status is the number of times that the status was recorded. -/
theorem Recorded.value_jobsTotal {telemetry : List Emission} {registry : MetricsRegistry}
    (recorded : Recorded telemetry registry) (status : JobStatus) :
    registry.value (jobsTotal status) = ((recordedStatuses telemetry).count status : ℚ) := by
  induction recorded with
  | empty => simp
  | emitted _ records ih =>
      rw [records.value_jobsTotal, ih, recordedStatuses_append, List.count_append]
      simp
  | request _ ih =>
      rw [MetricsRegistry.recordHttpRequest,
        value_observeDuration_of_name (by simp [jobsTotal]) (by simp [jobsTotal]),
        value_increment_of_name (by simp [jobsTotal]), ih]

theorem exists_recorded (telemetry : List Emission) : ∃ registry, Recorded telemetry registry := by
  induction telemetry using List.reverseRecOn with
  | nil => exact ⟨_, .empty⟩
  | append_singleton earlier emission ih =>
      obtain ⟨registry, recorded⟩ := ih
      cases emission with
      | span _ _ => exact ⟨_, .emitted recorded .span⟩
      | audit _ => exact ⟨_, .emitted recorded .audit⟩
      | log _ => exact ⟨_, .emitted recorded .log⟩
      | jobStatus _ => exact ⟨_, .emitted recorded .jobStatus⟩
      | scoringDuration => exact ⟨_, .emitted recorded (@Emission.Records.scoringDuration registry 0)⟩
      | recoveredJobs _ => exact ⟨_, .emitted recorded .recoveredJobs⟩
      | enqueued _ => exact ⟨_, .emitted recorded (@Emission.Records.enqueued registry _ 0)⟩

/-! ## What the store holds and what is reported of it -/

/-- A terminal status is an outcome. -/
def JobStatus.outcome? : JobStatus → Option JobStatus
  | .queued | .running => none
  | .succeeded => some .succeeded
  | .failed => some .failed

def outcome? (store : Lookup) (jobId : UUID) : Option JobStatus :=
  (store jobId).bind (·.status.outcome?)

/-- The job and the outcome that an audit event reports. -/
def AuditEvent.outcome? (event : AuditEvent) : Option (UUID × JobStatus) :=
  if event.eventType = "evaluation.job_succeeded" then some (event.jobId, .succeeded)
  else if event.eventType = "evaluation.job_failed" then some (event.jobId, .failed)
  else none

def auditedOutcomes (telemetry : List Emission) : List (UUID × JobStatus) :=
  (auditEvents telemetry).filterMap AuditEvent.outcome?

/-- The counters are the numbers of stored jobs with an outcome, and a job has one terminal
audit event, with its outcome, or none if it has no outcome. -/
structure Accounted (repository : JobRepository) (world : World repository)
    (registry : MetricsRegistry) : Prop where
  counted : ∀ status, status.Terminal →
    let stored := {jobId | ∃ job, repository.job? world.store jobId = some job ∧ job.status = status}
    stored.Finite ∧ registry.value (jobsTotal status) = (stored.ncard : ℚ)
  audited : ∀ jobId, ((auditedOutcomes world.telemetry).filter (·.1 = jobId)).map Prod.snd =
    (outcome? (repository.job? world.store) jobId).toList

def Quiescent {repository : JobRepository} (pool : Pool (World repository) Thread) : Prop :=
  ∀ index thread, pool.threads index = some thread → thread.call? = none ∧ thread.scoring? = none

/-- The outcomes are accounted for whenever no call is in flight. -/
def AccountsForOutcomes (repository : JobRepository) : Prop :=
  ∀ evaluator staleJobSeconds trace pool registry,
    SystemReaches repository evaluator staleJobSeconds trace pool → Quiescent pool →
    Recorded pool.store.telemetry registry → Accounted repository pool.store registry

def RepositoryCall.cutoff? : RepositoryCall → Option DateTime
  | .recoverStaleRunning cutoff => some cutoff
  | _ => none

/-- The cutoff of the recovery that a step makes, if it makes one. -/
def recovery? {repository : JobRepository}
    (taken : Transition (Pool (World repository) Thread) SystemEvent) : Option DateTime :=
  match taken.event with
  | .act index (.replied _ _) =>
      ((taken.source.threads index).bind Thread.call?).bind RepositoryCall.cutoff?
  | _ => none

/-- A recovery finds no stale job whose attempts are used up. -/
def SparesExhausted {repository : JobRepository}
    (taken : Transition (Pool (World repository) Thread) SystemEvent) : Prop :=
  ∀ cutoff, recovery? taken = some cutoff →
    ∀ jobId job, repository.job? taken.source.store.store jobId = some job → job.Stale cutoff →
      job.attemptCount < job.maxAttempts

/-! ## Calls that bring about an outcome -/

def RepositoryCall.outcome? : RepositoryCall → Option (UUID × JobStatus)
  | .setSucceeded jobId _ => some (jobId, .succeeded)
  | .setFailed jobId _ => some (jobId, .failed)
  | _ => none

/-- What a call has brought about, by its reply. -/
def RepositoryCall.settled? (call : RepositoryCall) : RepositoryReply → Option (UUID × JobStatus)
  | .job (.ok _) => call.outcome?
  | _ => none

def RepositoryCall.Spares (before : Lookup) (call : RepositoryCall) : Prop :=
  ∀ cutoff, call = .recoverStaleRunning cutoff →
    ∀ jobId job, before jobId = some job → job.Stale cutoff → job.attemptCount < job.maxAttempts

section Settling

variable {release : Option DateTime → Option DateTime} {now : DateTime} {before after : Lookup}
variable {jobId : UUID} {job current : EvaluationJob}

theorem outcome?_update (store : Lookup) (jobId : UUID) (job : EvaluationJob) :
    outcome? (Function.update store jobId (some job)) =
      Function.update (outcome? store) jobId job.status.outcome? := by
  funext other
  by_cases same : other = jobId
  · subst same
    simp [outcome?]
  · simp [outcome?, same]

theorem outcome?_update_of_same (store : Lookup) (jobId : UUID) (job : EvaluationJob)
    (same : job.status.outcome? = outcome? store jobId) :
    outcome? (Function.update store jobId (some job)) = outcome? store := by
  rw [outcome?_update, same, Function.update_eq_self]

theorem outcome?_of_unfinished (stored : before jobId = some job)
    (unfinished : job.status = .queued ∨ job.status = .running) : outcome? before jobId = none := by
  unfold outcome?
  rw [stored]
  rcases unfinished with queued | running
  · simp [queued, JobStatus.outcome?]
  · simp [running, JobStatus.outcome?]

theorem outcome?_recovered (cutoff now : DateTime) (job : EvaluationJob)
    (spared : job.Stale cutoff → job.attemptCount < job.maxAttempts) :
    (job.recovered cutoff now).status.outcome? = job.status.outcome? := by
  unfold EvaluationJob.recovered
  split
  · rename_i stale
    rw [if_neg (not_le.mpr (spared stale)), stale.1]
    rfl
  · rfl

/-- A call brings about the outcome that its reply tells of, and no other. -/
theorem Effect.enters {call : RepositoryCall} {reply : RepositoryReply}
    (effect : Effect release now before call reply after)
    (queued : ∀ job, call = .create job → job.status = .queued) (spares : call.Spares before) :
    Enters (outcome? before) (call.settled? reply) (outcome? after) := by
  cases effect with
  | @create created free =>
      refine outcome?_update_of_same _ _ _ ?_
      rw [queued created rfl, outcome?, free]
      rfl
  | get =>
      unfold RepositoryCall.settled?
      split <;> rfl
  | getForTenant =>
      unfold RepositoryCall.settled?
      split <;> rfl
  | listRecent => rfl
  | claimNone => rfl
  | claim stored claimable _ =>
      refine outcome?_update_of_same _ _ _ ?_
      rw [outcome?_of_unfinished stored (.inl claimable.1)]
      rfl
  | @recover cutoff _ _ _ =>
      funext jobId
      unfold outcome?
      dsimp only
      cases stored : before jobId with
      | none => rfl
      | some job => exact outcome?_recovered cutoff now job (spares cutoff rfl jobId job stored)
  | start stored isQueued =>
      refine outcome?_update_of_same _ _ _ ?_
      rw [outcome?_of_unfinished stored (.inl isQueued)]
      rfl
  | succeed stored running =>
      exact ⟨outcome?_of_unfinished stored (.inr running), outcome?_update _ _ _⟩
  | fail stored unfinished =>
      exact ⟨outcome?_of_unfinished stored unfinished, outcome?_update _ _ _⟩
  | refuse _ _ => rfl

end Settling

/-! ## What a thread reports -/

/-- The emissions audit and count one outcome, or none. -/
structure Reports (emitted : List Emission) (settled : Option (UUID × JobStatus)) : Prop where
  audited : auditedOutcomes emitted = settled.toList
  counted : (recordedStatuses emitted).filterMap JobStatus.outcome? = settled.toList.map Prod.snd

@[simp] theorem auditedOutcomes_append (first second : List Emission) :
    auditedOutcomes (first ++ second) = auditedOutcomes first ++ auditedOutcomes second := by
  simp [auditedOutcomes]

theorem Reports.append {first second : List Emission} {settled : Option (UUID × JobStatus)}
    (reports : Reports first settled) (quiet : Reports second none) :
    Reports (first ++ second) settled := by
  constructor
  · rw [auditedOutcomes_append, reports.audited, quiet.audited]
    exact List.append_nil _
  · rw [recordedStatuses_append, List.filterMap_append, reports.counted, quiet.counted]
    exact List.append_nil _

def Signal.settled? (call? : Option RepositoryCall) : Signal → Option (UUID × JobStatus)
  | .replied _ reply => call?.bind (·.settled? reply)
  | _ => none

theorem afterCreate_reports (now : DateTime) (job : EvaluationJob)
    (outcome : Except Exn EvaluationJob) : Reports (afterCreate now job outcome).2 none := by
  cases outcome with
  | error _ => exact ⟨rfl, rfl⟩
  | ok _ => constructor <;> simp [afterCreate, createSpan, auditedOutcomes, AuditEvent.outcome?,
      JobStatus.outcome?]

theorem processClaimed_reports (now : DateTime) (job : EvaluationJob) :
    Reports (ServiceState.processClaimed now job).2 none := by
  constructor <;> simp [ServiceState.processClaimed, ServiceState.processSpan, auditedOutcomes,
    AuditEvent.outcome?]

theorem ServiceState.Move.reports {state : ServiceState} {signal : Signal}
    {after : ServiceState × List Emission} (move : state.Move signal after) :
    Reports after.2 (signal.settled? state.call?) := by
  cases move with
  | @loaded _ _ outcome => cases outcome <;> exact ⟨rfl, rfl⟩
  | @started jobId job now outcome =>
      cases outcome with
      | error _ => exact ⟨rfl, rfl⟩
      | ok _ => constructor <;> simp [afterSetRunning, auditedOutcomes, AuditEvent.outcome?,
          Signal.settled?, call?, RepositoryCall.settled?, RepositoryCall.outcome?]
  | @scored _ _ outcome => cases outcome <;> exact ⟨rfl, rfl⟩
  | @succeeded jobId job result now outcome =>
      cases outcome with
      | error _ => exact ⟨rfl, rfl⟩
      | ok _ => constructor <;> simp [afterSetSucceeded, auditedOutcomes, AuditEvent.outcome?,
          Signal.settled?, call?, RepositoryCall.settled?, RepositoryCall.outcome?,
          JobStatus.outcome?]
  | @failed jobId job error now outcome =>
      cases outcome with
      | error _ => exact ⟨rfl, rfl⟩
      | ok _ => constructor <;> simp [afterSetFailed, raised, auditedOutcomes, AuditEvent.outcome?,
          Signal.settled?, call?, RepositoryCall.settled?, RepositoryCall.outcome?,
          JobStatus.outcome?]

theorem afterProcess_reports (state : ServiceState) :
    Reports (WorkerPhase.afterProcess state).2 none := by
  cases state with
  | finished outcome => rcases outcome with _ | _ <;> exact ⟨rfl, rfl⟩
  | _ => exact ⟨rfl, rfl⟩

theorem WorkerPhase.Move.reports {staleJobSeconds : Int} {stopping : Bool} {phase : WorkerPhase}
    {signal : Signal} {after : WorkerPhase × List Emission}
    (move : phase.Move staleJobSeconds stopping signal after) :
    Reports after.2 (signal.settled? phase.call?) := by
  cases move with
  | stopped _ => exact ⟨rfl, rfl⟩
  | polled _ => exact ⟨rfl, rfl⟩
  | @recovered _ _ outcome => rcases outcome with _ | _ | _ <;> exact ⟨rfl, rfl⟩
  | @claimed now outcome =>
      rcases outcome with _ | _ | job
      · exact ⟨rfl, rfl⟩
      · exact ⟨rfl, rfl⟩
      · exact processClaimed_reports now job
  | slept => exact ⟨rfl, rfl⟩
  | @processed _ _ after advanced => exact advanced.reports.append (afterProcess_reports after.1)

theorem Thread.next_reports {staleJobSeconds : Int} {thread : Thread} {signal : Signal}
    {after : Thread × List Emission} (ran : thread.next staleJobSeconds signal = some after) :
    Reports after.2 (signal.settled? thread.call?) := by
  cases Thread.move_of_next ran with
  | service move => exact move.reports
  | loop move => exact move.reports
  | stop => exact ⟨rfl, rfl⟩

/-! ## Whole runs -/

/-- The audit events account for the stored outcomes, and the counters for the audit events. -/
structure World.Ledgered {repository : JobRepository} (world : World repository) : Prop where
  accounts : Accounts (auditedOutcomes world.telemetry) (outcome? (repository.job? world.store))
  counted : (recordedStatuses world.telemetry).filterMap JobStatus.outcome? =
    (auditedOutcomes world.telemetry).map Prod.snd

section Runs

variable {repository : JobRepository} {release : Option DateTime → Option DateTime}
variable {evaluator : EvaluatorBehavior} {staleJobSeconds : Int} {world next : World repository}

theorem World.Ledgered.extend {emitted : List Emission} {settled : Option (UUID × JobStatus)}
    (ledgered : world.Ledgered) (emits : next.telemetry = world.telemetry ++ emitted)
    (reports : Reports emitted settled)
    (enters : Enters (outcome? (repository.job? world.store)) settled
      (outcome? (repository.job? next.store))) : next.Ledgered := by
  constructor
  · rw [emits, auditedOutcomes_append, reports.audited]
    exact ledgered.accounts.step enters
  · rw [emits, recordedStatuses_append, List.filterMap_append, ledgered.counted, reports.counted,
      auditedOutcomes_append, reports.audited, List.map_append]

theorem World.Ledgered.submits (implements : Implements repository release)
    (ledgered : world.Ledgered) {submission : Submission}
    (submits : World.Submits repository world submission next) : next.Ledgered := by
  obtain ⟨fresh, outcome, stepped, _, emits⟩ := submits
  refine ledgered.extend emits (afterCreate_reports _ _ outcome) ?_
  have effect := implements.step (by intro job create; cases create; exact fresh) stepped
  have enters := effect.enters (by intro job create; cases create; rfl)
    (by intro cutoff recovers; cases recovers)
  have unsettled : (RepositoryCall.create submission.job).settled? (.job outcome) = none := by
    cases outcome <;> rfl
  dsimp only at enters
  rwa [unsettled] at enters

theorem World.Ledgered.acts (implements : Implements repository release) (ledgered : world.Ledgered)
    {thread following : Thread} {signal : Signal}
    (acts : World.Acts repository evaluator staleJobSeconds world thread signal next following)
    (spares : ∀ now reply call, signal = .replied now reply → thread.call? = some call →
      call.Spares (repository.job? world.store)) : next.Ledgered := by
  obtain ⟨after, ran, _, heard, _, emits⟩ := acts
  refine ledgered.extend emits (Thread.next_reports ran) ?_
  cases signal with
  | replied now reply =>
      obtain ⟨call, waits, stepped⟩ := heard
      have created := Thread.call?_ne_create waits
      have effect := implements.step (fun job create => absurd create (created job)) stepped
      rw [Signal.settled?, waits]
      exact effect.enters (fun job create => absurd create (created job))
        (spares now reply call rfl waits)
  | scored _ => exact congrArg (outcome? ∘ repository.job?) heard.1
  | resumed _ => exact congrArg (outcome? ∘ repository.job?) heard
  | stop => exact congrArg (outcome? ∘ repository.job?) heard

theorem World.Ledgered.step (implements : Implements repository release)
    {pool target : Pool (World repository) Thread} {event : SystemEvent}
    (ledgered : pool.store.Ledgered)
    (stepped : (system repository evaluator staleJobSeconds).Step pool event target)
    (spares : SparesExhausted ⟨pool, event, target⟩) : target.store.Ledgered := by
  cases stepped with
  | arrive submits => exact ledgered.submits implements submits
  | start _ starts =>
      rcases starts with ⟨_, _, rfl⟩ | ⟨_, rfl⟩
      · exact ledgered
      · have quiet : Reports [WorkerPhase.logRecord .info "evaluation worker started" []] none := ⟨rfl, rfl⟩
        exact ledgered.extend rfl quiet rfl
  | act found acts =>
      refine ledgered.acts implements acts ?_
      rintro now reply call rfl waits cutoff rfl
      refine spares cutoff ?_
      dsimp only [recovery?]
      rw [found, Option.bind_some, waits]
      rfl

theorem SystemReaches.ledgered (implements : Implements repository release)
    {trace : SystemTrace repository} {pool : Pool (World repository) Thread}
    (reached : SystemReaches repository evaluator staleJobSeconds trace pool)
    (spares : ∀ taken ∈ trace, SparesExhausted taken) : pool.store.Ledgered := by
  refine reached.preserves_along (fun pool => pool.store.Ledgered) SparesExhausted ?_ ?_ spares
  · intro pool event target stepped spared ledgered
    exact ledgered.step implements stepped spared
  · have nothing : outcome? (repository.job? (World.initial repository).store) = fun _ => none := by
      funext jobId
      unfold outcome?
      rw [show repository.job? (World.initial repository).store jobId = none from
        implements.empty jobId]
      rfl
    refine ⟨?_, rfl⟩
    change Accounts (auditedOutcomes (World.initial repository).telemetry)
      (outcome? (repository.job? (World.initial repository).store))
    rw [nothing]
    exact .nil

theorem count_filterMap_outcome? {status : JobStatus} (terminal : status.Terminal)
    (statuses : List JobStatus) :
    (statuses.filterMap JobStatus.outcome?).count status = statuses.count status := by
  induction statuses with
  | nil => rfl
  | cons first rest ih =>
      cases first with
      | queued =>
          have other : (JobStatus.queued == status) = false := by
            rcases terminal with rfl | rfl <;> rfl
          rw [List.filterMap_cons_none rfl, ih, List.count_cons, other]
          rfl
      | running =>
          have other : (JobStatus.running == status) = false := by
            rcases terminal with rfl | rfl <;> rfl
          rw [List.filterMap_cons_none rfl, ih, List.count_cons, other]
          rfl
      | succeeded =>
          rw [List.filterMap_cons_some (f := JobStatus.outcome?) rfl, List.count_cons, List.count_cons, ih]
      | failed =>
          rw [List.filterMap_cons_some (f := JobStatus.outcome?) rfl, List.count_cons, List.count_cons, ih]

theorem outcome?_eq_some_iff {store : Lookup} {jobId : UUID} {status : JobStatus}
    (terminal : status.Terminal) :
    outcome? store jobId = some status ↔ ∃ job, store jobId = some job ∧ job.status = status := by
  unfold outcome?
  rw [Option.bind_eq_some_iff]
  constructor
  · rintro ⟨job, stored, reported⟩
    refine ⟨job, stored, ?_⟩
    generalize job.status = held at reported
    cases held <;> simp_all [JobStatus.outcome?]
  · rintro ⟨job, stored, rfl⟩
    refine ⟨job, stored, ?_⟩
    rcases terminal with succeeded | failed
    · rw [succeeded]
      rfl
    · rw [failed]
      rfl

theorem World.Ledgered.accounted (ledgered : world.Ledgered) {registry : MetricsRegistry}
    (recorded : Recorded world.telemetry registry) : Accounted repository world registry := by
  constructor
  · intro status terminal stored
    have keys : {jobId | outcome? (repository.job? world.store) jobId = some status} = stored := by
      ext jobId
      exact outcome?_eq_some_iff terminal
    obtain ⟨entries, finite⟩ := ledgered.accounts.length_filter status
    rw [keys] at entries finite
    refine ⟨finite, ?_⟩
    rw [recorded.value_jobsTotal, ← count_filterMap_outcome? terminal, ledgered.counted, ← entries,
      List.count, List.countP_map, List.countP_eq_length_filter]
    rfl
  · exact ledgered.accounts.filter_key

end Runs

/-- As long as no recovery finds a stale job without attempts left, every outcome is counted
once and audited once, in every state of every run. -/
theorem outcomes_accounted (backend : StorageBackend) (evaluator : EvaluatorBehavior)
    (staleJobSeconds : Int) (trace : SystemTrace (buildRepository backend))
    (pool : Pool (World (buildRepository backend)) Thread) (registry : MetricsRegistry)
    (reached : SystemReaches (buildRepository backend) evaluator staleJobSeconds trace pool)
    (spares : ∀ taken ∈ trace, SparesExhausted taken)
    (recorded : Recorded pool.store.telemetry registry) :
    Accounted (buildRepository backend) pool.store registry :=
  (reached.ledgered (buildRepository_implements backend) spares).accounted recorded

def processedSchedule : List Turn :=
  [.submit demoSubmission, .process 0 7, .act 0 (.reply 1), .act 0 (.reply 2), .act 0 .score,
    .act 0 (.reply 3)]

/-- A job that is processed in the process that accepted it is counted and audited. -/
theorem outcomes_accounted_processed :
    let world := (execute (buildRepository .memory) (fun _ => .ok demoResult) 300
      (.idle (.initial _)) processedSchedule).2.store
    (∃ registry, Recorded world.telemetry registry ∧
      Accounted (buildRepository .memory) world registry) ∧
      outcome? ((buildRepository .memory).job? world.store) 7 = some .succeeded := by
  intro world
  obtain ⟨registry, recorded⟩ := exists_recorded world.telemetry
  refine ⟨⟨registry, recorded, ?_⟩, by decide⟩
  refine outcomes_accounted .memory Evaluator.arbitrary 300 _ _ registry
    (run_execute (fun _ => .ok demoResult) (fun _ => trivial) (.idle (.initial _)) _) ?_ recorded
  have unrecovered : ((execute (buildRepository .memory) (fun _ => .ok demoResult) 300
      (.idle (.initial _)) processedSchedule).1.all
      fun taken => (recovery? taken).isNone) = true := by decide
  intro taken member cutoff recovers
  have none := List.all_eq_true.mp unrecovered taken member
  rw [recovers] at none
  cases none

/-! ## The unrecorded outcome -/

def Turn.index? : Turn → Option Nat
  | .submit _ => none
  | .process index _ | .work index | .act index _ => some index

section Execution

variable {repository : JobRepository} {score : EvaluationRequest → Except Exn EvaluationResult}
variable {staleJobSeconds : Int}

theorem turn?_threads {pool next : Pool (World repository) Thread} {turn : Turn} {event : SystemEvent}
    {index : Nat} (taken : turn? repository score staleJobSeconds pool turn = some (event, next))
    (other : turn.index? ≠ some index) : next.threads index = pool.threads index := by
  have different : ∀ given, turn.index? = some given → index ≠ given := by
    rintro given isIndex rfl
    exact other isIndex
  cases turn with
  | submit _ =>
      obtain ⟨world, _, same⟩ := Option.map_eq_some_iff.mp taken
      cases same
      rfl
  | process given _ =>
      dsimp only [turn?] at taken
      split at taken
      · cases taken
        exact Function.update_of_ne (different given rfl) _ _
      · cases taken
  | work given =>
      dsimp only [turn?] at taken
      split at taken
      · cases taken
        exact Function.update_of_ne (different given rfl) _ _
      · cases taken
  | act given _ =>
      dsimp only [turn?] at taken
      split at taken
      · cases taken
      · obtain ⟨_, _, same⟩ := Option.map_eq_some_iff.mp taken
        cases same
        exact Function.update_of_ne (different given rfl) _ _

/-- A schedule changes only the threads that it names. -/
theorem execute_threads {index : Nat} (turns : List Turn) (pool : Pool (World repository) Thread)
    (others : ∀ turn ∈ turns, turn.index? ≠ some index) :
    (execute repository score staleJobSeconds pool turns).2.threads index = pool.threads index := by
  induction turns generalizing pool with
  | nil => rfl
  | cons turn rest ih =>
      unfold execute
      cases taken : turn? repository score staleJobSeconds pool turn with
      | none => rfl
      | some after =>
          have kept := ih after.2 fun other member => others other (List.mem_cons_of_mem _ member)
          have same := turn?_threads taken (others turn List.mem_cons_self)
          exact kept.trans same

/-- A schedule of the threads below `bound` ends at rest when each of these is at rest. -/
theorem quiescent_of_execute (turns : List Turn) (bound : Nat)
    (within : ∀ turn ∈ turns, ∀ index, turn.index? = some index → index < bound)
    (rests : ∀ index < bound,
      ((execute repository score staleJobSeconds (.idle (.initial repository)) turns).2.threads
        index).all fun thread => thread.call?.isNone && thread.scoring?.isNone) :
    Quiescent (execute repository score staleJobSeconds (.idle (.initial repository)) turns).2 := by
  intro index thread found
  by_cases below : index < bound
  · have rested := rests index below
    rw [found] at rested
    simpa using rested
  · rw [execute_threads turns _ fun turn member isIndex => below (within turn member index isIndex)]
      at found
    cases found

end Execution

/-- Three workers claim the job one after the other and lose it; a fourth one times it out,
and then the others come too late to complete it. -/
def exhaustedSchedule : List Turn :=
  [.submit demoSubmission,
    .work 0, .act 0 (.resume 1), .act 0 (.reply 1), .act 0 (.reply 2),
    .work 1, .act 1 (.resume 400), .act 1 (.reply 400), .act 1 (.reply 401),
    .work 2, .act 2 (.resume 800), .act 2 (.reply 800), .act 2 (.reply 801),
    .work 3, .act 3 (.resume 1200), .act 3 (.reply 1200), .act 3 (.reply 1201),
    .act 0 .score, .act 0 (.reply 1202), .act 0 (.reply 1203),
    .act 1 .score, .act 1 (.reply 1204), .act 1 (.reply 1205),
    .act 2 .score, .act 2 (.reply 1206), .act 2 (.reply 1207)]

theorem not_accountsForOutcomes_of_execute (repository : JobRepository) (turns : List Turn)
    (bound : Nat) (within : ∀ turn ∈ turns, ∀ index, turn.index? = some index → index < bound)
    (rests : ∀ index < bound,
      ((execute repository (fun _ => .ok demoResult) 300 (.idle (.initial repository)) turns).2.threads
        index).all fun thread => thread.call?.isNone && thread.scoring?.isNone)
    (jobId : UUID)
    (unaudited : let world := (execute repository (fun _ => .ok demoResult) 300
        (.idle (.initial repository)) turns).2.store
      auditedOutcomes world.telemetry = [] ∧
        outcome? (repository.job? world.store) jobId = some .failed) :
    ¬ AccountsForOutcomes repository := by
  intro accounts
  have reached : SystemReaches repository Evaluator.arbitrary 300 _ _ :=
    run_execute (fun _ => .ok demoResult) (fun _ => trivial) (.idle (.initial repository)) turns
  obtain ⟨registry, recorded⟩ := exists_recorded (execute repository (fun _ => .ok demoResult) 300
    (.idle (.initial repository)) turns).2.store.telemetry
  have audited := (accounts _ _ _ _ registry reached (quiescent_of_execute turns bound within rests)
    recorded).audited jobId
  rw [unaudited.1, unaudited.2] at audited
  cases audited

/-- A job that a recovery fails is neither counted nor audited, in either repository. -/
theorem not_accountsForOutcomes :
    ¬ AccountsForOutcomes (buildRepository .memory) ∧
      ¬ AccountsForOutcomes (buildRepository .postgres) := by
  have within : ∀ turn ∈ exhaustedSchedule, ∀ index, turn.index? = some index → index < 4 := by
    simp [exhaustedSchedule, Turn.index?]
  exact ⟨not_accountsForOutcomes_of_execute _ exhaustedSchedule 4 within (by decide) 7 (by decide),
    not_accountsForOutcomes_of_execute _ exhaustedSchedule 4 within (by decide) 7 (by decide)⟩

end EvaluationService
