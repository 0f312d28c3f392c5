import EvaluationService.Services.SystemProperties

/-!
The two roles. A combined process hands a job to `process`; split processes claim it and
hand it to `process_claimed`. Left alone, the two calls do the same to the job, but only a
claim counts the attempt.
-/

set_option autoImplicit false

namespace EvaluationService

open Foundation

variable {repository : JobRepository} {release : Option DateTime → Option DateTime}
variable {outcome : Except Exn EvaluationResult} {world : World repository}
variable {jobId : UUID} {job : EvaluationJob}

/-- One step of a call that nothing else interferes with, for one outcome of the evaluator. -/
def SoloStep (repository : JobRepository) (outcome : Except Exn EvaluationResult)
    (current : World repository × ServiceState) (signal : Signal)
    (next : World repository × ServiceState) : Prop :=
  World.Acts repository (fun _ given => given = outcome) 0 current.1 (.service current.2) signal
    next.1 (.service next.2)

def Settles (repository : JobRepository) (outcome : Except Exn EvaluationResult)
    (start : World repository × ServiceState) (final : World repository) : Prop :=
  ∃ trace ended, Run (SoloStep repository outcome) start trace (final, .finished ended)

/-- `process`, from its call to its end. -/
def ProcessesAlone (repository : JobRepository) (outcome : Except Exn EvaluationResult)
    (world : World repository) (jobId : UUID) (final : World repository) : Prop :=
  Settles repository outcome (world, .loading jobId) final

/-- `claim_next_queued`, and `process_claimed` of the job that it returns. -/
def ClaimsAlone (repository : JobRepository) (outcome : Except Exn EvaluationResult)
    (world final : World repository) : Prop :=
  ∃ claimedAt startedAt job store,
    repository.Step world.store ⟨claimedAt, .claimNextQueued, .claim (.ok (some job))⟩ store ∧
      Settles repository outcome
        (⟨store, world.submissions,
          world.telemetry ++ (ServiceState.processClaimed startedAt job).2⟩,
          (ServiceState.processClaimed startedAt job).1) final

/-! ## What both do -/

/-- The audit events of a job without the times at which they were recorded. -/
def auditTrail (jobId : UUID) (telemetry : List Emission) : List AuditEvent :=
  entries (auditEvents telemetry)
where
  entries (events : List AuditEvent) : List AuditEvent :=
    (events.filter (·.jobId = jobId)).map fun event => { event with createdAt := 0 }

@[simp] theorem auditTrail.entries_nil (jobId : UUID) : auditTrail.entries jobId [] = [] := rfl

/-- The record of a running job after the evaluator's outcome. -/
def EvaluationJob.settled (release : Option DateTime → Option DateTime) (now : DateTime)
    (outcome : Except Exn EvaluationResult) (running : EvaluationJob) : EvaluationJob :=
  match outcome with
  | .ok result => running.succeeded release now result
  | .error _ => running.failed release now ServiceState.failureMessage

def trailEvent (jobId : UUID) (job : EvaluationJob) (eventType : String) (metadata : Fields) :
    AuditEvent :=
  ⟨eventType, job.tenantId, job.projectId, jobId, 0, metadata⟩

def settledEvent (jobId : UUID) (job : EvaluationJob) : Except Exn EvaluationResult → AuditEvent
  | .ok result => trailEvent jobId job "evaluation.job_succeeded" [("score", .number result.score)]
  | .error _ => trailEvent jobId job "evaluation.job_failed" []

def settledStatus : Except Exn EvaluationResult → JobStatus
  | .ok _ => .succeeded
  | .error _ => .failed

@[simp] theorem auditTrail_append (jobId : UUID) (first second : List Emission) :
    auditTrail jobId (first ++ second) = auditTrail jobId first ++ auditTrail jobId second := by
  simp [auditTrail, auditTrail.entries]

@[simp] theorem auditTrail_nil (jobId : UUID) : auditTrail jobId [] = [] := rfl

@[simp] theorem auditTrail_cons (jobId : UUID) (emission : Emission) (rest : List Emission) :
    auditTrail jobId (emission :: rest) =
      auditTrail.entries jobId emission.audit?.toList ++ auditTrail jobId rest := by
  simp [auditTrail, auditTrail.entries]

@[simp] theorem auditTrail_auditRecord (now : DateTime) (eventType tenantId projectId : String)
    (jobId : UUID) (metadata : Fields) :
    auditTrail jobId (auditRecord now eventType tenantId projectId jobId metadata) =
      [⟨eventType, tenantId, projectId, jobId, 0, metadata⟩] := by
  simp [auditTrail, auditTrail.entries]

/-- The stages of a call on a queued job. `Opened` says what the record is once it runs. -/
def SoloStage (repository : JobRepository) (release : Option DateTime → Option DateTime)
    (outcome : Except Exn EvaluationResult) (world : World repository) (jobId : UUID)
    (job : EvaluationJob) (Opened : EvaluationJob → Prop) :
    World repository × ServiceState → Prop
  | (current, .loading id) => id = jobId ∧ (∀ now, Opened (job.started now)) ∧ current = world
  | (current, .starting id held) => id = jobId ∧ held = job ∧ (∀ now, Opened (job.started now)) ∧
      repository.job? current.store = repository.job? world.store ∧
      auditTrail jobId current.telemetry = auditTrail jobId world.telemetry ∧
      recordedStatuses current.telemetry = recordedStatuses world.telemetry
  | (current, .scoring id held) => id = jobId ∧ Running current held
  | (current, .succeeding id held result) => id = jobId ∧ outcome = .ok result ∧ Running current held
  | (current, .recordingFailure _ held error) => outcome = .error error ∧ Running current held
  | (current, .finished _) => ∃ running now, Opened running ∧
      repository.job? current.store jobId = some (running.settled release now outcome) ∧
      auditTrail jobId current.telemetry = auditTrail jobId world.telemetry ++
        [trailEvent jobId job "evaluation.job_running" [], settledEvent jobId job outcome] ∧
      recordedStatuses current.telemetry =
        recordedStatuses world.telemetry ++ [settledStatus outcome]
where
  Running (current : World repository) (held : EvaluationJob) : Prop :=
    held.jobId = jobId ∧ job.SameSubmission held ∧
      (∃ running, Opened running ∧ running.status = .running ∧ job.SameSubmission running ∧
        repository.job? current.store jobId = some running) ∧
      auditTrail jobId current.telemetry = auditTrail jobId world.telemetry ++
        [trailEvent jobId job "evaluation.job_running" []] ∧
      recordedStatuses current.telemetry = recordedStatuses world.telemetry

theorem SoloStep.move {current next : World repository × ServiceState} {signal : Signal}
    (stepped : SoloStep repository outcome current signal next) :
    ∃ moved, current.2.Move signal moved ∧ next.2 = moved.1 ∧
      next.1.telemetry = current.1.telemetry ++ moved.2 ∧
      Heard repository (fun _ given => given = outcome) current.2.call? current.2.scoring?
        current.1.store signal next.1.store := by
  obtain ⟨after, ran, following, heard, _, telemetry⟩ := stepped
  obtain ⟨moved, moves, rfl⟩ := Option.map_eq_some_iff.mp ran
  exact ⟨moved, ServiceState.move_of_next moves, Thread.service.inj following, telemetry, heard⟩

variable {Opened : EvaluationJob → Prop}

theorem SoloStage.step (implements : Implements repository release)
    (stored : repository.job? world.store jobId = some job) (queued : job.status = .queued)
    {current next : World repository × ServiceState} {signal : Signal}
    (stage : SoloStage repository release outcome world jobId job Opened current)
    (stepped : SoloStep repository outcome current signal next) :
    SoloStage repository release outcome world jobId job Opened next := by
  obtain ⟨moved, move, following, telemetry, heard⟩ := stepped.move
  obtain ⟨before, state⟩ := current
  obtain ⟨after, target⟩ := next
  dsimp only at move following telemetry heard
  subst following
  cases move with
  | loaded =>
      obtain ⟨rfl, opens, rfl⟩ := stage
      obtain ⟨call, waits, effect⟩ := heard.effect implements
      cases waits
      obtain ⟨replied, kept⟩ := effect.get_eq
      rw [stored] at replied
      obtain rfl := RepositoryReply.job.inj replied
      refine ⟨rfl, rfl, opens, kept, ?_, ?_⟩
      all_goals
        simp [telemetry, foundOr404, ServiceState.afterGet, ServiceState.processSpan]
  | @started _ _ now outcome =>
      obtain ⟨rfl, rfl, opens, same, trail, statuses⟩ := stage
      obtain ⟨call, waits, effect⟩ := heard.effect implements
      cases waits
      rw [same] at effect
      rcases effect.setRunning stored with ⟨_, replied, updated⟩ | ⟨refused, _, _⟩
      · cases replied
        refine ⟨rfl, implements.identified stored, .refl _,
          ⟨_, opens now, rfl, ⟨rfl, rfl, rfl, rfl, rfl, rfl⟩, ?_⟩, ?_, ?_⟩
        · rw [updated, Function.update_self]
        · simp [telemetry, ServiceState.afterSetRunning, trail, trailEvent]
        · simp [telemetry, ServiceState.afterSetRunning, statuses]
      · exact absurd (by simp [queued]) refused
  | @scored scoredId held given =>
      obtain ⟨rfl, running⟩ := stage
      obtain ⟨same, request, waits, rfl⟩ := heard
      have goesOn : SoloStage.Running repository world scoredId job Opened after held := by
        obtain ⟨identified, submission, stored, trail, statuses⟩ := running
        rw [← same] at stored
        refine ⟨identified, submission, stored, ?_, ?_⟩
        · rw [telemetry, auditTrail_append, trail]
          cases given <;> simp [ServiceState.afterScore, Evaluator.scoreEmissions]
        · rw [telemetry, recordedStatuses_append, statuses]
          cases given <;> simp [ServiceState.afterScore, Evaluator.scoreEmissions]
      cases given with
      | ok result => exact ⟨rfl, rfl, goesOn⟩
      | error error => exact ⟨rfl, goesOn⟩
  | @succeeded _ held result now _ =>
      obtain ⟨rfl, rfl, identified, submission, ⟨running, opened, isRunning, same, found⟩, trail,
        statuses⟩ := stage
      obtain ⟨call, waits, effect⟩ := heard.effect implements
      cases waits
      rcases effect.setSucceeded found with ⟨_, replied, updated⟩ | ⟨refused, _, _⟩
      · cases replied
        refine ⟨running, now, opened, ?_, ?_, ?_⟩
        · rw [updated, Function.update_self]
          rfl
        · simp [telemetry, ServiceState.afterSetSucceeded, trail, settledEvent, trailEvent,
            EvaluationJob.succeeded, same.tenantId, same.projectId]
        · simp [telemetry, ServiceState.afterSetSucceeded, statuses, settledStatus]
      · exact absurd (by simp [isRunning]) refused
  | @failed _ held error now _ =>
      obtain ⟨rfl, rfl, submission, ⟨running, opened, isRunning, same, found⟩, trail,
        statuses⟩ := stage
      obtain ⟨call, waits, effect⟩ := heard.effect implements
      cases waits
      rcases effect.setFailed found with ⟨_, replied, updated⟩ | ⟨refused, _, _⟩
      · cases replied
        refine ⟨running, now, opened, ?_, ?_, ?_⟩
        · rw [updated, Function.update_self]
          rfl
        · simp [telemetry, ServiceState.afterSetFailed, ServiceState.raised, trail, settledEvent,
            trailEvent, submission.tenantId, submission.projectId]
        · simp [telemetry, ServiceState.afterSetFailed, ServiceState.raised, statuses, settledStatus]
      · exact absurd (by simp [isRunning]) refused

theorem Settles.stage (implements : Implements repository release)
    (stored : repository.job? world.store jobId = some job) (queued : job.status = .queued)
    {start : World repository × ServiceState} {final : World repository}
    (settles : Settles repository outcome start final)
    (stage : SoloStage repository release outcome world jobId job Opened start) :
    ∃ running now, Opened running ∧
      repository.job? final.store jobId = some (running.settled release now outcome) ∧
      auditTrail jobId final.telemetry = auditTrail jobId world.telemetry ++
        [trailEvent jobId job "evaluation.job_running" [], settledEvent jobId job outcome] ∧
      recordedStatuses final.telemetry =
        recordedStatuses world.telemetry ++ [settledStatus outcome] := by
  obtain ⟨trace, ended, run⟩ := settles
  refine run.preserves (SoloStage repository release outcome world jobId job Opened) ?_ stage
  intro current signal next stepped currentStage
  exact currentStage.step implements stored queued stepped

/-- Nothing can keep a call from ending. -/
theorem exists_settles (repository : JobRepository) (outcome : Except Exn EvaluationResult)
    (world : World repository) (state : ServiceState) :
    ∃ final, Settles repository outcome (world, state) final := by
  induction bound : state.remaining using Nat.strong_induction_on generalizing world state with
  | _ count ih =>
      have goesOn : ∀ signal next, SoloStep repository outcome (world, state) signal next →
          ∃ final, Settles repository outcome (world, state) final := by
        intro signal next stepped
        obtain ⟨moved, move, following, _⟩ := stepped.move
        have less := move.remaining_lt
        rw [← following, bound] at less
        obtain ⟨final, trace, ended, rest⟩ := ih _ less next.1 next.2 rfl
        exact ⟨final, _, ended, (Run.single stepped).append rest⟩
      have replies : ∀ call, state.call? = some call →
          ∃ final, Settles repository outcome (world, state) final := by
        intro call waits
        obtain ⟨signal, ⟨store, following⟩, ⟨after, ran, same⟩, heard⟩ :=
          exists_serviceStep repository (fun _ given => given = outcome) world.store waits
        refine goesOn signal (⟨store, world.submissions, world.telemetry ++ after.2⟩, following) ?_
        refine ⟨(.service after.1, after.2), ?_, congrArg Thread.service same, heard, rfl, rfl⟩
        dsimp only at ran
        rw [Thread.next, ran]
        rfl
      cases state with
      | finished ended => exact ⟨world, [], ended, .nil⟩
      | scoring jobId job =>
          refine goesOn (.scored outcome)
            (⟨world.store, world.submissions,
              world.telemetry ++ (ServiceState.afterScore jobId job outcome).2⟩,
              (ServiceState.afterScore jobId job outcome).1) ?_
          exact ⟨_, rfl, rfl, ⟨rfl, job.request, rfl, rfl⟩, rfl, rfl⟩
      | loading _ => exact replies _ rfl
      | starting _ _ => exact replies _ rfl
      | succeeding _ _ _ => exact replies _ rfl
      | recordingFailure _ _ _ => exact replies _ rfl

/-! ## Where they differ -/

/-- Both roles end with the same of the job, but for `extra` more attempts that the split
role has counted. -/
structure RolesDifferBy (extra : Int) (repository : JobRepository)
    (outcome : Except Exn EvaluationResult) (world : World repository) (jobId : UUID) : Prop where
  combinedEnds : ∃ combined, ProcessesAlone repository outcome world jobId combined
  splitEnds : ∃ split, ClaimsAlone repository outcome world split
  related : ∀ combined split, ProcessesAlone repository outcome world jobId combined →
    ClaimsAlone repository outcome world split →
    ∃ processed claimed, repository.job? combined.store jobId = some processed ∧
      repository.job? split.store jobId = some claimed ∧
      claimed.status = processed.status ∧ claimed.result = processed.result ∧
      claimed.errorMessage = processed.errorMessage ∧
      claimed.attemptCount = processed.attemptCount + extra ∧
      claimed.maxAttempts = processed.maxAttempts ∧
      auditTrail jobId split.telemetry = auditTrail jobId combined.telemetry ∧
      recordedStatuses split.telemetry = recordedStatuses combined.telemetry

def RolesAgree : (repository : JobRepository) → Except Exn EvaluationResult → World repository →
    UUID → Prop :=
  RolesDifferBy 0

def OnlyClaimable (store : Lookup) (jobId : UUID) (job : EvaluationJob) : Prop :=
  store jobId = some job ∧ job.Claimable ∧
    ∀ other current, store other = some current → current.Claimable → other = jobId

theorem ProcessesAlone.settled (implements : Implements repository release)
    (stored : repository.job? world.store jobId = some job) (queued : job.status = .queued)
    {final : World repository} (processed : ProcessesAlone repository outcome world jobId final) :
    ∃ startedAt now, repository.job? final.store jobId =
        some ((job.started startedAt).settled release now outcome) ∧
      auditTrail jobId final.telemetry = auditTrail jobId world.telemetry ++
        [trailEvent jobId job "evaluation.job_running" [], settledEvent jobId job outcome] ∧
      recordedStatuses final.telemetry =
        recordedStatuses world.telemetry ++ [settledStatus outcome] := by
  have stage : SoloStage repository release outcome world jobId job
      (fun running => ∃ now, running = job.started now) (world, .loading jobId) :=
    ⟨rfl, fun now => ⟨now, rfl⟩, rfl⟩
  obtain ⟨running, now, ⟨startedAt, rfl⟩, settled⟩ :=
    Settles.stage implements stored queued processed stage
  exact ⟨startedAt, now, settled⟩

theorem Effect.claimed_of_only {before after : Lookup} {now : DateTime} {claimed : EvaluationJob}
    (effect : Effect release now before .claimNextQueued (.claim (.ok (some claimed))) after)
    (only : OnlyClaimable before jobId job) :
    claimed = job.claimed now ∧ after jobId = some (job.claimed now) := by
  obtain ⟨stored, _, unique⟩ := only
  cases effect with
  | @claim found foundStored claimable _ =>
      obtain rfl := unique _ _ foundStored claimable
      rw [stored, Option.some_inj] at foundStored
      subst foundStored
      exact ⟨rfl, Function.update_self _ _ _⟩

theorem ClaimsAlone.settled (implements : Implements repository release)
    (only : OnlyClaimable (repository.job? world.store) jobId job)
    {final : World repository} (claims : ClaimsAlone repository outcome world final) :
    ∃ claimedAt now, repository.job? final.store jobId =
        some ((job.claimed claimedAt).settled release now outcome) ∧
      auditTrail jobId final.telemetry = auditTrail jobId world.telemetry ++
        [trailEvent jobId job "evaluation.job_running" [], settledEvent jobId job outcome] ∧
      recordedStatuses final.telemetry =
        recordedStatuses world.telemetry ++ [settledStatus outcome] := by
  obtain ⟨claimedAt, startedAt, claimed, store, stepped, settles⟩ := claims
  have effect := implements.step (by intro _ create; cases create) stepped
  dsimp only at effect
  obtain ⟨rfl, claimedStored⟩ := effect.claimed_of_only only
  obtain ⟨stored, ⟨queued, _⟩, _⟩ := only
  obtain rfl := implements.identified stored
  have stage : SoloStage repository release outcome world job.jobId job
      (fun running => ∃ now, running = job.claimed now)
      (⟨store, world.submissions,
        world.telemetry ++ (ServiceState.processClaimed startedAt (job.claimed claimedAt)).2⟩,
        (ServiceState.processClaimed startedAt (job.claimed claimedAt)).1) := by
    refine ⟨rfl, rfl, ⟨rfl, rfl, rfl, rfl, rfl, rfl⟩,
      ⟨_, ⟨claimedAt, rfl⟩, rfl, ⟨rfl, rfl, rfl, rfl, rfl, rfl⟩, claimedStored⟩, ?_, ?_⟩
    · simp [ServiceState.processClaimed, ServiceState.processSpan, EvaluationJob.claimed, trailEvent]
    · simp [ServiceState.processClaimed, ServiceState.processSpan]
  obtain ⟨running, now, ⟨_, rfl⟩, settled⟩ := settles.stage implements stored queued stage
  exact ⟨_, now, settled⟩

theorem exists_claimsAlone (implements : Implements repository release)
    (outcome : Except Exn EvaluationResult)
    (only : OnlyClaimable (repository.job? world.store) jobId job) :
    ∃ final, ClaimsAlone repository outcome world final := by
  obtain ⟨stored, claimable, _⟩ := only
  generalize performed : repository.perform world.store 0 .claimNextQueued = result
  obtain ⟨reply, store⟩ := result
  have effect := implements.effect (by intro _ create; cases create) performed
  generalize repository.job? store = after at effect
  cases effect with
  | claimNone none => exact absurd claimable (none _ _ stored)
  | refuse guarded _ => cases guarded
  | @claim found _ _ _ =>
      obtain ⟨final, settles⟩ := exists_settles repository outcome
        ⟨store, world.submissions,
          world.telemetry ++ (ServiceState.processClaimed 0 (found.claimed 0)).2⟩
        (ServiceState.processClaimed 0 (found.claimed 0)).1
      exact ⟨final, 0, 0, found.claimed 0, store,
        ⟨_, repository.arranges_refl _, performed⟩, settles⟩

theorem rolesDifferBy_one (implements : Implements repository release)
    (outcome : Except Exn EvaluationResult)
    (only : OnlyClaimable (repository.job? world.store) jobId job) :
    RolesDifferBy 1 repository outcome world jobId := by
  refine ⟨exists_settles _ _ _ _, exists_claimsAlone implements outcome only, ?_⟩
  intro combined split processes claims
  obtain ⟨_, _, processed, trail, statuses⟩ :=
    processes.settled implements only.1 only.2.1.1
  obtain ⟨_, _, claimed, claimTrail, claimStatuses⟩ := claims.settled implements only
  refine ⟨_, _, processed, claimed, ?_⟩
  rw [trail, statuses, claimTrail, claimStatuses]
  cases outcome with
  | ok result => exact ⟨rfl, rfl, rfl, rfl, rfl, rfl, rfl⟩
  | error error => exact ⟨rfl, rfl, rfl, rfl, rfl, rfl, rfl⟩

theorem RolesDifferBy.unique {extra other : Int}
    (differ : RolesDifferBy extra repository outcome world jobId)
    (differOther : RolesDifferBy other repository outcome world jobId) : extra = other := by
  obtain ⟨combined, processes⟩ := differ.combinedEnds
  obtain ⟨split, claims⟩ := differ.splitEnds
  obtain ⟨processed, claimed, stored, claimedStored, _, _, _, counted, _⟩ :=
    differ.related combined split processes claims
  obtain ⟨_, _, sameStored, sameClaimed, _, _, _, sameCounted, _⟩ :=
    differOther.related combined split processes claims
  rw [stored, Option.some_inj] at sameStored
  rw [claimedStored, Option.some_inj] at sameClaimed
  subst sameStored sameClaimed
  omega

theorem not_rolesAgree (implements : Implements repository release)
    (outcome : Except Exn EvaluationResult)
    (only : OnlyClaimable (repository.job? world.store) jobId job) :
    ¬ RolesAgree repository outcome world jobId := by
  intro agree
  exact absurd ((rolesDifferBy_one implements outcome only).unique agree) (by decide)

/-- Whatever the evaluator does, the split role ends with the combined role's record and has
recorded the same, but it has counted an attempt that the combined role does not count. -/
theorem split_role_counts_attempt (backend : StorageBackend) (outcome : Except Exn EvaluationResult)
    (world : World (buildRepository backend)) (jobId : UUID) (job : EvaluationJob)
    (only : OnlyClaimable ((buildRepository backend).job? world.store) jobId job) :
    RolesDifferBy 1 (buildRepository backend) outcome world jobId ∧
      ¬ RolesAgree (buildRepository backend) outcome world jobId := by
  have implements := buildRepository_implements backend
  exact ⟨rolesDifferBy_one implements outcome only, not_rolesAgree implements outcome only⟩

def soloWorld (repository : JobRepository) : World repository :=
  ⟨(repository.perform repository.empty 0 (.create (demoJob 7 2))).2, [], []⟩

theorem onlyClaimable_soloWorld (implements : Implements repository release) :
    OnlyClaimable (repository.job? (soloWorld repository).store) 7 (demoJob 7 2) := by
  have fresh : (RepositoryCall.create (demoJob 7 2)).Fresh (repository.job? repository.empty) :=
    fun _ _ => implements.empty _
  have stored : repository.job? (soloWorld repository).store =
      Function.update (repository.job? repository.empty) 7 (some (demoJob 7 2)) := by
    unfold soloWorld
    generalize performed : repository.perform repository.empty 0 (.create (demoJob 7 2)) = result
    obtain ⟨reply, store⟩ := result
    have effect := implements.effect fresh performed
    dsimp only
    generalize repository.job? store = after at effect
    cases effect with
    | create _ => rfl
    | refuse guarded _ => cases guarded
  rw [stored]
  refine ⟨Function.update_self _ _ _, ⟨rfl, by decide⟩, ?_⟩
  intro other current found _
  by_contra different
  rw [Function.update_of_ne different, implements.empty] at found
  cases found

/-- A first attempt that scores: in the combined role it is not counted. -/
theorem not_rolesAgree_first_attempt :
    ¬ RolesAgree (buildRepository .memory) (.ok demoResult) (soloWorld _) 7 ∧
      ¬ RolesAgree (buildRepository .postgres) (.ok demoResult) (soloWorld _) 7 := by
  have memory := buildRepository_implements .memory
  have postgres := buildRepository_implements .postgres
  exact ⟨not_rolesAgree memory _ (onlyClaimable_soloWorld memory),
    not_rolesAgree postgres _ (onlyClaimable_soloWorld postgres)⟩

/-- A first attempt that times out: both roles record the failure, one of them the attempt. -/
theorem split_role_counts_attempt_failed :
    RolesDifferBy 1 (buildRepository .postgres) (.error .timeoutError) (soloWorld _) 7 :=
  (split_role_counts_attempt .postgres (.error .timeoutError) (soloWorld _) 7 (demoJob 7 2)
    (onlyClaimable_soloWorld (buildRepository_implements .postgres))).1

end EvaluationService
