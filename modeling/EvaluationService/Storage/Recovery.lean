import EvaluationService.Storage.Attempts

/-!
Recovery and release of claims. Recovery acts on jobs whose claim time is recorded;
a job that `set_running` started has none and is left to whoever started it. A
requeued job keeps the text that recovery gave it, and completion releases the claim
in one of the two repositories only.
-/

set_option autoImplicit false

namespace EvaluationService

open Foundation

namespace JobRepository

variable {repository : JobRepository} {release : Option DateTime → Option DateTime}
variable {history : repository.History} {state next : repository.State}
variable {jobId : UUID} {job : EvaluationJob} {event : RepositoryEvent} {cutoff : DateTime}

/-! ## Which running jobs recovery finds -/

def StartedBy (jobId : UUID) (event : RepositoryEvent) : Prop :=
  event.call = .setRunning jobId ∧ ∃ started, event.reply = .job (.ok started)

/-- The call that a running job is due to: the claim whose time it carries, or, where it
carries none, a call of `set_running`. -/
def StartRecorded (repository : JobRepository) (jobId : UUID) (history : repository.History)
    (entry : Option EvaluationJob) : Prop :=
  ∀ job, entry = some job → job.status = .running → ∃ taken ∈ history,
    match job.claimedAt with
    | some claimedAt => taken.event.now = claimedAt
    | none => StartedBy jobId taken.event

theorem Reaches.startRecorded (implements : Implements repository release)
    (reached : repository.Reaches history state) (jobId : UUID) :
    repository.StartRecorded jobId history (repository.job? state jobId) := by
  refine reached.entry_induction implements jobId
    (motive := fun history entry => repository.StartRecorded jobId history entry) ?_ ?_ ?_ ?_
  · intro job stored
    cases stored
  · intro earlier taken entry recorded _ _ _ job stored running
    obtain ⟨start, member, due⟩ := recorded job stored running
    exact ⟨start, List.mem_append_left _ member, due⟩
  · intro earlier taken created _ _ _ _ submitted job stored running
    cases stored
    rw [submitted.queued] at running
    cases running
  · intro earlier taken job next _ _ _ sound change current stored running
    cases stored
    refine ⟨taken, List.mem_append_right _ (List.mem_singleton_self _), ?_⟩
    obtain ⟨before, ⟨now, call, reply⟩, after⟩ := taken
    dsimp only at change ⊢
    cases change with
    | claimed _ _ => rfl
    | requeued _ _ => cases running
    | timedOut _ _ => cases running
    | started queued =>
        have unclaimed : (job.started now).claimedAt = none := sound.queuedUnclaimed queued
        rw [unclaimed]
        exact ⟨rfl, _, rfl⟩
    | succeeded _ => cases running
    | failed _ => cases running

theorem recovered_entry (implements : Implements repository release)
    (operates : repository.Operates state event next)
    (recovery : event.call = .recoverStaleRunning cutoff) (jobId : UUID) :
    repository.job? next jobId =
      (repository.job? state jobId).map (·.recovered cutoff event.now) := by
  obtain ⟨now, call, reply⟩ := event
  have effect := implements.operates operates
  dsimp only at recovery effect ⊢
  subst recovery
  generalize repository.job? next = after at effect ⊢
  cases effect with
  | recover _ _ => rfl
  | refuse guarded _ => cases guarded

/-- Recovery with a cutoff after every clock reading finds every recorded claim. -/
theorem Reaches.stale_iff (implements : Implements repository release)
    (reached : repository.Reaches history state)
    (late : ∀ taken ∈ history, taken.event.now < cutoff)
    (stored : repository.job? state jobId = some job) (running : job.status = .running) :
    job.Stale cutoff ↔ job.claimedAt.isSome := by
  constructor
  · intro stale
    obtain ⟨_, claimedAt, claimed, _⟩ := stale
    rw [Option.mem_def.mp claimed]
    rfl
  · intro claimed
    obtain ⟨claimedAt, isClaimed⟩ := Option.isSome_iff_exists.mp claimed
    obtain ⟨taken, member, due⟩ := reached.startRecorded implements jobId job stored running
    rw [isClaimed] at due
    have due : taken.event.now = claimedAt := due
    refine ⟨running, claimedAt, isClaimed, ?_⟩
    rw [← due]
    exact late taken member

def RecoversAll (repository : JobRepository) : Prop :=
  ∀ history state, repository.Reaches history state → ∀ event next cutoff,
    repository.Operates state event next → event.call = .recoverStaleRunning cutoff →
    (∀ taken ∈ history, taken.event.now < cutoff) →
    ∀ jobId job, repository.job? next jobId = some job → job.status ≠ .running

structure RecoversClaims (repository : JobRepository) (history : repository.History)
    (state next : repository.State) : Prop where
  recovered : ∀ jobId job, repository.job? state jobId = some job → job.status = .running →
    job.claimedAt.isSome → ∃ after, repository.job? next jobId = some after ∧
      after.status = if job.attemptCount < job.maxAttempts then .queued else .failed
  stillRunning : ∀ jobId after, repository.job? next jobId = some after →
    after.status = .running → repository.job? state jobId = some after ∧
      after.claimedAt = none ∧ ∃ taken ∈ history, StartedBy jobId taken.event

end JobRepository

open JobRepository

theorem status_recovered_of_stale {job : EvaluationJob} {cutoff now : DateTime}
    (stale : job.Stale cutoff) :
    (job.recovered cutoff now).status =
      if job.attemptCount < job.maxAttempts then .queued else .failed := by
  unfold EvaluationJob.recovered
  rw [if_pos stale]
  by_cases remaining : job.attemptCount < job.maxAttempts
  · rw [if_neg (by omega), if_pos remaining]
    rfl
  · rw [if_pos (by omega), if_neg remaining]
    rfl

/-- A late enough recovery settles every claimed job; what it leaves running was started
by `set_running`. -/
theorem recovers_claims (backend : StorageBackend)
    (history : (buildRepository backend).History) (state next : (buildRepository backend).State)
    (event : RepositoryEvent) (cutoff : DateTime)
    (reached : (buildRepository backend).Reaches history state)
    (operates : (buildRepository backend).Operates state event next)
    (recovery : event.call = .recoverStaleRunning cutoff)
    (late : ∀ taken ∈ history, taken.event.now < cutoff) :
    RecoversClaims (buildRepository backend) history state next := by
  have implements := buildRepository_implements backend
  have entry := recovered_entry implements operates recovery
  constructor
  · intro jobId job stored running claimed
    have stale := (reached.stale_iff implements late stored running).mpr claimed
    refine ⟨job.recovered cutoff event.now, ?_, status_recovered_of_stale stale⟩
    rw [entry, stored]
    rfl
  · intro jobId after storedAfter running
    rw [entry] at storedAfter
    obtain ⟨job, stored, isRecovered⟩ := Option.map_eq_some_iff.mp storedAfter
    have fresh : ¬ job.Stale cutoff := by
      intro stale
      rw [← isRecovered, status_recovered_of_stale stale] at running
      split at running <;> cases running
    have same : job = after := by
      rw [← isRecovered, EvaluationJob.recovered, if_neg fresh]
    subst same
    have unclaimed : job.claimedAt = none := by
      rw [reached.stale_iff implements late stored running] at fresh
      simpa using fresh
    refine ⟨stored, unclaimed, ?_⟩
    obtain ⟨taken, member, due⟩ := reached.startRecorded implements jobId job stored running
    rw [unclaimed] at due
    exact ⟨taken, member, due⟩

/-- One attempt is lost with budget left and one is the last: the first job is queued
again, the second fails, and nothing is left running. -/
theorem recovers_claims_two_jobs :
    let repository := buildRepository .postgres
    let run := repository.replay repository.empty
      [(0, .create (demoJob 7 2)), (1, .claimNextQueued), (2, .create (demoJob 8 1)),
        (3, .claimNextQueued)]
    let recovery := repository.perform run.2 9 (.recoverStaleRunning 4)
    RecoversClaims repository run.1 run.2 recovery.2 ∧
      (repository.job? recovery.2 7).map (·.status) = some .queued ∧
      (repository.job? recovery.2 8).map (·.status) = some .failed := by
  refine ⟨?_, by decide, by decide⟩
  refine recovers_claims .postgres _ _ _ ⟨9, .recoverStaleRunning 4, .count (.ok 2)⟩ 4
    (reaches_replay _ _ (by decide)) ⟨?_, ?_⟩ rfl (by decide)
  · intro job create
    cases create
  · exact ⟨_, arranges_refl _ _, rfl⟩

theorem not_recoversAll_of_replay (repository : JobRepository)
    (calls : List (DateTime × RepositoryCall)) (now cutoff : DateTime) (jobId : UUID)
    (replayable : repository.Replayable repository.empty calls)
    (late : ∀ taken ∈ (repository.replay repository.empty calls).1, taken.event.now < cutoff)
    (stuck : (repository.job? (repository.perform (repository.replay repository.empty calls).2 now
      (.recoverStaleRunning cutoff)).2 jobId).map (·.status) = some .running) :
    ¬ repository.RecoversAll := by
  intro recoversAll
  obtain ⟨job, stored, running⟩ := Option.map_eq_some_iff.mp stuck
  have operates : repository.Operates (repository.replay repository.empty calls).2
      ⟨now, .recoverStaleRunning cutoff, (repository.perform
        (repository.replay repository.empty calls).2 now (.recoverStaleRunning cutoff)).1⟩
      (repository.perform (repository.replay repository.empty calls).2 now
        (.recoverStaleRunning cutoff)).2 := by
    refine ⟨?_, _, repository.arranges_refl _, rfl⟩
    intro created create
    cases create
  exact recoversAll _ _ (repository.reaches_replay calls replayable) _ _ cutoff operates rfl late jobId
    job stored running

/-- A job that `set_running` started is never recovered, in either repository. -/
theorem not_recoversAll :
    ¬ (buildRepository .memory).RecoversAll ∧ ¬ (buildRepository .postgres).RecoversAll :=
  ⟨not_recoversAll_of_replay _ [(0, .create (demoJob 7 3)), (1, .setRunning 7)] 9 8 7
      (by decide) (by decide) (by decide),
    not_recoversAll_of_replay _ [(0, .create (demoJob 7 3)), (1, .setRunning 7)] 9 8 7
      (by decide) (by decide) (by decide)⟩

/-! ## The text of a requeued job -/

namespace JobRepository

variable {repository : JobRepository} {release : Option DateTime → Option DateTime}
variable {history : repository.History} {state : repository.State}
variable {jobId : UUID} {job : EvaluationJob}

/-- The text of a job that recovery has returned to the queue at least once. -/
def requeueText (repository : JobRepository) (jobId : UUID) (history : repository.History) :
    Option String :=
  if history.any (repository.requeues jobId) then some EvaluationJob.requeueMessage else none

theorem requeueText_snoc (history : repository.History)
    (taken : Transition repository.State RepositoryEvent) :
    repository.requeueText jobId (history ++ [taken]) =
      if repository.requeues jobId taken then some EvaluationJob.requeueMessage
      else repository.requeueText jobId history := by
  cases requeued : repository.requeues jobId taken <;>
    simp [requeueText, List.any_append, requeued]

theorem errorMessage_of_change {taken : Transition repository.State RepositoryEvent}
    {next : EvaluationJob}
    (source : repository.job? taken.source jobId = some job)
    (target : repository.job? taken.target jobId = some next)
    (change : JobChange release taken.event.now jobId job taken.event.call taken.event.reply next)
    (unfailed : next.status ≠ .failed) :
    job.status ≠ .failed ∧ next.errorMessage =
      if repository.requeues jobId taken then some EvaluationJob.requeueMessage
      else job.errorMessage := by
  obtain ⟨before, ⟨now, call, reply⟩, after⟩ := taken
  dsimp only at source target change
  cases change with
  | claimed _ claimable => simp [requeues, EvaluationJob.claimed, claimable.1]
  | requeued stale _ => simp [requeues, source, target, stale.1, EvaluationJob.requeued]
  | timedOut _ _ => exact absurd rfl unfailed
  | started queued => simp [requeues, EvaluationJob.started, queued]
  | succeeded running => simp [requeues, EvaluationJob.succeeded, running]
  | failed _ => exact absurd rfl unfailed

def CarriesText (text : Option String) : Option EvaluationJob → Prop
  | none => text = none
  | some job => job.status ≠ .failed → job.errorMessage = text

theorem Reaches.carriesText (implements : Implements repository release)
    (reached : repository.Reaches history state) (jobId : UUID) :
    CarriesText (repository.requeueText jobId history) (repository.job? state jobId) := by
  refine reached.entry_induction implements jobId (motive := fun history entry =>
    CarriesText (repository.requeueText jobId history) entry) rfl ?_ ?_ ?_
  · intro earlier taken entry carries source target _
    have kept : repository.requeues jobId taken = false :=
      requeues_eq_false_of_kept (target.trans source.symm)
    simpa [requeueText_snoc, kept] using carries
  · intro earlier taken job carries source _ _ submitted _
    have fresh : repository.requeues jobId taken = false := by
      unfold requeues
      rw [source]
      cases taken.event.call <;> rfl
    have none : repository.requeueText jobId earlier = none := carries
    simp [requeueText_snoc, fresh, none, submitted.noMessage]
  · intro earlier taken job next carries source target _ change unfailed
    obtain ⟨wasUnfailed, message⟩ := errorMessage_of_change source target change unfailed
    rw [requeueText_snoc, message, carries wasUnfailed]

end JobRepository

/-- A succeeded job reports no failure text in any response, unless recovery requeued it,
and then it reports exactly the text of that recovery. -/
theorem succeeded_error_message (backend : StorageBackend)
    (history : (buildRepository backend).History) (state : (buildRepository backend).State)
    (reached : (buildRepository backend).Reaches history state) (jobId : UUID)
    (job : EvaluationJob) (stored : (buildRepository backend).job? state jobId = some job)
    (succeeded : job.status = .succeeded) (requestId : String) :
    let message := (buildRepository backend).requeueText jobId history
    job.errorMessage = message ∧ job.toSummary.errorMessage = message ∧
      (job.toResponse requestId).errorMessage = message ∧
      (job.toDetailResponse requestId).errorMessage = message := by
  have unfailed : job.status ≠ .failed := by
    rw [succeeded]
    decide
  have carries := reached.carriesText (buildRepository_implements backend) jobId
  rw [stored] at carries
  have message := carries unfailed
  exact ⟨message, message, message, message⟩

/-- A first attempt that succeeds leaves no text; a second one leaves the text of the loss
of the first. -/
theorem succeeded_error_message_two_attempts :
    let repository := buildRepository .postgres
    let run := repository.replay repository.empty
      [(0, .create (demoJob 7 2)), (1, .claimNextQueued), (2, .setSucceeded 7 demoResult),
        (3, .create (demoJob 8 2)), (4, .claimNextQueued), (5, .recoverStaleRunning 5),
        (6, .claimNextQueued), (7, .setSucceeded 8 demoResult)]
    ∃ first second, repository.job? run.2 7 = some first ∧ repository.job? run.2 8 = some second ∧
      (first.toResponse "request").errorMessage = none ∧
      (second.toResponse "request").errorMessage = some EvaluationJob.requeueMessage := by
  intro repository run
  have reached : repository.Reaches run.1 run.2 := reaches_replay _ _ (by decide)
  have succeeded : (repository.job? run.2 7).map (·.status) = some .succeeded := by decide
  have otherSucceeded : (repository.job? run.2 8).map (·.status) = some .succeeded := by decide
  obtain ⟨first, stored, status⟩ := Option.map_eq_some_iff.mp succeeded
  obtain ⟨second, otherStored, otherStatus⟩ := Option.map_eq_some_iff.mp otherSucceeded
  have message := succeeded_error_message .postgres _ _ reached 7 first stored status "request"
  have otherMessage :=
    succeeded_error_message .postgres _ _ reached 8 second otherStored otherStatus "request"
  have noText : repository.requeueText 7 run.1 = none := if_neg (by decide)
  have text : repository.requeueText 8 run.1 = some EvaluationJob.requeueMessage :=
    if_pos (by decide)
  exact ⟨first, second, stored, otherStored, message.2.2.1.trans noText,
    otherMessage.2.2.1.trans text⟩

def JobRepository.SucceedsWithoutError (repository : JobRepository) : Prop :=
  ∀ history state, repository.Reaches history state → ∀ jobId job,
    repository.job? state jobId = some job → job.status = .succeeded → job.errorMessage = none

/-- No call clears the text of a requeued job, in either repository. -/
theorem not_succeedsWithoutError :
    ¬ (buildRepository .memory).SucceedsWithoutError ∧
      ¬ (buildRepository .postgres).SucceedsWithoutError := by
  let calls : List (DateTime × RepositoryCall) :=
    [(0, .create (demoJob 7 2)), (1, .claimNextQueued), (2, .recoverStaleRunning 2),
      (3, .claimNextQueued), (4, .setSucceeded 7 demoResult)]
  constructor
  · intro clean
    have message := clean _ _ (reaches_replay _ calls (by decide)) 7 _ rfl (by decide)
    cases message
  · intro clean
    have message := clean _ _ (reaches_replay _ calls (by decide)) 7 _ rfl (by decide)
    cases message

/-! ## Release of claims -/

namespace JobRepository

variable {repository : JobRepository} {release : Option DateTime → Option DateTime}
variable {history : repository.History} {state : repository.State}
variable {jobId : UUID} {job : EvaluationJob}

def ClaimsReleased (repository : JobRepository) (state : repository.State) : Prop :=
  ∀ jobId job, repository.job? state jobId = some job → job.claimedAt.isSome →
    job.status = .running

def CompletesClaim (repository : JobRepository)
    (taken : Transition repository.State RepositoryEvent) : Prop :=
  ∃ jobId job, repository.job? taken.source jobId = some job ∧ job.status = .running ∧
    job.claimedAt.isSome ∧ ((∃ result, taken.event.call = .setSucceeded jobId result) ∨
      ∃ message, taken.event.call = .setFailed jobId message)

/-- Completing a job that carries no claim leaves it without one, whatever `release` does
to claims. -/
theorem unclaimed_of_completed (releaseNone : release none = none)
    {taken : Transition repository.State RepositoryEvent}
    (source : repository.job? taken.source jobId = some job) (running : job.status = .running)
    (completion : (∃ result, taken.event.call = .setSucceeded jobId result) ∨
      ∃ message, taken.event.call = .setFailed jobId message)
    (safe : (∀ claimedAt, release claimedAt = none) ∨ ¬ repository.CompletesClaim taken) :
    release job.claimedAt = none := by
  rcases safe with released | incomplete
  · exact released _
  · cases claimed : job.claimedAt with
    | none => exact releaseNone
    | some claimedAt =>
        exact absurd ⟨jobId, job, source, running, by rw [claimed]; rfl, completion⟩ incomplete

theorem Reaches.claimsReleased (implements : Implements repository release)
    (releaseNone : release none = none) (reached : repository.Reaches history state)
    (safe : (∀ claimedAt, release claimedAt = none) ∨
      ∀ taken ∈ history, ¬ repository.CompletesClaim taken) :
    repository.ClaimsReleased state := by
  intro jobId
  refine reached.entry_induction implements jobId (motive := fun history entry =>
    ((∀ claimedAt, release claimedAt = none) ∨
      ∀ taken ∈ history, ¬ repository.CompletesClaim taken) →
    ∀ job, entry = some job → job.claimedAt.isSome → job.status = .running) ?_ ?_ ?_ ?_ safe
  · intro _ job stored
    cases stored
  · intro earlier taken entry invariant _ _ _ safe
    exact invariant (safe.imp_right fun each taken member =>
      each taken (List.mem_append_left _ member))
  · intro earlier taken created _ _ _ _ submitted _ job stored claimed
    cases stored
    rw [submitted.unclaimed] at claimed
    cases claimed
  · intro earlier taken job next _ source _ sound change safe current stored claimed
    cases stored
    have last : (∀ claimedAt, release claimedAt = none) ∨ ¬ repository.CompletesClaim taken :=
      safe.imp_right fun each => each taken (List.mem_append_right _ (List.mem_singleton_self _))
    have completed := fun running completion =>
      unclaimed_of_completed releaseNone source running completion last
    obtain ⟨before, ⟨now, call, reply⟩, after⟩ := taken
    dsimp only at completed change
    cases change with
    | claimed _ _ => rfl
    | requeued _ _ => cases claimed
    | timedOut _ _ => cases claimed
    | started _ => rfl
    | succeeded running =>
        have unclaimed := completed running (.inl ⟨_, rfl⟩)
        simp [EvaluationJob.succeeded, unclaimed] at claimed
    | failed unfinished =>
        rcases unfinished with queued | running
        · have unclaimed := sound.queuedUnclaimed queued
          simp [EvaluationJob.failed, unclaimed, releaseNone] at claimed
        · have unclaimed := completed running (.inr ⟨_, rfl⟩)
          simp [EvaluationJob.failed, unclaimed] at claimed

theorem not_claimsReleased_of_completesClaim (implements : Implements repository id)
    {taken : Transition repository.State RepositoryEvent}
    (operates : repository.Operates taken.source taken.event taken.target)
    (completes : repository.CompletesClaim taken) :
    ¬ repository.ClaimsReleased taken.target := by
  intro released
  obtain ⟨jobId, job, stored, running, claimed, completion⟩ := completes
  have effect := implements.operates operates
  have after := released jobId
  obtain ⟨before, ⟨now, call, reply⟩, target⟩ := taken
  dsimp only at stored effect after completion
  rcases completion with ⟨result, rfl⟩ | ⟨message, rfl⟩
  · have stored := (effect.setSucceeded stored).stored (by simp [running])
    have kept := after _ stored claimed
    cases kept
  · have stored := (effect.setFailed stored).stored (by simp [running])
    have kept := after _ stored claimed
    cases kept

end JobRepository

/-- Every state of a history has released its claims unless the in-memory repository
completed a claimed job on the way. -/
theorem claims_released_iff (backend : StorageBackend)
    (history : (buildRepository backend).History) (state : (buildRepository backend).State)
    (reached : (buildRepository backend).Reaches history state) :
    (∀ taken ∈ history, (buildRepository backend).ClaimsReleased taken.target) ↔
      (backend = .memory → ∀ taken ∈ history, ¬ (buildRepository backend).CompletesClaim taken) := by
  have implements := buildRepository_implements backend
  constructor
  · intro released memory taken member completes
    subst memory
    exact not_claimsReleased_of_completesClaim implements (Run.step_of_mem reached member) completes
      (released taken member)
  · intro safe taken member
    obtain ⟨earlier, later, rfl⟩ := List.append_of_mem member
    obtain ⟨prior, operates, _⟩ := Run.around reached
    refine Reaches.claimsReleased implements ?_ (prior.snoc operates) ?_
    · cases backend <;> rfl
    · cases backend with
      | memory =>
          refine .inr fun other among => safe rfl other ?_
          rw [List.append_cons]
          exact List.mem_append_left _ among
      | postgres => exact .inl fun _ => rfl

/-- A claimed job that the in-memory repository completes, and the same run on Postgres. -/
theorem claims_released_iff_completed :
    let calls : List (DateTime × RepositoryCall) :=
      [(0, .create (demoJob 7 2)), (1, .claimNextQueued), (2, .setSucceeded 7 demoResult)]
    let memory := (buildRepository .memory).replay (buildRepository .memory).empty calls
    let postgres := (buildRepository .postgres).replay (buildRepository .postgres).empty calls
    (¬ ∀ taken ∈ memory.1, (buildRepository .memory).ClaimsReleased taken.target) ∧
      ∀ taken ∈ postgres.1, (buildRepository .postgres).ClaimsReleased taken.target := by
  intro calls memory postgres
  constructor
  · rw [claims_released_iff .memory _ _ (reaches_replay _ calls (by decide))]
    intro safe
    refine safe rfl _ (List.mem_cons_of_mem _ (List.mem_cons_of_mem _ List.mem_cons_self)) ?_
    exact ⟨7, _, rfl, by decide, by decide, .inl ⟨demoResult, rfl⟩⟩
  · rw [claims_released_iff .postgres _ _ (reaches_replay _ calls (by decide))]
    intro memory
    cases memory

/-- In memory, a claim survives the success of its job. -/
theorem not_claimsReleased_memory :
    ¬ ∀ history state, (buildRepository .memory).Reaches history state →
      (buildRepository .memory).ClaimsReleased state := by
  intro released
  let calls : List (DateTime × RepositoryCall) :=
    [(0, .create (demoJob 7 2)), (1, .claimNextQueued), (2, .setSucceeded 7 demoResult)]
  have running := released _ _ (reaches_replay _ calls (by decide)) 7 _ rfl (by decide)
  cases running

end EvaluationService
