import EvaluationService.Storage.CommitHistory

/-!
What any interleaving of sessions keeps: the attempts of a job and who may work on it,
its lifecycle, and what the caller of `claim_next_queued` gets to see of it.
-/

set_option autoImplicit false

namespace EvaluationService

open Foundation PostgresJobRepository

/-! ## Histories of commits -/

def handedOut (jobId : UUID) (history : List (Transition Lookup RepositoryEvent)) : List Int :=
  history.filterMap fun taken => taken.event.handed jobId

/-- Recovery returned the job from a worker to the queue. -/
def Requeues (jobId : UUID) (taken : Transition Lookup RepositoryEvent) : Prop :=
  (∃ cutoff, taken.event.call = .recoverStaleRunning cutoff) ∧
    (∃ job, taken.source jobId = some job ∧ job.status = .running) ∧
    ∃ job, taken.target jobId = some job ∧ job.status = .queued

section Histories

variable {history : List (Transition Lookup RepositoryEvent)} {before after : Lookup}
variable {event : RepositoryEvent} {jobId : UUID} {job next : EvaluationJob}

theorem CommitStep.entry (committed : CommitStep before event after) (jobId : UUID) :
    EntryChange (fun _ => none) event.now jobId event.call event.reply (before jobId) (after jobId) :=
  Commits.entry committed jobId

/-- What a committed call does to a stored job. -/
theorem CommitStep.stored (committed : CommitStep before event after)
    (stored : before jobId = some job) :
    ∃ next, after jobId = some next ∧
      (next = job ∧ event.handed jobId = none ∨
        JobChange (fun _ => none) event.now jobId job event.call event.reply next) := by
  have entry := committed.entry jobId
  rw [stored] at entry
  generalize found : after jobId = entryAfter at entry
  cases entry with
  | kept unclaimed => exact ⟨job, rfl, .inl ⟨rfl, RepositoryEvent.handed_eq_none unclaimed⟩⟩
  | changed change => exact ⟨_, rfl, .inr change⟩

theorem handedOut_snoc (taken : Transition Lookup RepositoryEvent) :
    handedOut jobId (history ++ [taken]) =
      handedOut jobId history ++ (taken.event.handed jobId).toList := by
  rw [handedOut, List.filterMap_append]
  cases handed : taken.event.handed jobId <;> simp [handedOut, handed]

/-- The jobs of a history are created as they are submitted. -/
def Submits (history : List (Transition Lookup RepositoryEvent)) : Prop :=
  ∀ taken ∈ history, ∀ job, taken.event.call = .create job → job.Submitted

theorem consistent_of_commits (run : Run CommitStep (fun _ => none) history after)
    (submits : Submits history) (stored : after jobId = some job) : job.Consistent := by
  induction run generalizing job with
  | nil => cases stored
  | @snoc earlier middle last event prior committed ih =>
      have sound : ∀ job, middle jobId = some job → job.Consistent := fun job found =>
        ih (fun taken member => submits taken (List.mem_append_left _ member)) found
      have entry := committed.entry jobId
      rw [stored] at entry
      generalize found : middle jobId = entryBefore at entry
      cases entry with
      | kept _ => exact sound _ found
      | created isCreate _ _ =>
          exact (submits ⟨middle, event, last⟩ (by simp) job isCreate).consistent
      | changed change => exact change.consistent (sound _ found)

theorem claimsCounted_of_commits (run : Run CommitStep (fun _ => none) history after)
    (submits : Submits history) (jobId : UUID) :
    JobRepository.ClaimsCounted (handedOut jobId history) (after jobId) := by
  induction run with
  | nil => rfl
  | @snoc earlier middle last event prior committed ih =>
      have counted := ih fun taken member => submits taken (List.mem_append_left _ member)
      have entry := committed.entry jobId
      rw [handedOut_snoc]
      generalize middle jobId = entryBefore at entry counted
      generalize last jobId = entryAfter at entry ⊢
      cases entry with
      | kept unclaimed =>
          rw [show event.handed jobId = none from RepositoryEvent.handed_eq_none unclaimed]
          simpa using counted
      | created isCreate _ replied =>
          have unclaimed : event.handed jobId = none :=
            RepositoryEvent.handed_eq_none (by simp [replied])
          have none : handedOut jobId earlier = [] := counted
          have submitted := submits ⟨middle, event, last⟩ (by simp) _ isCreate
          dsimp only
          rw [unclaimed, none]
          exact ⟨submitted.unattempted, rfl⟩
      | changed change =>
          obtain ⟨count, numbered⟩ := counted
          dsimp only
          rcases change.handed with ⟨handed, claimed, _⟩ | ⟨unclaimed, same⟩
          · rw [handed, claimed, count]
            refine ⟨?_, ?_⟩
            · simp [EvaluationJob.claimed, count]
            · rw [Option.toList_some, List.length_append, List.length_singleton, attemptsUpTo_succ,
                ← numbered]
          · rw [unclaimed]
            simpa [JobRepository.ClaimsCounted, same] using ⟨count, numbered⟩

/-- A stored job stays stored; its submission is fixed and its attempts only grow. -/
theorem stored_of_commits (run : Run CommitStep before history after)
    (stored : before jobId = some job) :
    ∃ next, after jobId = some next ∧ job.SameSubmission next ∧
      job.attemptCount ≤ next.attemptCount := by
  induction run with
  | nil => exact ⟨job, stored, .refl job, le_refl _⟩
  | @snoc earlier middle last event prior committed ih =>
      obtain ⟨current, currentStored, same, grown⟩ := ih
      obtain ⟨next, found, ⟨rfl, _⟩ | change⟩ := committed.stored currentStored
      · exact ⟨_, found, same, grown⟩
      · refine ⟨next, found, same.trans change.sameSubmission, ?_⟩
        rcases change.handed with ⟨_, rfl, _⟩ | ⟨_, sameCount⟩
        · change job.attemptCount ≤ current.attemptCount + 1
          omega
        · omega

theorem terminal_of_commits (run : Run CommitStep before history after)
    (stored : before jobId = some job) (terminal : job.status.Terminal) :
    after jobId = some job := by
  induction run with
  | nil => exact stored
  | @snoc earlier middle last event prior committed ih =>
      obtain ⟨next, found, ⟨rfl, _⟩ | change⟩ := committed.stored ih
      · exact found
      · exact absurd terminal change.not_terminal

theorem unchanged_of_commits (run : Run CommitStep before history after)
    (unchanged : ∀ taken ∈ history, taken.target jobId = taken.source jobId) :
    after jobId = before jobId := by
  induction run with
  | nil => rfl
  | @snoc earlier middle last event prior committed ih =>
      have same := unchanged ⟨middle, event, last⟩ (by simp)
      exact same.trans (ih fun taken member => unchanged taken (List.mem_append_left _ member))

/-- A job that was with a worker is in the queue only when recovery has returned it. -/
theorem requeued_of_commits (run : Run CommitStep before history after)
    (stored : before jobId = some job) (running : job.status = .running)
    (found : after jobId = some next) (queued : next.status = .queued) :
    ∃ taken ∈ history, Requeues jobId taken := by
  induction run generalizing next with
  | nil =>
      rw [stored, Option.some_inj] at found
      rw [← found, running] at queued
      cases queued
  | @snoc earlier middle last event prior committed ih =>
      obtain ⟨current, currentStored, _⟩ := stored_of_commits prior stored
      obtain ⟨changed, changedFound, change⟩ := committed.stored currentStored
      rw [found, Option.some_inj] at changedFound
      subst changedFound
      rcases change with ⟨rfl, _⟩ | change
      · obtain ⟨taken, member, requeues⟩ := ih currentStored queued
        exact ⟨taken, List.mem_append_left _ member, requeues⟩
      · refine ⟨⟨middle, event, last⟩, by simp, ?_⟩
        have edge := change.statusEdge
        obtain ⟨now, call, reply⟩ := event
        rw [queued] at edge
        generalize currentStatus : current.status = status at edge
        cases edge with
        | requeue => exact ⟨⟨_, rfl⟩, ⟨current, currentStored, currentStatus⟩, ⟨next, found, queued⟩⟩

theorem claimed_of_commit (committed : CommitStep before event after)
    (handed : (event.handed jobId).isSome) :
    (∃ job, before jobId = some job ∧ job.status = .queued) ∧
      ∃ job, after jobId = some job ∧ job.status = .running := by
  have entry := committed.entry jobId
  generalize before jobId = entryBefore at entry ⊢
  generalize after jobId = entryAfter at entry ⊢
  cases entry with
  | kept unclaimed =>
      rw [RepositoryEvent.handed_eq_none unclaimed] at handed
      cases handed
  | created _ _ replied =>
      rw [RepositoryEvent.handed_eq_none (by simp [replied])] at handed
      cases handed
  | @changed job next change =>
      rcases change.handed with ⟨_, rfl, claimable⟩ | ⟨unclaimed, _⟩
      · exact ⟨⟨job, rfl, claimable.1⟩, ⟨_, rfl, rfl⟩⟩
      · rw [unclaimed] at handed
        cases handed

theorem CommitStep.claim_stored {now : DateTime}
    (committed : CommitStep before ⟨now, .claimNextQueued, .claim (.ok (some job))⟩ after) :
    after job.jobId = some job := by
  generalize isReply : RepositoryReply.claim (.ok (some job)) = reply at committed
  unfold CommitStep at committed
  dsimp only at committed
  cases committed with
  | claim _ _ =>
      cases isReply
      exact Function.update_self _ _ _
  | change guarded _ _ => cases guarded

/-- Between two committed claims of one job a committed recovery has returned it to the queue. -/
theorem requeued_between_claims {earlier between later : List (Transition Lookup RepositoryEvent)}
    {first second : Transition Lookup RepositoryEvent}
    (run : Run CommitStep before (earlier ++ first :: (between ++ second :: later)) after)
    (firstHanded : (first.event.handed jobId).isSome)
    (secondHanded : (second.event.handed jobId).isSome) :
    ∃ taken ∈ between, Requeues jobId taken := by
  obtain ⟨_, firstCommitted, rest⟩ := Run.around run
  obtain ⟨middle, secondCommitted, _⟩ := Run.around rest
  obtain ⟨_, job, stored, running⟩ := claimed_of_commit firstCommitted firstHanded
  obtain ⟨⟨next, found, queued⟩, _⟩ := claimed_of_commit secondCommitted secondHanded
  exact requeued_of_commits middle stored running found queued

end Histories

/-! ## Traces -/

namespace Transactions

/-- The jobs that the sessions of a trace create are as they are submitted. -/
def Submitting (trace : Trace) : Prop :=
  ∀ taken ∈ trace, ∀ job, taken.event.2 = .begin (.create job) → job.Submitted

variable {start state : Transactions} {trace : Trace} {session : Nat}

/-- A session that is about to insert a job has begun to create it. -/
theorem begun_of_creates (run : Run Step initial trace state) {job : EvaluationJob}
    (creates : state.locals session = .begun (.create job) ∨ state.locals session = .inserted job) :
    ∃ taken ∈ trace, taken.event.2 = .begin (.create job) := by
  induction run with
  | nil => rcases creates with begun | inserted <;> contradiction
  | @snoc earlier middle next event prior stepped ih =>
      cases stepped with
      | @act actor event rows following acted =>
          dsimp only at creates
          by_cases same : session = actor
          · rw [same, Function.update_self] at creates
            rcases creates with rfl | rfl
            · generalize middle.locals actor = current at acted
              cases acted with
              | begin => exact ⟨_, List.mem_append_right _ (List.mem_singleton_self _), rfl⟩
            · generalize isCurrent : middle.locals actor = current at acted
              cases acted with
              | insert _ _ =>
                  obtain ⟨taken, member, begins⟩ := ih (.inl (same ▸ isCurrent))
                  exact ⟨taken, List.mem_append_left _ member, begins⟩
          · rw [Function.update_of_ne same] at creates
            obtain ⟨taken, member, begins⟩ := ih creates
            exact ⟨taken, List.mem_append_left _ member, begins⟩

theorem submits_of_run (run : Run Step initial trace state) (submitting : Submitting trace) :
    Submits (history trace) := by
  intro taken member job isCreate
  obtain ⟨step, isStep, committed⟩ := List.mem_filterMap.mp member
  obtain ⟨event, isCommit, rfl⟩ := Option.map_eq_some_iff.mp committed
  obtain ⟨earlier, later, rfl⟩ := List.append_of_mem isStep
  obtain ⟨prior, stepped, _⟩ := run.around
  have owns := owned_of_run prior owned_initial step.event.1
  have inserted : step.source.locals step.event.1 = .inserted job := by
    unfold SessionEvent.committed? at isCommit
    generalize step.source.locals step.event.1 = current at isCommit owns
    split at isCommit
    · cases isCommit
      cases isCreate
      rfl
    · cases isCommit
      dsimp only at isCreate
      subst isCreate
      obtain ⟨_, selects⟩ := owns
      cases selects with
      | scanned isStatement _ _ => cases isStatement
      | found guarded _ => cases guarded
    · cases isCommit
  obtain ⟨begun, beforeCommit, begins⟩ := begun_of_creates prior (.inr inserted)
  exact submitting begun (List.mem_append_left _ beforeCommit) job begins

/-- The session has committed a claim of the job, and only others have acted since. -/
structure ClaimedBy (session : Nat) (claimed : EvaluationJob) (now : DateTime)
    (committing : Transition Transactions (Nat × SessionEvent)) (between : Trace) : Prop where
  actor : committing.event.1 = session
  committed : committing.event.2.committed? (committing.source.locals committing.event.1) =
    some ⟨now, .claimNextQueued, .claim (.ok (some (claimed.claimed now)))⟩
  others : ∀ taken ∈ between, taken.event.1 ≠ session

theorem claimedBy_of_refreshing (run : Run Step initial trace state) {jobId : UUID}
    (refreshing : state.locals session = .refreshing .claimNextQueued jobId) :
    ∃ before committing between claimed now, trace = before ++ committing :: between ∧
      ClaimedBy session claimed now committing between ∧ claimed.jobId = jobId := by
  induction run with
  | nil => cases refreshing
  | @snoc earlier middle next event prior stepped ih =>
      cases stepped with
      | @act actor event rows following acted =>
          dsimp only at refreshing
          by_cases same : session = actor
          · rw [same, Function.update_self] at refreshing
            subst refreshing
            generalize isCurrent : middle.locals actor = current at acted
            cases acted with
            | commitChange guarded _ => cases guarded
            | @commitClaim row now =>
                obtain ⟨job, decoded⟩ := row.2
                refine ⟨earlier, _, [], job, now, rfl, ⟨same.symm, ?_, by simp⟩,
                  EvaluationJobRow.jobId_eq _ _ decoded⟩
                dsimp only
                rw [isCurrent]
                simp [SessionEvent.committed?, commitReply, refreshed,
                  toDomain_assign now _ decoded, EvaluationJob.assigned, Except.map]
          · rw [Function.update_of_ne same] at refreshing
            obtain ⟨before, committing, between, claimed, now, rfl, claims, identified⟩ :=
              ih refreshing
            refine ⟨before, committing, between ++ [_], claimed, now, by simp; rfl,
              ⟨claims.actor, claims.committed, ?_⟩, identified⟩
            intro taken member
            rcases List.mem_append.mp member with earlier | last
            · exact claims.others taken earlier
            · rw [List.mem_singleton.mp last]
              exact Ne.symm same

theorem commitStep_of_step {next : Transactions} {event : Nat × SessionEvent}
    {committed : RepositoryEvent} (owned : state.Owned) (stepped : Step state event next)
    (commits : event.2.committed? (state.locals event.1) = some committed) :
    CommitStep state.store.jobs committed next.store.jobs := by
  cases stepped with
  | act acted =>
      have effect := acted.commits (owned _)
      dsimp only at commits
      rw [commits] at effect
      exact effect

/-- A job is only handed to a worker as its session reads it back after a claim of it. -/
theorem refreshing_of_answer {rows next : LockedJobs} {current following : Session}
    {job : EvaluationJob} (owns : current.Owns session rows)
    (acted : Transacts session rows current (.answer (.claim (.ok (some job)))) next following) :
    ∃ jobId, current = .refreshing .claimNextQueued jobId ∧ refresh rows jobId = .ok job ∧
      next = rows := by
  generalize isReply : RepositoryReply.claim (.ok (some job)) = reply at acted
  cases acted with
  | @query call _ layout _ queried =>
      cases call <;> cases queried <;> cases isReply
  | duplicate _ => cases isReply
  | absent _ _ => cases isReply
  | refuse _ _ => cases isReply
  | nothing => cases isReply
  | @refresh call jobId =>
      cases call with
      | claimNextQueued =>
          cases outcome : refresh rows jobId with
          | error error => rw [outcome] at isReply; cases isReply
          | ok stored =>
              rw [outcome] at isReply
              cases isReply
              exact ⟨jobId, rfl, outcome, rfl⟩
      | _ => cases isReply
  | answer => exact absurd isReply.symm (owns.2 _)

theorem jobs_of_refresh {rows : LockedJobs} {jobId : UUID} {job : EvaluationJob}
    (read : refresh rows jobId = .ok job) : rows.jobs jobId = some job := by
  unfold refresh at read
  cases found : rows.table.find? jobId with
  | none => simp [found] at read
  | some row =>
      simp only [found] at read
      exact LockedJobs.jobs_eq_some_of_find? found read

end Transactions

open Transactions

/-- Exclusive claims: over every interleaving the attempts of a job count its committed
claims, stay within its budget, and no two sessions claim it without a recovery between. -/
theorem attempts_exclusive (trace : Trace) (state : Transactions)
    (run : Run Step initial trace state) (submitting : Submitting trace) (jobId : UUID) :
    (∀ job, state.store.jobs jobId = some job →
      job.attemptCount = (handedOut jobId (history trace)).length ∧
        job.attemptCount ≤ job.maxAttempts) ∧
      handedOut jobId (history trace) =
        attemptsUpTo (handedOut jobId (history trace)).length ∧
      ∀ earlier first between second later,
        history trace = earlier ++ first :: (between ++ second :: later) →
        (first.event.handed jobId).isSome → (second.event.handed jobId).isSome →
        ∃ taken ∈ between, Requeues jobId taken := by
  have commits := history_of_run run owned_initial
  have submits := submits_of_run run submitting
  have counted := claimsCounted_of_commits commits submits jobId
  refine ⟨fun job stored => ?_, ?_, ?_⟩
  · rw [stored] at counted
    exact ⟨counted.1, (consistent_of_commits commits submits stored).withinBudget⟩
  · cases stored : state.store.jobs jobId with
    | none =>
        rw [stored] at counted
        have none : handedOut jobId (history trace) = [] := counted
        rw [none]
        rfl
    | some job =>
        rw [stored] at counted
        exact counted.2
  · intro earlier first between second later split firstHanded secondHanded
    rw [split] at commits
    exact requeued_between_claims commits firstHanded secondHanded

/-- A worker that is lost, a recovery and a second worker. -/
def demoRecovery : List SessionTurn :=
  [.begin 0 (.create (demoJob 7 2)), .advance 0 0, .advance 0 0, .advance 0 0,
    .begin 1 .claimNextQueued, .advance 1 1, .advance 1 1, .advance 1 1, .advance 1 1,
    .begin 2 (.recoverStaleRunning 5), .advance 2 6, .advance 2 6, .advance 2 6, .advance 2 6,
    .begin 3 .claimNextQueued, .advance 3 7, .advance 3 7, .advance 3 7, .advance 3 7]

/-- Every job that a schedule creates is one as it is submitted. -/
def submitsOnly (trace : Trace) : Bool :=
  trace.all fun taken =>
    match taken.event.2 with
    | .begin (.create job) => job.Submitted
    | _ => true

theorem submitting_of_submitsOnly {trace : Trace} (all : submitsOnly trace = true) :
    Submitting trace := by
  intro taken member job begins
  have submitted := List.all_eq_true.mp all taken member
  rw [begins] at submitted
  exact of_decide_eq_true submitted

theorem attempts_exclusive_recovered : ∃ trace state, Run Step initial trace state ∧
    handedOut 7 (history trace) = [1, 2] ∧
    (∀ job, state.store.jobs 7 = some job →
      job.attemptCount = (handedOut 7 (history trace)).length ∧
        job.attemptCount ≤ job.maxAttempts) ∧
      handedOut 7 (history trace) = attemptsUpTo (handedOut 7 (history trace)).length ∧
      ∀ earlier first between second later,
        history trace = earlier ++ first :: (between ++ second :: later) →
        (first.event.handed 7).isSome → (second.event.handed 7).isSome →
        ∃ taken ∈ between, Requeues 7 taken := by
  obtain ⟨trace, state, run, facts⟩ := @played initial demoRecovery
    (fun trace _ => submitsOnly trace && handedOut 7 (history trace) = [1, 2])
    (by decide +kernel)
  rw [Bool.and_eq_true] at facts
  exact ⟨trace, state, run, of_decide_eq_true facts.2,
    attempts_exclusive trace state run (submitting_of_submitsOnly facts.1) 7⟩

/-- The lifecycle over every interleaving: stored jobs are consistent, keep their submission,
change along the edges of the lifecycle only, and are frozen once they are terminal. -/
theorem lifecycle_interleaved (earlier later : Trace) (state final : Transactions)
    (reached : Run Step initial earlier state) (submitting : Submitting earlier)
    (run : Run Step state later final) (jobId : UUID) (job : EvaluationJob)
    (stored : state.store.jobs jobId = some job) :
    job.Consistent ∧
      (∃ next, final.store.jobs jobId = some next ∧ job.SameSubmission next ∧
        job.attemptCount ≤ next.attemptCount ∧ (job.status.Terminal → next = job)) ∧
      ∀ taken ∈ history later, ∀ current, taken.source jobId = some current →
        ∃ next, taken.target jobId = some next ∧
          (next = current ∨ StatusEdge taken.event.call current.status next.status) := by
  have owned := owned_of_run reached owned_initial
  have commits := history_of_run run owned
  obtain ⟨next, found, same, grown⟩ := stored_of_commits commits stored
  refine ⟨?_, ⟨next, found, same, grown, fun terminal => ?_⟩, ?_⟩
  · exact consistent_of_commits (history_of_run reached owned_initial)
      (submits_of_run reached submitting) stored
  · have frozen := terminal_of_commits commits stored terminal
    rw [found, Option.some_inj] at frozen
    exact frozen
  · intro taken member current currentStored
    obtain ⟨following, followingFound, change⟩ :=
      CommitStep.stored (Run.step_of_mem commits member) currentStored
    rcases change with ⟨same, _⟩ | change
    · exact ⟨following, followingFound, .inl same⟩
    · exact ⟨following, followingFound, .inr change.statusEdge⟩

/-- The job is stored, and then one of two workers claims it. -/
theorem lifecycle_interleaved_race : ∃ earlier later state final,
    Run Step initial earlier state ∧ Run Step state later final ∧
    (history later).map (·.event.call) = [.claimNextQueued] ∧
    ∃ job, state.store.jobs 7 = some job ∧ job.status = .queued ∧ job.Consistent ∧
      (∃ next, final.store.jobs 7 = some next ∧ job.SameSubmission next ∧
        job.attemptCount ≤ next.attemptCount ∧ (job.status.Terminal → next = job)) ∧
      ∀ taken ∈ history later, ∀ current, taken.source 7 = some current →
        ∃ next, taken.target 7 = some next ∧
          (next = current ∨ StatusEdge taken.event.call current.status next.status) := by
  obtain ⟨earlier, state, reached, facts⟩ := @played initial (demoRace.take 4)
    (fun trace state => submitsOnly trace && (state.store.jobs 7).any (·.status = .queued) &&
      (state.replay (demoRace.drop 4)).any fun run =>
        (history run.1).map (·.event.call) = [.claimNextQueued]) (by decide +kernel)
  simp only [Bool.and_eq_true] at facts
  obtain ⟨⟨submits, queued⟩, races⟩ := facts
  obtain ⟨job, stored, isQueued⟩ := (Option.any_eq_true _ _).mp queued
  obtain ⟨later, final, run, claims⟩ := @played state (demoRace.drop 4)
    (fun trace _ => (history trace).map (·.event.call) = [.claimNextQueued]) races
  exact ⟨earlier, later, state, final, reached, run, of_decide_eq_true claims, job, stored,
    of_decide_eq_true isQueued,
    lifecycle_interleaved earlier later state final reached (submitting_of_submitsOnly submits) run
      7 job stored⟩

/-- A worker is handed only a job that its own session has claimed, as it is stored at that
moment: it has the attempt of the claim or a later one, and it is exactly the claimed job
unless another commit has changed it since. -/
theorem claim_answered (trace : Trace) (state : Transactions) (session : Nat)
    (answering : Transition Transactions (Nat × SessionEvent)) (job : EvaluationJob)
    (run : Run Step initial (trace ++ [answering]) state)
    (answered : answering.event = (session, .answer (.claim (.ok (some job))))) :
    state.store.jobs job.jobId = some job ∧
      ∃ before committing between claimed now, trace = before ++ committing :: between ∧
        ClaimedBy session claimed now committing between ∧ claimed.SameSubmission job ∧
        claimed.attemptCount + 1 ≤ job.attemptCount ∧
        ((∀ taken ∈ history between, taken.target job.jobId = taken.source job.jobId) →
          job = claimed.claimed now) := by
  obtain ⟨prior, stepped, last⟩ := run.around
  obtain rfl := last.eq_of_nil
  generalize answering.target = final at stepped
  rw [answered] at stepped
  cases stepped with
  | @act _ _ rows following acted =>
      obtain ⟨jobId, isRefreshing, read, rfl⟩ :=
        refreshing_of_answer (owned_of_run prior owned_initial session) acted
      obtain ⟨before, committing, between, claimed, now, rfl, claims, identified⟩ :=
        claimedBy_of_refreshing prior isRefreshing
      obtain ⟨reached, commits, rest⟩ := prior.around
      have stored := jobs_of_refresh read
      have handed := commitStep_of_step (owned_of_run reached owned_initial) commits claims.committed
      have claimedStored : committing.target.store.jobs jobId = some (claimed.claimed now) :=
        identified ▸ handed.claim_stored
      have since := history_of_run rest (owned_of_run (reached.snoc commits) owned_initial)
      obtain ⟨next, found, same, grown⟩ := stored_of_commits since claimedStored
      rw [stored, Option.some_inj] at found
      subst found
      have jobId_eq : job.jobId = jobId := same.jobId.trans identified
      refine ⟨jobId_eq ▸ stored, before, committing, between, claimed, now, rfl, claims,
        ⟨same.jobId, same.tenantId, same.projectId, same.request, same.createdAt, same.maxAttempts⟩,
        grown, fun unchanged => ?_⟩
      have kept := unchanged_of_commits since unchanged
      rw [jobId_eq, stored, claimedStored, Option.some_inj] at kept
      exact kept

/-- The job that the last step of a trace hands to a worker. -/
def handedLast (trace : Trace) : Option (Nat × EvaluationJob) :=
  match trace.getLast? with
  | some ⟨_, (session, .answer (.claim (.ok (some job)))), _⟩ => some (session, job)
  | _ => none

/-- The first worker of the race is handed the job, under its first attempt. -/
theorem claim_answered_race : ∃ trace answering state job,
    Run Step initial (trace ++ [answering]) state ∧ job = (demoJob 7 2).claimed 1 ∧
    state.store.jobs job.jobId = some job ∧
      ∃ before committing between claimed now, trace = before ++ committing :: between ∧
        ClaimedBy 1 claimed now committing between ∧ claimed.SameSubmission job ∧
        claimed.attemptCount + 1 ≤ job.attemptCount ∧
        ((∀ taken ∈ history between, taken.target job.jobId = taken.source job.jobId) →
          job = claimed.claimed now) := by
  obtain ⟨trace, state, run, facts⟩ := @played initial demoRace
    (fun trace _ => handedLast trace = some (1, (demoJob 7 2).claimed 1)) (by decide +kernel)
  have handed := of_decide_eq_true facts
  rcases List.eq_nil_or_concat trace with rfl | ⟨earlier, answering, rfl⟩
  · cases handed
  · rw [List.concat_eq_append] at run handed
    unfold handedLast at handed
    rw [List.getLast?_concat] at handed
    split at handed
    · rename_i source session job target last
      cases handed
      rw [Option.some_inj] at last
      exact ⟨earlier, answering, state, _, run, rfl,
        claim_answered earlier state 1 answering _ run (by rw [last])⟩
    · cases handed

end EvaluationService
