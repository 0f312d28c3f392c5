import EvaluationService.Storage.Lifecycle

/-!
Attempts. A claim hands a job to its caller together with an attempt number. The
number counts the claims of the job, and between two claims of a job recovery has
returned it to the queue exactly once, so no attempt is handed out twice.
-/

set_option autoImplicit false

namespace EvaluationService

open Foundation

/-- The job and the attempt number that a call handed to its caller. -/
def RepositoryEvent.handout (event : RepositoryEvent) : Option (UUID × Int) :=
  match event.call, event.reply with
  | .claimNextQueued, .claim (.ok (some job)) => some (job.jobId, job.attemptCount)
  | _, _ => none

def RepositoryEvent.handed (jobId : UUID) (event : RepositoryEvent) : Option Int :=
  (event.handout.filter fun handout => handout.1 = jobId).map (·.2)

namespace RepositoryEvent

theorem handed_eq_some_iff {jobId : UUID} {event : RepositoryEvent} {attempt : Int} :
    event.handed jobId = some attempt ↔ event.handout = some (jobId, attempt) := by
  cases handedOut : event.handout with
  | none => simp [handed, handedOut]
  | some handout =>
      obtain ⟨other, number⟩ := handout
      by_cases same : other = jobId
      · simp [handed, handedOut, same]
      · simp [handed, handedOut, same, Option.filter]

theorem handed_eq_none {jobId : UUID} {event : RepositoryEvent}
    (unclaimed : ∀ job, event.reply = .claim (.ok (some job)) → job.jobId ≠ jobId) :
    event.handed jobId = none := by
  rw [Option.eq_none_iff_forall_ne_some]
  intro attempt isHanded
  rw [handed_eq_some_iff] at isHanded
  unfold handout at isHanded
  split at isHanded
  · rename_i job _ replied
    cases isHanded
    exact unclaimed job replied rfl
  · cases isHanded

end RepositoryEvent

/-- The numbers `1`, `2`, …, `count`. -/
def attemptsUpTo (count : Nat) : List Int :=
  (List.range count).map fun index : Nat => (index : Int) + 1

theorem attemptsUpTo_succ (count : Nat) :
    attemptsUpTo (count + 1) = attemptsUpTo count ++ [(count : Int) + 1] := by
  simp [attemptsUpTo, List.range_succ]

theorem mem_attemptsUpTo {count : Nat} {attempt : Int} (member : attempt ∈ attemptsUpTo count) :
    attempt ≤ count := by
  simp only [attemptsUpTo, List.mem_map, List.mem_range] at member
  obtain ⟨index, below, rfl⟩ := member
  omega

/-- A changed job was handed out exactly when the change was a claim. -/
theorem JobChange.handed {release : Option DateTime → Option DateTime} {jobId : UUID}
    {job next : EvaluationJob} {event : RepositoryEvent}
    (change : JobChange release event.now jobId job event.call event.reply next) :
    (event.handed jobId = some (job.attemptCount + 1) ∧ next = job.claimed event.now ∧
        job.Claimable) ∨
      (event.handed jobId = none ∧ next.attemptCount = job.attemptCount) := by
  obtain ⟨now, call, reply⟩ := event
  dsimp only at change
  cases change with
  | claimed identified claimable =>
      refine .inl ⟨?_, rfl, claimable⟩
      rw [RepositoryEvent.handed_eq_some_iff, ← identified]
      rfl
  | requeued _ _ => exact .inr ⟨rfl, rfl⟩
  | timedOut _ _ => exact .inr ⟨rfl, rfl⟩
  | started _ => exact .inr ⟨rfl, rfl⟩
  | succeeded _ => exact .inr ⟨rfl, rfl⟩
  | failed _ => exact .inr ⟨rfl, rfl⟩

namespace JobRepository

def claims (repository : JobRepository) (jobId : UUID) (history : repository.History) : List Int :=
  history.filterMap fun taken => taken.event.handed jobId

def handouts (repository : JobRepository) (history : repository.History) : List (UUID × Int) :=
  history.filterMap fun taken => taken.event.handout

/-- The step is a recovery that returned the job to the queue. -/
def requeues (repository : JobRepository) (jobId : UUID)
    (taken : Transition repository.State RepositoryEvent) : Bool :=
  match taken.event.call, repository.job? taken.source jobId, repository.job? taken.target jobId with
  | .recoverStaleRunning _, some job, some next => job.status = .running ∧ next.status = .queued
  | _, _, _ => false

variable {repository : JobRepository} {release : Option DateTime → Option DateTime}
variable {history later : repository.History} {state final : repository.State}
variable {jobId : UUID} {job : EvaluationJob}

theorem claims_snoc (history : repository.History)
    (taken : Transition repository.State RepositoryEvent) :
    repository.claims jobId (history ++ [taken]) =
      repository.claims jobId history ++ (taken.event.handed jobId).toList := by
  simp only [claims, List.filterMap_append]
  cases handed : taken.event.handed jobId <;> simp [handed]

theorem mem_claims_iff {attempt : Int} :
    attempt ∈ repository.claims jobId history ↔ (jobId, attempt) ∈ repository.handouts history := by
  simp only [claims, handouts, List.mem_filterMap, RepositoryEvent.handed_eq_some_iff]

def ClaimsCounted (claimed : List Int) : Option EvaluationJob → Prop
  | none => claimed = []
  | some job => job.attemptCount = claimed.length ∧ claimed = attemptsUpTo claimed.length

theorem Reaches.claimsCounted (implements : Implements repository release)
    (reached : repository.Reaches history state) (jobId : UUID) :
    ClaimsCounted (repository.claims jobId history) (repository.job? state jobId) := by
  refine reached.entry_induction implements jobId
    (motive := fun history entry => ClaimsCounted (repository.claims jobId history) entry)
    rfl ?_ ?_ ?_
  · intro earlier taken entry counted _ _ unclaimed
    rw [claims_snoc, RepositoryEvent.handed_eq_none unclaimed]
    simpa using counted
  · intro earlier taken job counted _ _ replied submitted
    have unclaimed : taken.event.handed jobId = none :=
      RepositoryEvent.handed_eq_none (by simp [replied])
    have none : repository.claims jobId earlier = [] := counted
    rw [claims_snoc, unclaimed, none]
    exact ⟨submitted.unattempted, rfl⟩
  · intro earlier taken job next counted _ _ _ change
    obtain ⟨count, numbered⟩ := counted
    rw [claims_snoc]
    rcases change.handed with ⟨handed, claimed, _⟩ | ⟨unclaimed, same⟩
    · rw [handed, claimed, count]
      refine ⟨?_, ?_⟩
      · simp [EvaluationJob.claimed, count]
      · rw [Option.toList_some, List.length_append, List.length_singleton, attemptsUpTo_succ,
          ← numbered]
    · rw [unclaimed]
      simpa [ClaimsCounted, same] using ⟨count, numbered⟩

theorem claimed_of_handed (implements : Implements repository release) {event : RepositoryEvent}
    {attempt : Int} (operates : repository.Operates state event final)
    (handed : event.handed jobId = some attempt) :
    ∃ job, repository.job? state jobId = some job ∧ job.status = .queued ∧
      attempt = job.attemptCount + 1 ∧
      repository.job? final jobId = some (job.claimed event.now) := by
  have entry := implements.entry operates jobId
  generalize repository.job? state jobId = before at entry ⊢
  generalize repository.job? final jobId = after at entry ⊢
  cases entry with
  | kept unclaimed =>
      rw [RepositoryEvent.handed_eq_none unclaimed] at handed
      cases handed
  | created _ _ replied =>
      have unclaimed : event.handed jobId = none :=
        RepositoryEvent.handed_eq_none (by simp [replied])
      rw [unclaimed] at handed
      cases handed
  | @changed job _ change =>
      rcases change.handed with ⟨number, claimed, claimable⟩ | ⟨unclaimed, _⟩
      · rw [handed, Option.some_inj] at number
        exact ⟨job, rfl, claimable.1, number, by rw [claimed]⟩
      · rw [unclaimed] at handed
        cases handed

theorem Reaches.handouts_nodup (implements : Implements repository release)
    (reached : repository.Reaches history state) : (repository.handouts history).Nodup := by
  unfold Reaches at reached
  induction reached with
  | nil => exact List.nodup_nil
  | @snoc earlier middle next event prior operates ih =>
      cases handedOut : event.handout with
      | none => simpa [handouts, handedOut] using ih
      | some handout =>
          obtain ⟨jobId, attempt⟩ := handout
          have counted := Reaches.claimsCounted implements prior jobId
          have handed := RepositoryEvent.handed_eq_some_iff.mpr handedOut
          obtain ⟨job, stored, _, number, _⟩ := claimed_of_handed implements operates handed
          rw [stored] at counted
          obtain ⟨count, numbered⟩ := counted
          have fresh : (jobId, attempt) ∉ repository.handouts earlier := by
            intro member
            rw [← mem_claims_iff, numbered] at member
            have bound := mem_attemptsUpTo member
            omega
          have extended : repository.handouts (earlier ++ [⟨middle, event, next⟩]) =
              repository.handouts earlier ++ [(jobId, attempt)] := by
            simp [handouts, handedOut]
          rw [extended, List.nodup_append]
          refine ⟨ih, List.nodup_singleton _, ?_⟩
          intro handout member other isLast same
          rw [List.mem_singleton] at isLast
          rw [same, isLast] at member
          exact fresh member

/-! ## Between two claims of one job -/

/-- Where a job can be after a claim and before the next one, with the number of times
that recovery has returned it to the queue since. -/
inductive SinceClaim : Nat → EvaluationJob → Prop where
  | attempted {job : EvaluationJob} : job.status = .running → SinceClaim 0 job
  | requeued {job : EvaluationJob} : job.status = .queued → SinceClaim 1 job
  | started {job : EvaluationJob} {count : Nat} : job.status = .running → job.claimedAt = none →
      SinceClaim count job
  | finished {job : EvaluationJob} {count : Nat} : job.status.Terminal → SinceClaim count job

theorem requeues_eq_false_of_kept {taken : Transition repository.State RepositoryEvent}
    (same : repository.job? taken.target jobId = repository.job? taken.source jobId) :
    repository.requeues jobId taken = false := by
  unfold requeues
  rw [same]
  cases stored : repository.job? taken.source jobId with
  | none => cases taken.event.call <;> rfl
  | some job =>
      cases taken.event.call with
      | recoverStaleRunning cutoff =>
          simp only [decide_eq_false_iff_not, not_and]
          intro running queued
          rw [running] at queued
          cases queued
      | _ => rfl

theorem SinceClaim.changed {taken : Transition repository.State RepositoryEvent} {count : Nat}
    {next : EvaluationJob} (since : SinceClaim count job) (sound : job.Consistent)
    (source : repository.job? taken.source jobId = some job)
    (target : repository.job? taken.target jobId = some next)
    (change : JobChange release taken.event.now jobId job taken.event.call taken.event.reply next)
    (unclaimed : taken.event.handed jobId = none) :
    SinceClaim (count + (if repository.requeues jobId taken then 1 else 0)) next := by
  obtain ⟨before, ⟨now, call, reply⟩, after⟩ := taken
  dsimp only at source target change unclaimed
  cases change with
  | claimed identified _ =>
      have handed : (RepositoryEvent.mk now .claimNextQueued
          (.claim (.ok (some (job.claimed now))))).handed jobId = some (job.attemptCount + 1) := by
        rw [RepositoryEvent.handed_eq_some_iff, ← identified]
        rfl
      rw [handed] at unclaimed
      cases unclaimed
  | @requeued cutoff recovered stale _ =>
      obtain ⟨running, claimedAt, claimed, _⟩ := stale
      have isRequeue : repository.requeues jobId
          ⟨before, ⟨now, .recoverStaleRunning cutoff, .count (.ok recovered)⟩, after⟩ = true := by
        simp [requeues, source, target, running, EvaluationJob.requeued]
      rw [isRequeue]
      cases since with
      | attempted _ => exact .requeued rfl
      | requeued queued =>
          rw [running] at queued
          cases queued
      | started _ none =>
          rw [none] at claimed
          cases claimed
      | finished terminal => exact absurd terminal (by rw [running]; decide)
  | timedOut _ _ => exact .finished (.inr rfl)
  | started queued => exact .started rfl (sound.queuedUnclaimed queued)
  | succeeded _ => exact .finished (.inl rfl)
  | failed _ => exact .finished (.inr rfl)

theorem sinceClaim_of_run (implements : Implements repository release)
    (reached : repository.Reaches history state)
    (stored : repository.job? state jobId = some job) (running : job.status = .running)
    (run : Run repository.Operates state later final)
    (unclaimed : ∀ taken ∈ later, taken.event.handed jobId = none) :
    ∃ next, repository.job? final jobId = some next ∧
      SinceClaim (later.countP (repository.requeues jobId)) next := by
  induction run with
  | nil => exact ⟨job, stored, .attempted running⟩
  | @snoc earlier middle next event prior operates ih =>
      obtain ⟨current, currentStored, since⟩ :=
        ih fun taken member => unclaimed taken (List.mem_append_left _ member)
      have entry := implements.entry operates jobId
      have sound := Reaches.consistent implements (reached.append prior) currentStored
      rw [currentStored] at entry
      generalize afterEntry : repository.job? next jobId = after at entry
      rw [List.countP_append, List.countP_singleton]
      cases entry with
      | kept _ =>
          have kept : repository.requeues jobId ⟨middle, event, next⟩ = false :=
            requeues_eq_false_of_kept (afterEntry.trans currentStored.symm)
          rw [kept]
          exact ⟨current, rfl, since⟩
      | changed change =>
          have last := unclaimed ⟨middle, event, next⟩
            (List.mem_append_right _ (List.mem_singleton_self _))
          exact ⟨_, rfl, since.changed sound currentStored afterEntry change last⟩

/-- Recovery returns a job to the queue exactly once between two consecutive claims of it. -/
theorem Reaches.requeued_once (implements : Implements repository release)
    {earlier between later : repository.History}
    {first second : Transition repository.State RepositoryEvent}
    (reached : repository.Reaches (earlier ++ first :: (between ++ second :: later)) state)
    (firstHanded : (first.event.handed jobId).isSome)
    (secondHanded : (second.event.handed jobId).isSome)
    (unclaimed : ∀ taken ∈ between, taken.event.handed jobId = none) :
    between.countP (repository.requeues jobId) = 1 := by
  obtain ⟨reachedFirst, firstOperates, rest⟩ := Run.around reached
  obtain ⟨middle, secondOperates, _⟩ := Run.around rest
  obtain ⟨attempt, firstAttempt⟩ := Option.isSome_iff_exists.mp firstHanded
  obtain ⟨job, _, _, _, claimed⟩ := claimed_of_handed implements firstOperates firstAttempt
  obtain ⟨nextAttempt, secondAttempt⟩ := Option.isSome_iff_exists.mp secondHanded
  obtain ⟨current, currentStored, queued, _⟩ :=
    claimed_of_handed implements secondOperates secondAttempt
  obtain ⟨next, nextStored, since⟩ :=
    sinceClaim_of_run implements (reachedFirst.snoc firstOperates) claimed rfl middle unclaimed
  rw [currentStored, Option.some_inj] at nextStored
  subst nextStored
  generalize between.countP (repository.requeues jobId) = count at since ⊢
  cases since with
  | attempted running =>
      rw [running] at queued
      cases queued
  | requeued _ => rfl
  | started running _ =>
      rw [running] at queued
      cases queued
  | finished terminal => exact absurd terminal (by rw [queued]; decide)

structure AttemptBudget (repository : JobRepository) (history : repository.History)
    (state : repository.State) (jobId : UUID) : Prop where
  counted : ∀ job, repository.job? state jobId = some job →
    job.attemptCount = (repository.claims jobId history).length
  withinBudget : ∀ job, repository.job? state jobId = some job →
    job.attemptCount ≤ job.maxAttempts
  queuedBudget : ∀ job, repository.job? state jobId = some job → job.status = .queued →
    job.attemptCount < job.maxAttempts
  numbered : repository.claims jobId history =
    attemptsUpTo (repository.claims jobId history).length
  requeued : ∀ earlier first between second later,
    history = earlier ++ first :: (between ++ second :: later) →
    (first.event.handed jobId).isSome → (second.event.handed jobId).isSome →
    (∀ taken ∈ between, taken.event.handed jobId = none) →
    between.countP (repository.requeues jobId) = 1

end JobRepository

open JobRepository

/-- Claims stay within each job's budget and hand out no attempt twice, in either
repository and in every history. -/
theorem attempt_budget (backend : StorageBackend)
    (history : (buildRepository backend).History) (state : (buildRepository backend).State)
    (reached : (buildRepository backend).Reaches history state) :
    (∀ jobId, AttemptBudget (buildRepository backend) history state jobId) ∧
      ((buildRepository backend).handouts history).Nodup := by
  have implements := buildRepository_implements backend
  refine ⟨fun jobId => ?_, reached.handouts_nodup implements⟩
  have counted := reached.claimsCounted implements jobId
  constructor
  · intro job stored
    rw [stored] at counted
    exact counted.1
  · intro job stored
    exact (reached.consistent implements stored).withinBudget
  · intro job stored
    exact (reached.consistent implements stored).queuedBudget
  · cases stored : (buildRepository backend).job? state jobId with
    | none =>
        rw [stored] at counted
        have none : (buildRepository backend).claims jobId history = [] := counted
        rw [none]
        rfl
    | some job =>
        rw [stored] at counted
        exact counted.2
  · intro earlier first between second later split firstHanded secondHanded unclaimed
    subst split
    exact reached.requeued_once implements firstHanded secondHanded unclaimed

/-- Two workers, one of which is lost: the job is claimed twice, under two numbers. -/
theorem attempt_budget_two_claims :
    let calls : List (DateTime × RepositoryCall) :=
      [(0, .create (demoJob 7 2)), (1, .claimNextQueued), (2, .claimNextQueued),
        (3, .recoverStaleRunning 3), (4, .claimNextQueued)]
    let run := inMemoryRepository.replay inMemoryRepository.empty calls
    inMemoryRepository.handouts run.1 = [(7, 1), (7, 2)] ∧
      ((∀ jobId, AttemptBudget (buildRepository .memory) run.1 run.2 jobId) ∧
        ((buildRepository .memory).handouts run.1).Nodup) := by
  refine ⟨by decide, attempt_budget .memory _ _ ?_⟩
  exact inMemoryRepository.reaches_replay _ (by decide)

end EvaluationService
