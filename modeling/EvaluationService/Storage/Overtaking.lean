import Mathlib.Algebra.Ring.Int.Defs
import Mathlib.Data.List.Perm.Subperm
import EvaluationService.Storage.Attempts

/-!
Overtaking. A requeued job keeps the time of its creation and goes ahead of younger
jobs again. Each time it is claimed it uses up one of its attempts, so a claimable job
is overtaken at most as often as the jobs ahead of it have attempts.
-/

set_option autoImplicit false

namespace EvaluationService

open Foundation

theorem RepositoryEvent.handout_eq_some_iff {event : RepositoryEvent} {handout : UUID × Int} :
    event.handout = some handout ↔ event.call = .claimNextQueued ∧
      ∃ job, event.reply = .claim (.ok (some job)) ∧ (job.jobId, job.attemptCount) = handout := by
  unfold RepositoryEvent.handout
  split
  · rename_i job isClaim replied
    simp [isClaim, replied]
  · rename_i other
    refine ⟨fun none => (by cases none), ?_⟩
    rintro ⟨isClaim, job, replied, _⟩
    exact (other job isClaim replied).elim

theorem length_attemptsUpTo (count : Nat) : (attemptsUpTo count).length = count := by
  simp [attemptsUpTo]

theorem mem_attemptsUpTo_of_le {count : Nat} {attempt : Int} (positive : 1 ≤ attempt)
    (within : attempt ≤ count) : attempt ∈ attemptsUpTo count := by
  simp only [attemptsUpTo, List.mem_map, List.mem_range]
  exact ⟨(attempt - 1).toNat, by omega, by omega⟩

/-- Every attempt that a list of jobs allows. -/
def allowedAttempts (jobs : List EvaluationJob) : List (UUID × Int) :=
  jobs.flatMap fun job => (attemptsUpTo job.maxAttempts.toNat).map fun attempt => (job.jobId, attempt)

theorem length_allowedAttempts {jobs : List EvaluationJob}
    (budgets : ∀ job ∈ jobs, 0 ≤ job.maxAttempts) :
    ((allowedAttempts jobs).length : Int) = (jobs.map (·.maxAttempts)).sum := by
  induction jobs with
  | nil => rfl
  | cons job rest ih =>
      have restBudgets := ih fun other member => budgets other (List.mem_cons_of_mem _ member)
      have budget := budgets job List.mem_cons_self
      rw [allowedAttempts, List.flatMap_cons, List.length_append, List.length_map,
        length_attemptsUpTo, List.map_cons, List.sum_cons, ← restBudgets, Int.natCast_add,
        Int.toNat_of_nonneg budget]
      rfl

/-- Distinct attempts within the budgets of some jobs are no more than these jobs allow. -/
theorem length_le_budgets {jobs : List EvaluationJob} {handouts : List (UUID × Int)}
    (budgets : ∀ job ∈ jobs, 0 ≤ job.maxAttempts) (nodup : handouts.Nodup)
    (within : ∀ handout ∈ handouts, ∃ job ∈ jobs,
      job.jobId = handout.1 ∧ 1 ≤ handout.2 ∧ handout.2 ≤ job.maxAttempts) :
    (handouts.length : Int) ≤ (jobs.map (·.maxAttempts)).sum := by
  have allowed : handouts ⊆ allowedAttempts jobs := by
    intro handout member
    obtain ⟨job, isJob, identified, positive, budget⟩ := within handout member
    rw [allowedAttempts, List.mem_flatMap]
    refine ⟨job, isJob, List.mem_map.mpr ⟨handout.2, ?_, ?_⟩⟩
    · exact mem_attemptsUpTo_of_le positive (by omega)
    · rw [identified]
  rw [← length_allowedAttempts budgets]
  exact_mod_cast (nodup.subperm allowed).length_le

instance (job : EvaluationJob) : Decidable job.Claimable :=
  inferInstanceAs (Decidable (_ ∧ _))

namespace JobRepository

variable {repository : JobRepository} {release : Option DateTime → Option DateTime}
variable {history segment : repository.History} {state final : repository.State}
variable {jobId : UUID}

/-- The job is queued with attempts left in the state before a segment and after each of
its steps. -/
def ClaimableThroughout (repository : JobRepository) (jobId : UUID) (state : repository.State)
    (segment : repository.History) : Prop :=
  ∀ visited ∈ state :: segment.map (·.target),
    ∃ job ∈ repository.job? visited jobId, job.Claimable

instance (jobId : UUID) (state : repository.State) (segment : repository.History) :
    Decidable (repository.ClaimableThroughout jobId state segment) :=
  List.decidableBAll _ _

theorem ClaimableThroughout.before {earlier rest : repository.History}
    {taken : Transition repository.State RepositoryEvent}
    (throughout : repository.ClaimableThroughout jobId state (earlier ++ taken :: rest))
    (run : Run repository.Operates state earlier taken.source) :
    ∃ job, repository.job? taken.source jobId = some job ∧ job.Claimable := by
  refine throughout taken.source ?_
  generalize taken.source = source at run
  cases run with
  | nil => exact List.mem_cons_self
  | snoc _ _ => simp

theorem ClaimableThroughout.after {taken : Transition repository.State RepositoryEvent}
    (throughout : repository.ClaimableThroughout jobId state segment) (member : taken ∈ segment) :
    ∃ job, repository.job? taken.target jobId = some job ∧ job.Claimable :=
  throughout taken.target (List.mem_cons_of_mem _ (List.mem_map_of_mem member))

/-- A claim made while a job is claimable succeeds, with a job at least as old. -/
theorem claim_of_claimable (implements : Implements repository release) {now : DateTime}
    {reply : RepositoryReply} {waiting : EvaluationJob}
    (operates : repository.Operates state ⟨now, .claimNextQueued, reply⟩ final)
    (stored : repository.job? state jobId = some waiting) (claimable : waiting.Claimable) :
    ∃ job, repository.job? state job.jobId = some job ∧ job.Claimable ∧
      job.createdAt ≤ waiting.createdAt ∧ reply = .claim (.ok (some (job.claimed now))) ∧
      repository.job? final job.jobId = some (job.claimed now) := by
  have effect := implements.operates operates
  dsimp only at effect
  generalize repository.job? final = after at effect ⊢
  cases effect with
  | claimNone none => exact absurd claimable (none jobId waiting stored)
  | @claim job found ready oldest =>
      refine ⟨job, found, ready, oldest jobId waiting stored claimable, rfl, ?_⟩
      exact Function.update_self _ _ _
  | refuse guarded _ => cases guarded

end JobRepository

open JobRepository

/-- The jobs that go before a job of the given time. -/
def InMemoryJobRepository.ahead (repository : InMemoryJobRepository) (jobId : UUID)
    (createdAt : DateTime) : List EvaluationJob :=
  repository.jobs.rows.filter fun other => other.jobId ≠ jobId ∧ other.createdAt ≤ createdAt

structure BoundedOvertaking (segment : inMemoryRepository.History) (final : InMemoryJobRepository)
    (waiting : EvaluationJob) : Prop where
  claims : ∀ taken ∈ segment, taken.event.call = .claimNextQueued →
    ∃ claimed, taken.event.reply = .claim (.ok (some claimed)) ∧
      claimed.createdAt ≤ waiting.createdAt
  bounded : ((inMemoryRepository.handouts segment).length : Int) ≤
    ((final.ahead waiting.jobId waiting.createdAt).map (·.maxAttempts)).sum

namespace InMemoryJobRepository

variable {history segment : inMemoryRepository.History} {state final : InMemoryJobRepository}
variable {waiting : EvaluationJob}

theorem mem_ahead {jobId : UUID} {createdAt : DateTime} {job : EvaluationJob} :
    job ∈ final.ahead jobId createdAt ↔ inMemoryRepository.job? final job.jobId = some job ∧
      job.jobId ≠ jobId ∧ job.createdAt ≤ createdAt := by
  rw [ahead, List.mem_filter, mem_rows_iff, decide_eq_true_iff]

theorem claim_in_segment (run : Run inMemoryRepository.Operates state segment final)
    (stored : inMemoryRepository.job? state waiting.jobId = some waiting)
    (throughout : inMemoryRepository.ClaimableThroughout waiting.jobId state segment)
    {taken : Transition InMemoryJobRepository RepositoryEvent} (member : taken ∈ segment)
    (isClaim : taken.event.call = .claimNextQueued) :
    ∃ job, inMemoryRepository.job? taken.source job.jobId = some job ∧ job.Claimable ∧
      job.createdAt ≤ waiting.createdAt ∧
      taken.event.reply = .claim (.ok (some (job.claimed taken.event.now))) ∧
      inMemoryRepository.job? taken.target job.jobId = some (job.claimed taken.event.now) := by
  have implements := inMemoryRepository_implements
  obtain ⟨earlier, rest, rfl⟩ := List.append_of_mem member
  obtain ⟨before, operates, _⟩ := run.around
  obtain ⟨current, currentStored, claimable⟩ := throughout.before before
  obtain ⟨next, nextStored, same⟩ := sameSubmission_of_run implements before stored
  obtain rfl : current = next := Option.some.inj (currentStored.symm.trans nextStored)
  obtain ⟨source, ⟨now, call, reply⟩, target⟩ := taken
  obtain rfl : call = .claimNextQueued := isClaim
  obtain ⟨job, found, ready, older, claimed⟩ :=
    claim_of_claimable implements operates currentStored claimable
  rw [same.createdAt] at older
  exact ⟨job, found, ready, older, claimed⟩

/-- A claim in the segment handed out an attempt of a job ahead of the waiting one. -/
theorem handout_ahead (reached : inMemoryRepository.Reaches history state)
    (run : Run inMemoryRepository.Operates state segment final)
    (stored : inMemoryRepository.job? state waiting.jobId = some waiting)
    (throughout : inMemoryRepository.ClaimableThroughout waiting.jobId state segment)
    {handout : UUID × Int} (member : handout ∈ inMemoryRepository.handouts segment) :
    ∃ job ∈ final.ahead waiting.jobId waiting.createdAt,
      job.jobId = handout.1 ∧ 1 ≤ handout.2 ∧ handout.2 ≤ job.maxAttempts := by
  have implements := inMemoryRepository_implements
  obtain ⟨taken, isTaken, handedOut⟩ := List.mem_filterMap.mp member
  obtain ⟨isClaim, given, replied, rfl⟩ := RepositoryEvent.handout_eq_some_iff.mp handedOut
  obtain ⟨job, found, ready, older, claimed, target⟩ :=
    claim_in_segment run stored throughout isTaken isClaim
  obtain rfl : given = job.claimed taken.event.now := by simpa [claimed] using replied.symm
  obtain ⟨earlier, rest, rfl⟩ := List.append_of_mem isTaken
  obtain ⟨before, _, after⟩ := run.around
  have sound := Reaches.consistent implements (reached.append before) found
  obtain ⟨next, nextStored, same⟩ := sameSubmission_of_run implements after target
  have nextId : next.jobId = job.jobId := same.jobId
  refine ⟨next, mem_ahead.mpr ⟨?_, ?_, ?_⟩, same.jobId, ?_, ?_⟩
  · rw [nextId]
    exact nextStored
  · -- the waiting job is queued after the claim, the claimed one is running
    intro isWaiting
    obtain ⟨current, currentStored, queued, _⟩ := throughout.after isTaken
    rw [← isWaiting, nextId, target, Option.some_inj] at currentStored
    rw [← currentStored] at queued
    cases queued
  · rw [same.createdAt]
    exact older
  · have nonnegative := sound.nonnegative
    simp only [EvaluationJob.claimed]
    omega
  · have remaining := ready.2
    rw [same.maxAttempts]
    simp only [EvaluationJob.claimed]
    omega

end InMemoryJobRepository

/-- While a job is claimable, claims return jobs at least as old, and no more of them than
the attempts of the other jobs as old. -/
theorem bounded_overtaking (history segment : inMemoryRepository.History)
    (state final : InMemoryJobRepository) (waiting : EvaluationJob)
    (reached : inMemoryRepository.Reaches history state)
    (run : Run inMemoryRepository.Operates state segment final)
    (stored : inMemoryRepository.job? state waiting.jobId = some waiting)
    (throughout : inMemoryRepository.ClaimableThroughout waiting.jobId state segment) :
    BoundedOvertaking segment final waiting := by
  have implements := inMemoryRepository_implements
  constructor
  · intro taken member isClaim
    obtain ⟨job, _, _, older, claimed, _⟩ :=
      InMemoryJobRepository.claim_in_segment run stored throughout member isClaim
    exact ⟨_, claimed, older⟩
  · refine length_le_budgets ?_ ?_ ?_
    · intro job isAhead
      have sound := Reaches.consistent implements (reached.append run)
        (InMemoryJobRepository.mem_ahead.mp isAhead).1
      exact sound.nonnegative.trans sound.withinBudget
    · have nodup := Reaches.handouts_nodup implements (reached.append run)
      rw [handouts, List.filterMap_append] at nodup
      exact nodup.of_append_right
    · intro handout member
      exact InMemoryJobRepository.handout_ahead reached run stored throughout member

/-- An older job goes ahead of the waiting one twice, on its two attempts. -/
theorem bounded_overtaking_two_claims :
    let younger : EvaluationJob := { demoJob 8 1 with createdAt := 5 }
    let before := inMemoryRepository.replay inMemoryRepository.empty
      [(0, .create (demoJob 7 2)), (5, .create younger)]
    let during := inMemoryRepository.replay before.2
      [(6, .claimNextQueued), (7, .recoverStaleRunning 7), (8, .claimNextQueued)]
    inMemoryRepository.handouts during.1 = [(7, 1), (7, 2)] ∧
      BoundedOvertaking during.1 during.2 younger := by
  intro younger before during
  refine ⟨by decide, bounded_overtaking before.1 during.1 before.2 during.2 younger ?_ ?_ ?_ ?_⟩
  · exact inMemoryRepository.reaches_replay _ (by decide)
  · exact inMemoryRepository.run_replay (by decide)
  · decide
  · decide

end EvaluationService
