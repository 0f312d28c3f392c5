import Mathlib.Data.Set.Card
import EvaluationService.Storage.Factory

/-!
Recovery passes one after the other. A pass takes every job that it changes out of the running
ones, so what the next pass finds is what it would have found alone, less what the first one
took. The reading of the clock that a pass leaves in a job is all that tells two passes from
one.
-/

set_option autoImplicit false

namespace EvaluationService

namespace EvaluationJob

variable (job : EvaluationJob) (cutoff first second now later : DateTime)

/-- A job without the time of its last change. -/
def untimed : EvaluationJob := { job with updatedAt := 0 }

theorem stale_max_iff : job.Stale (max first second) ↔ job.Stale first ∨ job.Stale second := by
  constructor
  · intro given
    obtain ⟨running, claimedAt, claimed, early⟩ := given
    rcases lt_max_iff.mp early with early | early
    · exact .inl ⟨running, claimedAt, claimed, early⟩
    · exact .inr ⟨running, claimedAt, claimed, early⟩
  · intro given
    rcases given with ⟨running, claimedAt, claimed, early⟩ | ⟨running, claimedAt, claimed, early⟩
    · exact ⟨running, claimedAt, claimed, lt_max_iff.mpr (.inl early)⟩
    · exact ⟨running, claimedAt, claimed, lt_max_iff.mpr (.inr early)⟩

variable {job cutoff first}

theorem recovered_of_stale (stale : job.Stale cutoff) :
    job.recovered cutoff now =
      if job.attemptCount ≥ job.maxAttempts then job.timedOut now else job.requeued now :=
  if_pos stale

theorem recovered_of_not_stale (kept : ¬ job.Stale cutoff) : job.recovered cutoff now = job :=
  if_neg kept

theorem status_recovered_ne (stale : job.Stale cutoff) :
    (job.recovered cutoff now).status ≠ .running := by
  rw [recovered_of_stale now stale]
  split
  · exact JobStatus.noConfusion
  · exact JobStatus.noConfusion

theorem recovered_ne_self_iff : job.recovered cutoff now ≠ job ↔ job.Stale cutoff := by
  constructor
  · intro changed
    by_contra kept
    exact changed (recovered_of_not_stale now kept)
  · intro stale same
    have status := status_recovered_ne now stale
    rw [same] at status
    exact status stale.1

/-- A job that one pass took is not stale for another. -/
theorem stale_recovered_iff :
    (job.recovered first now).Stale second ↔ job.Stale second ∧ ¬ job.Stale first := by
  by_cases stale : job.Stale first
  · constructor
    · intro again
      exact absurd again.1 (status_recovered_ne now stale)
    · intro both
      exact absurd stale both.2
  · rw [recovered_of_not_stale now stale]
    exact (and_iff_left stale).symm

theorem untimed_recovered (stale : job.Stale cutoff) :
    (job.recovered cutoff now).untimed =
      (if job.attemptCount ≥ job.maxAttempts then job.timedOut 0 else job.requeued 0) := by
  rw [recovered_of_stale now stale]
  split
  · rfl
  · rfl

theorem untimed_recovered_recovered (single : DateTime) :
    ((job.recovered first now).recovered second later).untimed =
      (job.recovered (max first second) single).untimed := by
  by_cases taken : job.Stale first
  · have left : ¬ (job.recovered first now).Stale second := by
      rw [stale_recovered_iff]
      exact fun both => both.2 taken
    have stale := (job.stale_max_iff first second).mpr (.inl taken)
    rw [recovered_of_not_stale later left, untimed_recovered now taken,
      untimed_recovered single stale]
  · rw [recovered_of_not_stale now taken]
    by_cases stale : job.Stale second
    · have together := (job.stale_max_iff first second).mpr (.inr stale)
      rw [untimed_recovered later stale, untimed_recovered single together]
    · have neither : ¬ job.Stale (max first second) := by
        rw [stale_max_iff]
        exact not_or_intro taken stale
      rw [recovered_of_not_stale later stale, recovered_of_not_stale single neither]

end EvaluationJob

/-! ## Stores -/

section Passes

variable {release : Option DateTime → Option DateTime} {now : DateTime} {before after : Lookup}
variable {reply : RepositoryReply} {cutoff : DateTime}

/-- The running jobs that were claimed before the cutoff. -/
def staleJobs (before : Lookup) (cutoff : DateTime) : Set UUID :=
  {jobId | ∃ job, before jobId = some job ∧ job.Stale cutoff}

theorem mem_staleJobs_iff {jobId : UUID} {job : EvaluationJob} (stored : before jobId = some job) :
    jobId ∈ staleJobs before cutoff ↔ job.Stale cutoff := by
  constructor
  · intro given
    obtain ⟨other, otherStored, stale⟩ := given
    rw [stored] at otherStored
    rwa [Option.some.inj otherStored]
  · exact fun stale => ⟨job, stored, stale⟩

theorem Effect.recover_eq
    (effect : Effect release now before (.recoverStaleRunning cutoff) reply after) :
    after = (fun jobId => (before jobId).map (·.recovered cutoff now)) ∧
      (staleJobs before cutoff).Finite ∧
      reply = .count (.ok (staleJobs before cutoff).ncard) := by
  cases effect with
  | @recover _ stale nodup members =>
      have same : staleJobs before cutoff = (stale.toFinset : Set UUID) := by
        ext jobId
        rw [List.coe_toFinset]
        exact (members jobId).symm
      refine ⟨rfl, same ▸ Finset.finite_toSet _, ?_⟩
      rw [same, Set.ncard_coe_finset, List.toFinset_card_of_nodup nodup]
  | refuse guarded _ => cases guarded

theorem staleJobs_max (before : Lookup) (first second : DateTime) :
    staleJobs before (max first second) = staleJobs before first ∪ staleJobs before second := by
  ext jobId
  constructor
  · intro given
    obtain ⟨job, stored, stale⟩ := given
    rcases (job.stale_max_iff first second).mp stale with stale | stale
    · exact .inl ⟨job, stored, stale⟩
    · exact .inr ⟨job, stored, stale⟩
  · intro given
    rcases given with ⟨job, stored, stale⟩ | ⟨job, stored, stale⟩
    · exact ⟨job, stored, (job.stale_max_iff first second).mpr (.inl stale)⟩
    · exact ⟨job, stored, (job.stale_max_iff first second).mpr (.inr stale)⟩

/-- What a pass finds after another one. -/
theorem staleJobs_recovered (before : Lookup) (first second now : DateTime) :
    staleJobs (fun jobId => (before jobId).map (·.recovered first now)) second =
      staleJobs before second \ staleJobs before first := by
  ext jobId
  constructor
  · intro given
    obtain ⟨recovered, found, stale⟩ := given
    obtain ⟨job, stored, rfl⟩ := Option.map_eq_some_iff.mp found
    obtain ⟨late, kept⟩ := (EvaluationJob.stale_recovered_iff second now).mp stale
    exact ⟨⟨job, stored, late⟩, fun taken => kept ((mem_staleJobs_iff stored).mp taken)⟩
  · intro given
    obtain ⟨⟨job, stored, late⟩, kept⟩ := given
    have found : (before jobId).map (·.recovered first now) = some (job.recovered first now) :=
      congrArg _ stored
    refine ⟨job.recovered first now, found, ?_⟩
    rw [EvaluationJob.stale_recovered_iff]
    exact ⟨late, fun taken => kept ((mem_staleJobs_iff stored).mpr taken)⟩

theorem Implements.recovers {repository : JobRepository} (implements : Implements repository release)
    {state next : repository.State}
    (stepped : repository.Step state ⟨now, .recoverStaleRunning cutoff, reply⟩ next) :
    repository.job? next =
        (fun jobId => (repository.job? state jobId).map (·.recovered cutoff now)) ∧
      (staleJobs (repository.job? state) cutoff).Finite ∧
      reply = .count (.ok (staleJobs (repository.job? state) cutoff).ncard) :=
  (implements.step (fun _ created => by cases created) stepped).recover_eq

end Passes

/-- One pass, by the jobs that it changes and by its count. -/
structure RecoversStale (before : Lookup) (cutoff : DateTime) (reply : RepositoryReply)
    (after : Lookup) : Prop where
  changes : ∀ jobId, after jobId ≠ before jobId ↔ jobId ∈ staleJobs before cutoff
  finite : (staleJobs before cutoff).Finite
  counts : reply = .count (.ok (staleJobs before cutoff).ncard)

structure RecoveryComposes (repository : JobRepository) (state : repository.State) : Prop where
  passes : ∀ cutoff now reply next,
    repository.Step state ⟨now, .recoverStaleRunning cutoff, reply⟩ next →
    RecoversStale (repository.job? state) cutoff reply (repository.job? next)
  /-- Two passes, each at its own time, against one at a third time. -/
  composes : ∀ first second now later single firstReply secondReply singleReply between last once,
    repository.Step state ⟨now, .recoverStaleRunning first, firstReply⟩ between →
    repository.Step between ⟨later, .recoverStaleRunning second, secondReply⟩ last →
    repository.Step state ⟨single, .recoverStaleRunning (max first second), singleReply⟩ once →
    (∀ jobId, (repository.job? last jobId).map EvaluationJob.untimed =
      (repository.job? once jobId).map EvaluationJob.untimed) ∧
    ∃ firstCount secondCount, firstReply = .count (.ok firstCount) ∧
      secondReply = .count (.ok secondCount) ∧
      singleReply = .count (.ok (firstCount + secondCount))
  repeats : ∀ cutoff now later firstReply secondReply between last,
    repository.Step state ⟨now, .recoverStaleRunning cutoff, firstReply⟩ between →
    repository.Step between ⟨later, .recoverStaleRunning cutoff, secondReply⟩ last →
    secondReply = .count (.ok 0)

theorem recovery_composes (backend : StorageBackend) (state : (buildRepository backend).State) :
    RecoveryComposes (buildRepository backend) state := by
  have implements := buildRepository_implements backend
  constructor
  · intro cutoff now reply next stepped
    obtain ⟨after, finite, counted⟩ := implements.recovers stepped
    refine ⟨?_, finite, counted⟩
    intro jobId
    rw [after]
    dsimp only
    cases stored : (buildRepository backend).job? state jobId with
    | none =>
        rw [Option.map_none, ne_eq, eq_self, not_true, false_iff]
        intro given
        obtain ⟨job, found, _⟩ := given
        rw [stored] at found
        cases found
    | some job =>
        rw [mem_staleJobs_iff stored, Option.map_some, ne_eq, Option.some_inj]
        exact EvaluationJob.recovered_ne_self_iff now
  · intro first second now later single firstReply secondReply singleReply between last once
      firstPass secondPass singlePass
    obtain ⟨afterFirst, finite, firstCount⟩ := implements.recovers firstPass
    obtain ⟨afterSecond, laterFinite, secondCount⟩ := implements.recovers secondPass
    obtain ⟨afterSingle, _, singleCount⟩ := implements.recovers singlePass
    refine ⟨?_, _, _, firstCount, secondCount, ?_⟩
    · intro jobId
      rw [afterSecond, afterFirst, afterSingle]
      dsimp only
      rw [Option.map_map, Option.map_map, Option.map_map]
      exact Option.map_congr fun job _ => job.untimed_recovered_recovered second now later single
    · rw [afterFirst, staleJobs_recovered] at laterFinite ⊢
      rw [singleCount, staleJobs_max, ← Set.union_sdiff_self,
        Set.ncard_union_eq Set.disjoint_sdiff_right finite laterFinite]
  · intro cutoff now later firstReply secondReply between last firstPass secondPass
    obtain ⟨afterFirst, _, _⟩ := implements.recovers firstPass
    obtain ⟨_, _, counted⟩ := implements.recovers secondPass
    rw [counted, afterFirst, staleJobs_recovered, Set.sdiff_self, Set.ncard_empty]

end EvaluationService
