import Mathlib.Data.Set.Card
import EvaluationService.Storage.Factory
import EvaluationService.Storage.History

/-!
What `list_recent` returns: the newest of the matching jobs, as many as the limit admits.
PostgreSQL may order jobs of the same time differently from one query to the next, so
that a longer list goes on where a shorter one ended only if the times are distinct.
-/

set_option autoImplicit false

namespace EvaluationService

open Foundation

/-- The stored jobs of a tenant, and of a project if one is given. -/
def matchingJobs (store : Lookup) (tenantId : String) (projectId : Option String) :
    Set EvaluationJob :=
  {job | store job.jobId = some job ∧ job.Listed tenantId projectId}

/-- The newest `limit` of the matching jobs, newest first. -/
structure NewestFirst (store : Lookup) (tenantId : String) (projectId : Option String) (limit : Nat)
    (listed : List EvaluationJob) : Prop where
  nodup : listed.Nodup
  finite : (matchingJobs store tenantId projectId).Finite
  length : listed.length = min limit (matchingJobs store tenantId projectId).ncard
  matching : ∀ job ∈ listed, job ∈ matchingJobs store tenantId projectId
  ordered : listed.Pairwise fun newer older => older.createdAt ≤ newer.createdAt
  newest : ∀ job ∈ matchingJobs store tenantId projectId, job ∉ listed →
    ∀ kept ∈ listed, job.createdAt ≤ kept.createdAt

def DistinctTimes (store : Lookup) : Prop :=
  ∀ jobId job other otherJob, store jobId = some job → store other = some otherJob →
    job.createdAt = otherJob.createdAt → job = otherJob

structure ListsExactly (repository : JobRepository) (state : repository.State) : Prop where
  /-- Whatever the layout in which the backend holds the jobs, a query replies with them. -/
  lists : ∀ tenantId projectId limit now reply next, 1 ≤ limit →
    repository.Step state ⟨now, .listRecent tenantId projectId limit, reply⟩ next →
    ∃ listed, reply = .jobs (.ok listed) ∧
      NewestFirst (repository.job? state) tenantId projectId limit listed
  /-- A query with a larger limit only appends to the list of one with a smaller limit. -/
  grows : ∀ tenantId projectId limit larger now later listed longer next otherNext,
    1 ≤ limit → limit ≤ larger →
    repository.Step state ⟨now, .listRecent tenantId projectId limit, .jobs (.ok listed)⟩ next →
    repository.Step state ⟨later, .listRecent tenantId projectId larger, .jobs (.ok longer)⟩
      otherNext →
    listed <+: longer

section Listing

variable {repository : JobRepository} {release : Option DateTime → Option DateTime}
variable {state next : repository.State} {store : Lookup} {tenantId : String}
variable {projectId : Option String} {limit : Nat} {now : DateTime} {reply : RepositoryReply}

theorem newestFirst_take {listed : List EvaluationJob} (nodup : listed.Nodup)
    (members : ∀ job, job ∈ listed ↔ store job.jobId = some job ∧ job.Listed tenantId projectId)
    (ordered : listed.Pairwise fun newer older => older.createdAt ≤ newer.createdAt) (limit : Nat) :
    NewestFirst store tenantId projectId limit (listed.take limit) := by
  have isMatching : matchingJobs store tenantId projectId = (listed.toFinset : Set EvaluationJob) := by
    ext job
    simp [matchingJobs, members]
  constructor
  · exact nodup.sublist (List.take_sublist limit listed)
  · rw [isMatching]
    exact Finset.finite_toSet _
  · rw [isMatching, Set.ncard_coe_finset, List.toFinset_card_of_nodup nodup, List.length_take]
  · intro job member
    exact (members job).mp (List.mem_of_mem_take member)
  · exact ordered.sublist (List.take_sublist limit listed)
  · intro job isMatch leftOut kept isKept
    exact le_of_not_mem_take ordered ((members job).mpr isMatch) leftOut isKept

theorem Implements.listRecent (implements : Implements repository release)
    (stepped : repository.Step state ⟨now, .listRecent tenantId projectId limit, reply⟩ next) :
    ∃ listed : List EvaluationJob, reply = .jobs (.ok (listed.take limit)) ∧ listed.Nodup ∧
      (∀ job, job ∈ listed ↔ repository.job? state job.jobId = some job ∧
        job.Listed tenantId projectId) ∧
      listed.Pairwise fun newer older => older.createdAt ≤ newer.createdAt :=
  (implements.step (by intro _ create; cases create) stepped).listRecent_eq.2

/-- Where the times are distinct a longer list goes on where a shorter one ended. -/
theorem listRecent_grows (implements : Implements repository release)
    (distinct : DistinctTimes (repository.job? state)) {larger : Nat} {later : DateTime}
    {listed longer : List EvaluationJob} {otherNext : repository.State} (limits : limit ≤ larger)
    (stepped : repository.Step state
      ⟨now, .listRecent tenantId projectId limit, .jobs (.ok listed)⟩ next)
    (otherStepped : repository.Step state
      ⟨later, .listRecent tenantId projectId larger, .jobs (.ok longer)⟩ otherNext) :
    listed <+: longer := by
  obtain ⟨whole, replied, nodup, members, ordered⟩ := implements.listRecent stepped
  obtain ⟨otherWhole, otherReplied, otherNodup, otherMembers, otherOrdered⟩ :=
    implements.listRecent otherStepped
  cases replied
  cases otherReplied
  have permuted : whole.Perm otherWhole := by
    rw [List.perm_ext_iff_of_nodup nodup otherNodup]
    intro job
    rw [members, otherMembers]
  have same : whole = otherWhole := by
    refine eq_of_perm_of_descending EvaluationJob.createdAt ?_ ordered otherOrdered permuted
    intro job member other otherMember sameTime
    exact distinct _ _ _ _ ((members job).mp member).1 ((otherMembers other).mp otherMember).1 sameTime
  rw [same]
  exact List.take_prefix_take_left limits

end Listing

theorem InMemoryJobRepository.listRecent_grows {state next otherNext : inMemoryRepository.State}
    {tenantId : String} {projectId : Option String} {limit larger : Nat} {now later : DateTime}
    {listed longer : List EvaluationJob} (limits : limit ≤ larger)
    (stepped : inMemoryRepository.Step state
      ⟨now, .listRecent tenantId projectId limit, .jobs (.ok listed)⟩ next)
    (otherStepped : inMemoryRepository.Step state
      ⟨later, .listRecent tenantId projectId larger, .jobs (.ok longer)⟩ otherNext) :
    listed <+: longer := by
  -- one dictionary has one order of iteration
  obtain ⟨_, rfl, performed⟩ := stepped
  obtain ⟨_, rfl, otherPerformed⟩ := otherStepped
  cases performed
  cases otherPerformed
  exact List.take_prefix_take_left limits

/-- In memory the list is exact in every state, in PostgreSQL in every state whose jobs have
distinct times. -/
theorem list_recent_exact (backend : StorageBackend) (state : (buildRepository backend).State)
    (distinct : backend = .postgres → DistinctTimes ((buildRepository backend).job? state)) :
    ListsExactly (buildRepository backend) state := by
  have implements := buildRepository_implements backend
  constructor
  · intro tenantId projectId limit now reply next _ stepped
    obtain ⟨listed, replied, nodup, members, ordered⟩ := implements.listRecent stepped
    exact ⟨_, replied, newestFirst_take nodup members ordered limit⟩
  · intro tenantId projectId limit larger now later listed longer next otherNext _ limits stepped
      otherStepped
    cases backend with
    | memory => exact InMemoryJobRepository.listRecent_grows limits stepped otherStepped
    | postgres => exact listRecent_grows implements (distinct rfl) limits stepped otherStepped

/-- The times of the rows are the times of the jobs. -/
theorem PostgresJobRepository.distinctTimes_of_nodup {state : PostgresJobRepository}
    (nodup : (state.evaluationJobs.rows.map (·.createdAt)).Nodup) :
    DistinctTimes (postgresRepository.job? state) := by
  intro jobId job other otherJob stored otherStored sameTime
  obtain ⟨row, member, decoded⟩ := state.exists_row stored
  obtain ⟨otherRow, otherMember, otherDecoded⟩ := state.exists_row otherStored
  have sameRow : row = otherRow := by
    refine List.inj_on_of_nodup_map nodup member otherMember ?_
    rw [← row.createdAt_eq job decoded, ← otherRow.createdAt_eq otherJob otherDecoded]
    exact sameTime
  rw [sameRow, otherDecoded] at decoded
  exact (Except.ok.inj decoded).symm

/-- Two jobs of one tenant, created at different times. -/
def twoJobs : List (DateTime × RepositoryCall) :=
  [(0, .create (demoJob 7 2)), (1, .create { demoJob 8 2 with createdAt := 1 })]

theorem list_recent_exact_two_jobs :
    let state := ((buildRepository .postgres).replay (buildRepository .postgres).empty twoJobs).2
    ListsExactly (buildRepository .postgres) state ∧
      ((buildRepository .postgres).listRecent state "tenant-a" none 1).toOption =
        some [{ demoJob 8 2 with createdAt := 1 }] := by
  intro state
  refine ⟨list_recent_exact .postgres state fun _ => ?_, by decide⟩
  exact PostgresJobRepository.distinctTimes_of_nodup (by decide)

end EvaluationService
