import Mathlib.Data.List.Forall2
import EvaluationService.Storage.Lifecycle

/-!
The two repositories agree. Each refines the contract, and the contract fixes every
reply up to the fields in which the repositories may differ: `updated_at`, and the
`claimed_at` of a finished job. Two runs over the same calls therefore move in
lockstep through stores that agree on everything else.
-/

set_option autoImplicit false

namespace EvaluationService

open Foundation

namespace EvaluationJob

structure Agrees (left right : EvaluationJob) : Prop where
  jobId : left.jobId = right.jobId
  tenantId : left.tenantId = right.tenantId
  projectId : left.projectId = right.projectId
  status : left.status = right.status
  request : left.request = right.request
  result : left.result = right.result
  errorMessage : left.errorMessage = right.errorMessage
  attemptCount : left.attemptCount = right.attemptCount
  maxAttempts : left.maxAttempts = right.maxAttempts
  createdAt : left.createdAt = right.createdAt
  claimedAt : ¬ left.status.Terminal → left.claimedAt = right.claimedAt

namespace Agrees

variable {left right : EvaluationJob}

theorem refl (job : EvaluationJob) : job.Agrees job :=
  ⟨rfl, rfl, rfl, rfl, rfl, rfl, rfl, rfl, rfl, rfl, fun _ => rfl⟩

theorem symm (agrees : left.Agrees right) : right.Agrees left where
  jobId := agrees.jobId.symm
  tenantId := agrees.tenantId.symm
  projectId := agrees.projectId.symm
  status := agrees.status.symm
  request := agrees.request.symm
  result := agrees.result.symm
  errorMessage := agrees.errorMessage.symm
  attemptCount := agrees.attemptCount.symm
  maxAttempts := agrees.maxAttempts.symm
  createdAt := agrees.createdAt.symm
  claimedAt := fun unfinished => (agrees.claimedAt (agrees.status ▸ unfinished)).symm

theorem claimable (agrees : left.Agrees right) (claimable : left.Claimable) : right.Claimable := by
  obtain ⟨queued, budget⟩ := claimable
  rw [agrees.attemptCount, agrees.maxAttempts] at budget
  exact ⟨agrees.status.symm.trans queued, budget⟩

theorem listed {tenantId : String} {projectId : Option String} (agrees : left.Agrees right)
    (listed : left.Listed tenantId projectId) : right.Listed tenantId projectId :=
  ⟨agrees.tenantId.symm.trans listed.1,
    fun project given => agrees.projectId.symm.trans (listed.2 project given)⟩

theorem stale {cutoff : DateTime} (agrees : left.Agrees right) (stale : left.Stale cutoff) :
    right.Stale cutoff := by
  obtain ⟨running, claimed⟩ := stale
  have unfinished : ¬ left.status.Terminal := by
    rw [running]
    decide
  rw [agrees.claimedAt unfinished] at claimed
  exact ⟨agrees.status.symm.trans running, claimed⟩

theorem claimed (agrees : left.Agrees right) (now : DateTime) :
    (left.claimed now).Agrees (right.claimed now) := by
  have attempts : left.attemptCount + 1 = right.attemptCount + 1 := by rw [agrees.attemptCount]
  exact { agrees with status := rfl, attemptCount := attempts, claimedAt := fun _ => rfl }

theorem requeued (agrees : left.Agrees right) (now : DateTime) :
    (left.requeued now).Agrees (right.requeued now) :=
  { agrees with status := rfl, errorMessage := rfl, claimedAt := fun _ => rfl }

theorem timedOut (agrees : left.Agrees right) (now : DateTime) :
    (left.timedOut now).Agrees (right.timedOut now) :=
  { agrees with status := rfl, errorMessage := rfl, claimedAt := fun _ => rfl }

theorem recovered (agrees : left.Agrees right) (cutoff now : DateTime) :
    (left.recovered cutoff now).Agrees (right.recovered cutoff now) := by
  unfold EvaluationJob.recovered
  by_cases isStale : left.Stale cutoff
  · rw [if_pos isStale, if_pos (agrees.stale isStale), agrees.attemptCount, agrees.maxAttempts]
    split
    · exact agrees.timedOut now
    · exact agrees.requeued now
  · rw [if_neg isStale, if_neg fun stale => isStale (agrees.symm.stale stale)]
    exact agrees

theorem started (agrees : left.Agrees right) (now : DateTime) (queued : left.status = .queued) :
    (left.started now).Agrees (right.started now) := by
  have unfinished : ¬ left.status.Terminal := by
    rw [queued]
    decide
  exact { agrees with status := rfl, claimedAt := fun _ => agrees.claimedAt unfinished }

theorem succeeded (agrees : left.Agrees right) (release other : Option DateTime → Option DateTime)
    (now : DateTime) (result : EvaluationResult) :
    (left.succeeded release now result).Agrees (right.succeeded other now result) :=
  { agrees with
    status := rfl
    result := rfl
    claimedAt := fun unfinished => absurd (.inl rfl) unfinished }

theorem failed (agrees : left.Agrees right) (release other : Option DateTime → Option DateTime)
    (now : DateTime) (message : String) :
    (left.failed release now message).Agrees (right.failed other now message) :=
  { agrees with
    status := rfl
    errorMessage := rfl
    claimedAt := fun unfinished => absurd (.inr rfl) unfinished }

end Agrees

end EvaluationJob

/-- The same outcome: the same job, list, count or nothing, or the same error. -/
inductive RepositoryReply.Agrees : RepositoryReply → RepositoryReply → Prop where
  | job {left right : EvaluationJob} : left.Agrees right → Agrees (.job (.ok left)) (.job (.ok right))
  | error {error : Exn} : Agrees (.job (.error error)) (.job (.error error))
  | jobs {left right : List EvaluationJob} : List.Forall₂ EvaluationJob.Agrees left right →
      Agrees (.jobs (.ok left)) (.jobs (.ok right))
  | noClaim : Agrees (.claim (.ok none)) (.claim (.ok none))
  | claim {left right : EvaluationJob} : left.Agrees right →
      Agrees (.claim (.ok (some left))) (.claim (.ok (some right)))
  | count {count : Nat} : Agrees (.count (.ok count)) (.count (.ok count))

def StoresAgree (left right : Lookup) : Prop :=
  ∀ jobId, Option.Rel EvaluationJob.Agrees (left jobId) (right jobId)

/-- Every job is stored under its identifier, and creation times tell jobs apart. -/
structure Separated (store : Lookup) : Prop where
  identified : ∀ {jobId job}, store jobId = some job → job.jobId = jobId
  distinct : ∀ {jobId other job otherJob}, store jobId = some job → store other = some otherJob →
    job.createdAt = otherJob.createdAt → jobId = other

namespace StoresAgree

variable {left right : Lookup} {jobId : UUID} {job other : EvaluationJob}

theorem stored (agree : StoresAgree left right) (stored : left jobId = some job) :
    ∃ other, right jobId = some other ∧ job.Agrees other := by
  have rel := agree jobId
  rw [stored] at rel
  generalize right jobId = entry at rel
  cases rel with
  | some agrees => exact ⟨_, rfl, agrees⟩

theorem absent (agree : StoresAgree left right) (absent : left jobId = none) :
    right jobId = none := by
  have rel := agree jobId
  rw [absent] at rel
  generalize right jobId = entry at rel
  cases rel with
  | none => rfl

theorem symm (agree : StoresAgree left right) : StoresAgree right left := by
  intro jobId
  cases stored : left jobId with
  | none =>
      rw [agree.absent stored]
      exact .none
  | some job =>
      obtain ⟨other, otherStored, agrees⟩ := agree.stored stored
      rw [otherStored]
      exact .some agrees.symm

theorem update (agree : StoresAgree left right) (agrees : job.Agrees other) :
    StoresAgree (Function.update left jobId (some job))
      (Function.update right jobId (some other)) := by
  intro current
  by_cases same : current = jobId
  · subst same
    rw [Function.update_self, Function.update_self]
    exact .some agrees
  · rw [Function.update_of_ne same, Function.update_of_ne same]
    exact agree current

end StoresAgree

/-! ## One call on two agreeing stores -/

section Determined

variable {release otherRelease : Option DateTime → Option DateTime} {now : DateTime}
variable {left right leftAfter rightAfter : Lookup} {leftReply rightReply : RepositoryReply}
variable {jobId : UUID} {job other : EvaluationJob} {accepted : List JobStatus}

theorem ChangesStatus.agrees {changed otherChanged : EvaluationJob} (agree : StoresAgree left right)
    (agrees : job.Agrees other)
    (changes : ChangesStatus left jobId job accepted changed leftReply leftAfter)
    (otherChanges : ChangesStatus right jobId other accepted otherChanged rightReply rightAfter)
    (changedAgrees : job.status ∈ accepted → changed.Agrees otherChanged) :
    leftReply.Agrees rightReply ∧ StoresAgree leftAfter rightAfter := by
  unfold ChangesStatus at changes otherChanges
  rw [← agrees.status] at otherChanges
  rcases changes with ⟨allowed, rfl, rfl⟩ | ⟨refused, rfl, rfl⟩
  · rcases otherChanges with ⟨_, rfl, rfl⟩ | ⟨otherRefused, _, _⟩
    · exact ⟨.job (changedAgrees allowed), agree.update (changedAgrees allowed)⟩
    · exact absurd allowed otherRefused
  · rcases otherChanges with ⟨otherAllowed, _, _⟩ | ⟨_, rfl, rfl⟩
    · exact absurd otherAllowed refused
    · exact ⟨.error, agree⟩

theorem Effect.of_absent {call : RepositoryCall}
    (effect : Effect release now left call leftReply leftAfter)
    (guarded : call.guard? = some (jobId, accepted)) (absent : left jobId = none) :
    leftReply = .job (.error .notFoundError) ∧ leftAfter = left := by
  cases effect with
  | refuse isGuarded refused =>
      rw [guarded] at isGuarded
      cases isGuarded
      cases refused with
      | absent _ => exact ⟨rfl, rfl⟩
      | notAllowed found _ =>
          rw [absent] at found
          cases found
  | start found _ | succeed found _ | fail found _ =>
      cases guarded
      rw [absent] at found
      cases found
  | _ => cases guarded

theorem oldest_agrees (agree : StoresAgree left right) (separated : Separated right)
    (stored : left job.jobId = some job) (claimable : job.Claimable)
    (oldest : ∀ jobId current, left jobId = some current → current.Claimable →
      job.createdAt ≤ current.createdAt)
    (otherStored : right other.jobId = some other) (otherClaimable : other.Claimable)
    (otherOldest : ∀ jobId current, right jobId = some current → current.Claimable →
      other.createdAt ≤ current.createdAt) :
    job.jobId = other.jobId ∧ job.Agrees other := by
  obtain ⟨twin, twinStored, twinAgrees⟩ := agree.stored stored
  obtain ⟨otherTwin, otherTwinStored, otherTwinAgrees⟩ := agree.symm.stored otherStored
  have above := otherOldest _ _ twinStored (twinAgrees.claimable claimable)
  have below := oldest _ _ otherTwinStored (otherTwinAgrees.claimable otherClaimable)
  have sameTime : twin.createdAt = other.createdAt := by
    refine le_antisymm ?_ above
    rw [← twinAgrees.createdAt, otherTwinAgrees.createdAt]
    exact below
  have same : job.jobId = other.jobId := separated.distinct twinStored otherStored sameTime
  rw [same, otherStored] at twinStored
  cases twinStored
  exact ⟨same, twinAgrees⟩

def createdAtOf (store : Lookup) (jobId : UUID) : DateTime :=
  (store jobId).elim 0 (·.createdAt)

theorem nodup_jobIds {listed : List EvaluationJob} (nodup : listed.Nodup)
    (members : ∀ job ∈ listed, left job.jobId = some job) : (listed.map (·.jobId)).Nodup := by
  refine List.Nodup.map_on ?_ nodup
  intro job member other otherMember same
  have stored := members job member
  rw [same, members other otherMember] at stored
  cases stored
  rfl

theorem pairwise_jobIds {listed : List EvaluationJob}
    (times : ∀ job ∈ listed, createdAtOf right job.jobId = job.createdAt)
    (ordered : listed.Pairwise fun newer older => older.createdAt ≤ newer.createdAt) :
    (listed.map (·.jobId)).Pairwise fun newer older =>
      createdAtOf right older ≤ createdAtOf right newer := by
  rw [List.pairwise_map]
  refine ordered.imp_of_mem ?_
  intro newer older newerMember olderMember notNewer
  rw [times newer newerMember, times older olderMember]
  exact notNewer

theorem mem_jobIds_of_agree {tenantId : String} {projectId : Option String}
    {listed otherListed : List EvaluationJob} (agree : StoresAgree left right)
    (members : ∀ job, job ∈ listed ↔ left job.jobId = some job ∧ job.Listed tenantId projectId)
    (otherMembers : ∀ job, job ∈ otherListed ↔
      right job.jobId = some job ∧ job.Listed tenantId projectId)
    (member : jobId ∈ listed.map (·.jobId)) : jobId ∈ otherListed.map (·.jobId) := by
  obtain ⟨job, isListed, rfl⟩ := List.mem_map.mp member
  obtain ⟨stored, selected⟩ := (members job).mp isListed
  obtain ⟨twin, twinStored, agrees⟩ := agree.stored stored
  rw [agrees.jobId] at twinStored ⊢
  exact List.mem_map_of_mem ((otherMembers twin).mpr ⟨twinStored, agrees.listed selected⟩)

theorem listed_agrees {tenantId : String} {projectId : Option String}
    {listed otherListed : List EvaluationJob} (agree : StoresAgree left right)
    (separated : Separated right) (nodup : listed.Nodup) (otherNodup : otherListed.Nodup)
    (members : ∀ job, job ∈ listed ↔ left job.jobId = some job ∧ job.Listed tenantId projectId)
    (otherMembers : ∀ job, job ∈ otherListed ↔
      right job.jobId = some job ∧ job.Listed tenantId projectId)
    (ordered : listed.Pairwise fun newer older => older.createdAt ≤ newer.createdAt)
    (otherOrdered : otherListed.Pairwise fun newer older => older.createdAt ≤ newer.createdAt) :
    List.Forall₂ EvaluationJob.Agrees listed otherListed := by
  have stored : ∀ job ∈ listed, left job.jobId = some job :=
    fun job member => ((members job).mp member).1
  have otherStored : ∀ job ∈ otherListed, right job.jobId = some job :=
    fun job member => ((otherMembers job).mp member).1
  have twins : ∀ job ∈ listed, ∃ twin, right job.jobId = some twin ∧ job.Agrees twin :=
    fun job member => agree.stored (stored job member)
  have times : ∀ job ∈ listed, createdAtOf right job.jobId = job.createdAt := by
    intro job member
    obtain ⟨twin, twinStored, agrees⟩ := twins job member
    rw [createdAtOf, twinStored, agrees.createdAt]
    rfl
  have otherTimes : ∀ job ∈ otherListed, createdAtOf right job.jobId = job.createdAt := by
    intro job member
    rw [createdAtOf, otherStored job member]
    rfl
  have permuted : (listed.map (·.jobId)).Perm (otherListed.map (·.jobId)) := by
    rw [List.perm_ext_iff_of_nodup (nodup_jobIds nodup stored) (nodup_jobIds otherNodup otherStored)]
    intro jobId
    exact ⟨mem_jobIds_of_agree agree members otherMembers,
      mem_jobIds_of_agree agree.symm otherMembers members⟩
  have sameIds : listed.map (·.jobId) = otherListed.map (·.jobId) := by
    refine eq_of_perm_of_descending (createdAtOf right) ?_ (pairwise_jobIds times ordered)
      (pairwise_jobIds otherTimes otherOrdered) permuted
    intro jobId member other otherMember sameTime
    obtain ⟨job, isListed, rfl⟩ := List.mem_map.mp member
    obtain ⟨otherJob, otherIsListed, rfl⟩ := List.mem_map.mp otherMember
    obtain ⟨twin, twinStored, agrees⟩ := twins job isListed
    refine separated.distinct twinStored (otherStored otherJob otherIsListed) ?_
    rw [times job isListed, otherTimes otherJob otherIsListed] at sameTime
    exact agrees.createdAt.symm.trans sameTime
  rw [← List.forall₂_eq_eq_eq, List.forall₂_map_left_iff, List.forall₂_map_right_iff,
    List.forall₂_iff_zip] at sameIds
  refine List.forall₂_iff_zip.mpr ⟨sameIds.1, ?_⟩
  intro job other paired
  obtain ⟨member, otherMember⟩ := List.of_mem_zip paired
  obtain ⟨twin, twinStored, agrees⟩ := twins job member
  rw [sameIds.2 paired, otherStored other otherMember] at twinStored
  cases twinStored
  exact agrees

theorem foundOr404_agrees {entry otherEntry : Option EvaluationJob}
    (rel : Option.Rel EvaluationJob.Agrees entry otherEntry) :
    (RepositoryReply.job (foundOr404 entry)).Agrees (.job (foundOr404 otherEntry)) := by
  cases rel with
  | some agrees => exact .job agrees
  | none => exact .error

theorem filter_tenant_agrees {entry otherEntry : Option EvaluationJob} (tenantId : String)
    (rel : Option.Rel EvaluationJob.Agrees entry otherEntry) :
    Option.Rel EvaluationJob.Agrees (entry.filter fun job => job.tenantId = tenantId)
      (otherEntry.filter fun job => job.tenantId = tenantId) := by
  cases rel with
  | none => exact .none
  | @some job other agrees =>
      rw [Option.filter_some, Option.filter_some, agrees.tenantId]
      split
      · exact .some agrees
      · exact .none

theorem recovered_agrees {cutoff : DateTime} {stale otherStale : List UUID}
    (agree : StoresAgree left right) (nodup : stale.Nodup) (otherNodup : otherStale.Nodup)
    (members : ∀ jobId, jobId ∈ stale ↔ ∃ job, left jobId = some job ∧ job.Stale cutoff)
    (otherMembers : ∀ jobId, jobId ∈ otherStale ↔ ∃ job, right jobId = some job ∧ job.Stale cutoff) :
    stale.length = otherStale.length ∧
      StoresAgree (fun jobId => (left jobId).map (·.recovered cutoff now))
        (fun jobId => (right jobId).map (·.recovered cutoff now)) := by
  constructor
  · refine List.Perm.length_eq ((List.perm_ext_iff_of_nodup nodup otherNodup).mpr fun jobId => ?_)
    rw [members, otherMembers]
    constructor
    · intro isStale
      obtain ⟨job, stored, jobStale⟩ := isStale
      obtain ⟨twin, twinStored, agrees⟩ := agree.stored stored
      exact ⟨twin, twinStored, agrees.stale jobStale⟩
    · intro isStale
      obtain ⟨job, stored, jobStale⟩ := isStale
      obtain ⟨twin, twinStored, agrees⟩ := agree.symm.stored stored
      exact ⟨twin, twinStored, agrees.stale jobStale⟩
  · intro jobId
    have rel := agree jobId
    dsimp only
    generalize left jobId = entry at rel ⊢
    generalize right jobId = otherEntry at rel ⊢
    cases rel with
    | some agrees => exact .some (agrees.recovered cutoff now)
    | none => exact .none

theorem guarded_agrees {call : RepositoryCall} (agree : StoresAgree left right)
    (guarded : call.guard? = some (jobId, accepted))
    (effect : Effect release now left call leftReply leftAfter)
    (otherEffect : Effect otherRelease now right call rightReply rightAfter)
    (changes : ∀ job other, left jobId = some job → right jobId = some other → job.Agrees other →
      leftReply.Agrees rightReply ∧ StoresAgree leftAfter rightAfter) :
    leftReply.Agrees rightReply ∧ StoresAgree leftAfter rightAfter := by
  cases stored : left jobId with
  | none =>
      obtain ⟨rfl, rfl⟩ := effect.of_absent guarded stored
      obtain ⟨rfl, rfl⟩ := otherEffect.of_absent guarded (agree.absent stored)
      exact ⟨.error, agree⟩
  | some job =>
      obtain ⟨other, otherStored, agrees⟩ := agree.stored stored
      exact changes job other stored otherStored agrees

/-- The contract leaves no choice in what a call on agreeing stores replies. -/
theorem Effect.agrees {call : RepositoryCall} (agree : StoresAgree left right)
    (separated : Separated right)
    (effect : Effect release now left call leftReply leftAfter)
    (otherEffect : Effect otherRelease now right call rightReply rightAfter) :
    leftReply.Agrees rightReply ∧ StoresAgree leftAfter rightAfter := by
  cases call with
  | create job =>
      obtain ⟨rfl, rfl⟩ := effect.create_eq
      obtain ⟨rfl, rfl⟩ := otherEffect.create_eq
      exact ⟨.job (.refl job), agree.update (.refl job)⟩
  | get jobId =>
      obtain ⟨rfl, rfl⟩ := effect.get_eq
      obtain ⟨rfl, rfl⟩ := otherEffect.get_eq
      exact ⟨foundOr404_agrees (agree jobId), agree⟩
  | getForTenant jobId tenantId =>
      obtain ⟨rfl, rfl⟩ := effect.getForTenant_eq
      obtain ⟨rfl, rfl⟩ := otherEffect.getForTenant_eq
      exact ⟨foundOr404_agrees (filter_tenant_agrees tenantId (agree jobId)), agree⟩
  | listRecent tenantId projectId limit =>
      obtain ⟨rfl, listed, rfl, nodup, members, ordered⟩ := effect.listRecent_eq
      obtain ⟨rfl, otherListed, rfl, otherNodup, otherMembers, otherOrdered⟩ :=
        otherEffect.listRecent_eq
      have agreeing := listed_agrees agree separated nodup otherNodup members otherMembers
        ordered otherOrdered
      exact ⟨.jobs (List.forall₂_take limit agreeing), agree⟩
  | claimNextQueued =>
      cases effect with
      | refuse guarded _ => cases guarded
      | claimNone unclaimable =>
          cases otherEffect with
          | refuse guarded _ => cases guarded
          | claimNone _ => exact ⟨.noClaim, agree⟩
          | claim stored claimable _ =>
              obtain ⟨twin, twinStored, agrees⟩ := agree.symm.stored stored
              exact absurd (agrees.claimable claimable) (unclaimable _ _ twinStored)
      | claim stored claimable oldest =>
          cases otherEffect with
          | refuse guarded _ => cases guarded
          | claimNone unclaimable =>
              obtain ⟨twin, twinStored, agrees⟩ := agree.stored stored
              exact absurd (agrees.claimable claimable) (unclaimable _ _ twinStored)
          | claim otherStored otherClaimable otherOldest =>
              obtain ⟨same, agrees⟩ := oldest_agrees agree separated stored claimable oldest
                otherStored otherClaimable otherOldest
              rw [same]
              exact ⟨.claim (agrees.claimed now), agree.update (agrees.claimed now)⟩
  | recoverStaleRunning cutoff =>
      cases effect with
      | refuse guarded _ => cases guarded
      | recover nodup members =>
          cases otherEffect with
          | refuse guarded _ => cases guarded
          | recover otherNodup otherMembers =>
              obtain ⟨sameCount, recovered⟩ :=
                recovered_agrees agree nodup otherNodup members otherMembers
              rw [sameCount]
              exact ⟨.count, recovered⟩
  | setRunning jobId =>
      refine guarded_agrees agree rfl effect otherEffect ?_
      intro job other stored otherStored agrees
      refine ChangesStatus.agrees agree agrees (effect.setRunning stored)
        (otherEffect.setRunning otherStored) fun allowed => agrees.started now ?_
      simpa using allowed
  | setSucceeded jobId result =>
      refine guarded_agrees agree rfl effect otherEffect ?_
      intro job other stored otherStored agrees
      exact ChangesStatus.agrees agree agrees (effect.setSucceeded stored)
        (otherEffect.setSucceeded otherStored)
        fun _ => agrees.succeeded release otherRelease now result
  | setFailed jobId message =>
      refine guarded_agrees agree rfl effect otherEffect ?_
      intro job other stored otherStored agrees
      exact ChangesStatus.agrees agree agrees (effect.setFailed stored)
        (otherEffect.setFailed otherStored)
        fun _ => agrees.failed release otherRelease now message

end Determined

/-! ## Whole runs -/

def RepositoryEvent.request (event : RepositoryEvent) : DateTime × RepositoryCall :=
  (event.now, event.call)

def RepositoryCall.created? : RepositoryCall → Option EvaluationJob
  | .create job => some job
  | _ => none

def createdJobs (requests : List (DateTime × RepositoryCall)) : List EvaluationJob :=
  requests.filterMap fun request => request.2.created?

/-- Identifiers are fresh and creation times distinct. -/
def DistinctJobs (requests : List (DateTime × RepositoryCall)) : Prop :=
  ((createdJobs requests).map (·.jobId)).Nodup ∧ ((createdJobs requests).map (·.createdAt)).Nodup

instance (requests : List (DateTime × RepositoryCall)) : Decidable (DistinctJobs requests) :=
  inferInstanceAs (Decidable (_ ∧ _))

theorem createdJobs_snoc (requests : List (DateTime × RepositoryCall))
    (last : DateTime × RepositoryCall) :
    createdJobs (requests ++ [last]) = createdJobs requests ++ last.2.created?.toList := by
  simp only [createdJobs, List.filterMap_append]
  cases created : last.2.created? <;> simp [created]

theorem DistinctJobs.shorter {requests : List (DateTime × RepositoryCall)}
    {last : DateTime × RepositoryCall} (distinct : DistinctJobs (requests ++ [last])) :
    DistinctJobs requests := by
  unfold DistinctJobs at distinct ⊢
  rw [createdJobs_snoc, List.map_append, List.map_append] at distinct
  exact ⟨distinct.1.of_append_left, distinct.2.of_append_left⟩

def Originates (created : List EvaluationJob) (store : Lookup) : Prop :=
  ∀ jobId job, store jobId = some job →
    ∃ origin ∈ created, origin.jobId = jobId ∧ origin.createdAt = job.createdAt

theorem Originates.separated {created : List EvaluationJob} {store : Lookup}
    (originates : Originates created store) (distinct : (created.map (·.createdAt)).Nodup)
    {jobId other : UUID} {job otherJob : EvaluationJob} (stored : store jobId = some job)
    (otherStored : store other = some otherJob) (sameTime : job.createdAt = otherJob.createdAt) :
    jobId = other := by
  obtain ⟨origin, member, identified, time⟩ := originates jobId job stored
  obtain ⟨otherOrigin, otherMember, otherIdentified, otherTime⟩ :=
    originates other otherJob otherStored
  have same : origin = otherOrigin := by
    refine List.inj_on_of_nodup_map distinct member otherMember ?_
    rw [time, otherTime, sameTime]
  rw [← identified, ← otherIdentified, same]

theorem Originates.fresh {requests : List (DateTime × RepositoryCall)} {store : Lookup}
    {now : DateTime} {call : RepositoryCall} (originates : Originates (createdJobs requests) store)
    (distinct : DistinctJobs (requests ++ [(now, call)])) : call.Fresh store := by
  intro job isCreate
  subst isCreate
  obtain ⟨distinctIds, _⟩ := distinct
  rw [createdJobs_snoc, List.map_append, List.nodup_append] at distinctIds
  cases stored : store job.jobId with
  | none => rfl
  | some current =>
      obtain ⟨origin, member, identified, _⟩ := originates job.jobId current stored
      exact absurd identified (distinctIds.2.2 origin.jobId (List.mem_map_of_mem member) job.jobId
        (by simp [RepositoryCall.created?]))

theorem Originates.step {requests : List (DateTime × RepositoryCall)} {before after : Lookup}
    {release : Option DateTime → Option DateTime} {now : DateTime} {call : RepositoryCall}
    {reply : RepositoryReply} (originates : Originates (createdJobs requests) before)
    (effect : Effect release now before call reply after) :
    Originates (createdJobs (requests ++ [(now, call)])) after := by
  intro jobId job stored
  rw [createdJobs_snoc]
  have entry := effect.entry jobId
  rw [stored] at entry
  generalize beforeEntry : before jobId = earlier at entry
  cases entry with
  | kept _ =>
      obtain ⟨origin, member, same⟩ := originates jobId job beforeEntry
      exact ⟨origin, List.mem_append_left _ member, same⟩
  | created isCreate identified _ =>
      subst isCreate
      exact ⟨job, List.mem_append_right _ (by simp [RepositoryCall.created?]), identified, rfl⟩
  | @changed current _ change =>
      obtain ⟨origin, member, identified, time⟩ := originates jobId current beforeEntry
      have kept := change.sameSubmission.createdAt
      exact ⟨origin, List.mem_append_left _ member, identified, time.trans kept.symm⟩

/-- The same calls at the same clock readings have the same outcomes in both repositories. -/
theorem repositories_agree (memory : (buildRepository .memory).History)
    (postgres : (buildRepository .postgres).History)
    (memoryState : (buildRepository .memory).State)
    (postgresState : (buildRepository .postgres).State)
    (memoryRun : Run (buildRepository .memory).Step (buildRepository .memory).empty memory memoryState)
    (postgresRun : Run (buildRepository .postgres).Step (buildRepository .postgres).empty postgres
      postgresState)
    (same : memory.map (·.event.request) = postgres.map (·.event.request))
    (distinct : DistinctJobs (memory.map (·.event.request))) :
    List.Forall₂ (fun left right => left.event.reply.Agrees right.event.reply) memory postgres := by
  have memoryImplements := buildRepository_implements .memory
  have postgresImplements := buildRepository_implements .postgres
  refine (Run.lockstep RepositoryEvent.request RepositoryEvent.request
    (fun requests left right =>
      StoresAgree ((buildRepository .memory).job? left) ((buildRepository .postgres).job? right) ∧
        Originates (createdJobs requests) ((buildRepository .postgres).job? right))
    (fun left right => left.reply.Agrees right.reply)
    (fun _ _ => DistinctJobs.shorter) ⟨?_, ?_⟩ ?_ memoryRun postgresRun same distinct).1
  · intro jobId
    rw [memoryImplements.empty, postgresImplements.empty]
    exact .none
  · intro jobId job stored
    rw [postgresImplements.empty] at stored
    cases stored
  · intro requests left right event otherEvent leftNext rightNext related sameRequest allowed
      memoryStep postgresStep
    obtain ⟨agree, originates⟩ := related
    obtain ⟨now, call, reply⟩ := event
    obtain ⟨otherNow, otherCall, otherReply⟩ := otherEvent
    cases sameRequest
    have rightFresh := originates.fresh allowed
    have leftFresh : call.Fresh ((buildRepository .memory).job? left) :=
      fun job isCreate => agree.symm.absent (rightFresh job isCreate)
    have effect := memoryImplements.step leftFresh memoryStep
    have otherEffect := postgresImplements.step (by exact rightFresh) postgresStep
    have separated : Separated ((buildRepository .postgres).job? right) :=
      ⟨postgresImplements.identified, originates.separated allowed.shorter.2⟩
    obtain ⟨agreed, after⟩ := Effect.agrees agree separated effect otherEffect
    exact ⟨agreed, after, originates.step otherEffect⟩

/-- A job is lost by its first worker, requeued, claimed again and completed, while a
second start of it is refused. -/
theorem repositories_agree_second_attempt :
    let calls : List (DateTime × RepositoryCall) :=
      [(0, .create (demoJob 7 2)), (0, .create { demoJob 8 1 with createdAt := 5 }),
        (1, .claimNextQueued), (2, .setRunning 7), (3, .recoverStaleRunning 3),
        (4, .claimNextQueued), (5, .setSucceeded 7 demoResult), (6, .get 7), (7, .get 9),
        (8, .listRecent "tenant-a" none 5)]
    List.Forall₂ (fun left right => left.event.reply.Agrees right.event.reply)
      ((buildRepository .memory).replay (buildRepository .memory).empty calls).1
      ((buildRepository .postgres).replay (buildRepository .postgres).empty calls).1 := by
  intro calls
  have memoryReached := (buildRepository .memory).reaches_replay calls (by decide)
  have postgresReached := (buildRepository .postgres).reaches_replay calls (by decide)
  exact repositories_agree _ _ _ _ (memoryReached.mono fun _ _ _ => And.right)
    (postgresReached.mono fun _ _ _ => And.right) (by decide) (by decide)

end EvaluationService
