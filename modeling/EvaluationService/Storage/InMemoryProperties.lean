import EvaluationService.Storage.Contract
import EvaluationService.Storage.InMemory

/-! The in-memory repository refines the contract; a completed job keeps its claim time. -/

set_option autoImplicit false

namespace EvaluationService

open Foundation

namespace InMemoryJobRepository

variable (repository : InMemoryJobRepository)

theorem job?_eq (jobId : UUID) :
    inMemoryRepository.job? repository jobId = repository.jobs.find? jobId := by
  change (repository.get jobId).toOption = _
  unfold get
  cases repository.jobs.find? jobId <;> rfl

theorem get_eq (jobId : UUID) :
    repository.get jobId = foundOr404 (inMemoryRepository.job? repository jobId) := by
  rw [job?_eq]
  unfold get
  cases repository.jobs.find? jobId <;> rfl

theorem mem_rows_iff (job : EvaluationJob) :
    job ∈ repository.jobs.rows ↔ inMemoryRepository.job? repository job.jobId = some job := by
  rw [job?_eq, Table.find?_eq_some_iff]
  simp

theorem job?_mutate (jobId other : UUID) (change : EvaluationJob → EvaluationJob)
    (keeps : ∀ job, (change job).jobId = job.jobId) :
    inMemoryRepository.job? (repository.mutate jobId change keeps) other =
      (inMemoryRepository.job? repository other).map
        fun job => if other = jobId then change job else job := by
  rw [job?_eq, job?_eq]
  exact Table.find?_modify keeps (fun _ _ => trivial) repository.jobs jobId other

theorem create_effect (now : DateTime) (job : EvaluationJob)
    (fresh : inMemoryRepository.job? repository job.jobId = none) :
    Effect id now (inMemoryRepository.job? repository) (.create job) (.job (repository.create job).1)
      (inMemoryRepository.job? (repository.create job).2) := by
  have stored : inMemoryRepository.job? (repository.create job).2 =
      Function.update (inMemoryRepository.job? repository) job.jobId (some job) := by
    funext other
    rw [job?_eq, Function.update_apply, job?_eq]
    exact Table.find?_put repository.jobs job trivial other
  rw [stored]
  exact .create fresh

theorem getForTenant_eq (jobId : UUID) (tenantId : String) :
    repository.getForTenant jobId tenantId =
      foundOr404 ((inMemoryRepository.job? repository jobId).filter
        fun job => job.tenantId = tenantId) := by
  unfold getForTenant
  rw [get_eq]
  cases found : inMemoryRepository.job? repository jobId with
  | none => rfl
  | some job =>
      by_cases same : job.tenantId = tenantId
      · simp [foundOr404, bind, Except.bind, same, Option.filter]
      · simp [foundOr404, bind, Except.bind, same, Option.filter]

theorem listRecent_effect (now : DateTime) (tenantId : String) (projectId : Option String)
    (limit : Nat) :
    Effect id now (inMemoryRepository.job? repository) (.listRecent tenantId projectId limit)
      (.jobs (repository.listRecent tenantId projectId limit))
      (inMemoryRepository.job? repository) := by
  let selected := repository.jobs.rows.filter fun job =>
    job.tenantId = tenantId ∧ ∀ project ∈ projectId, job.projectId = project
  have shape : repository.listRecent tenantId projectId limit =
      .ok ((sortByDescending EvaluationJob.createdAt selected).take limit) := by
    cases projectId with
    | none => simp [listRecent, selected]
    | some project =>
        simp only [listRecent, selected, List.filter_filter, Option.mem_some_iff, forall_eq',
          Bool.decide_and, Bool.and_comm]
  have permuted := sortByDescending_perm EvaluationJob.createdAt selected
  rw [shape]
  refine .listRecent ?_ ?_ (sortByDescending_pairwise EvaluationJob.createdAt selected)
  · exact permuted.nodup_iff.mpr (List.Nodup.filter _ (List.Nodup.of_map _ repository.jobs.unique))
  · intro job
    rw [permuted.mem_iff, List.mem_filter, mem_rows_iff, decide_eq_true_iff]
    rfl

theorem claimNextQueued_effect (now : DateTime) :
    Effect id now (inMemoryRepository.job? repository) .claimNextQueued
      (.claim (repository.claimNextQueued now).1)
      (inMemoryRepository.job? (repository.claimNextQueued now).2) := by
  have queued : ∀ job, job ∈ repository.jobs.rows.filter (fun job : EvaluationJob =>
      job.status = .queued ∧ job.attemptCount < job.maxAttempts) ↔
        inMemoryRepository.job? repository job.jobId = some job ∧ job.Claimable := by
    intro job
    rw [List.mem_filter, mem_rows_iff, decide_eq_true_iff]
    rfl
  have listed : ∀ jobId job, inMemoryRepository.job? repository jobId = some job →
      inMemoryRepository.job? repository job.jobId = some job := by
    intro jobId job found
    rw [job?_eq] at found
    rw [← mem_rows_iff]
    exact ((Table.find?_eq_some_iff _ _ _).mp found).1
  unfold claimNextQueued
  dsimp only
  split
  · rename_i none
    rw [head?_sortBy_eq_none_iff] at none
    refine .claimNone fun jobId job found claimable => ?_
    have member := (queued job).mpr ⟨listed jobId job found, claimable⟩
    rw [none] at member
    cases member
  · rename_i job first
    obtain ⟨member, least⟩ := head?_sortBy_eq_some first
    obtain ⟨found, claimable⟩ := (queued job).mp member
    have changed := eq_update_of_changed (claimJob now) found
      (fun other => repository.job?_mutate job.jobId other (claimJob now) fun _ => rfl)
    rw [changed]
    exact .claim found claimable fun jobId other otherFound otherClaimable =>
      least other ((queued other).mpr ⟨listed jobId other otherFound, otherClaimable⟩)

theorem isStale_iff (cutoff : DateTime) (job : EvaluationJob) :
    isStale cutoff job = true ↔ job.Stale cutoff := by
  unfold isStale EvaluationJob.Stale
  cases job.claimedAt <;> simp

theorem recoverJob_eq (cutoff now : DateTime) (job : EvaluationJob) (stale : job.Stale cutoff) :
    recoverJob now job = job.recovered cutoff now := by
  unfold recoverJob EvaluationJob.recovered
  rw [if_pos stale]
  rfl

theorem recoverStaleRunning_eq (now cutoff : DateTime) :
    repository.recoverStaleRunning now cutoff =
      (.ok (repository.jobs.rows.filter (isStale cutoff)).length,
        (repository.jobs.rows.filter (isStale cutoff)).foldl
          (fun current job => current.mutate job.jobId (recoverJob now) (recoverJob_jobId now))
          repository) := by
  have loop := foldl_counted
    (fun (current : InMemoryJobRepository) (job : EvaluationJob) =>
      current.mutate job.jobId (recoverJob now) (recoverJob_jobId now))
    (repository.jobs.rows.filter (isStale cutoff)) 0 repository
  rw [List.foldl_filter, Nat.zero_add] at loop
  unfold recoverStaleRunning
  dsimp only
  rw [loop]

theorem job?_recoverStaleRunning (now cutoff : DateTime) (jobId : UUID) :
    inMemoryRepository.job? (repository.recoverStaleRunning now cutoff).2 jobId =
      (inMemoryRepository.job? repository jobId).map (·.recovered cutoff now) := by
  have inner : ((repository.jobs.rows.filter (isStale cutoff)).foldl
      (fun current job => current.mutate job.jobId (recoverJob now) (recoverJob_jobId now))
      repository).jobs =
        (repository.jobs.rows.filter (isStale cutoff)).foldl
          (fun jobs job => jobs.modify job.jobId (recoverJob now) (recoverJob_jobId now)
            fun _ _ => trivial) repository.jobs :=
    (List.foldl_hom InMemoryJobRepository.jobs fun _ _ => rfl).symm
  rw [recoverStaleRunning_eq, job?_eq, job?_eq, inner,
    Table.find?_foldl_modify _ _ _ (repository.jobs.nodup_keys_filter _)]
  refine Option.map_congr fun job found => ?_
  have chosen := repository.jobs.mem_keys_filter_iff (isStale cutoff) found
  rw [isStale_iff] at chosen
  by_cases stale : job.Stale cutoff
  · rw [if_pos (chosen.mpr stale), recoverJob_eq cutoff now job stale]
  · rw [if_neg (fun member => stale (chosen.mp member)), EvaluationJob.recovered, if_neg stale]

theorem recoverStaleRunning_effect (now cutoff : DateTime) :
    Effect id now (inMemoryRepository.job? repository) (.recoverStaleRunning cutoff)
      (.count (repository.recoverStaleRunning now cutoff).1)
      (inMemoryRepository.job? (repository.recoverStaleRunning now cutoff).2) := by
  have after := funext (repository.job?_recoverStaleRunning now cutoff)
  rw [after, recoverStaleRunning_eq, ← List.length_map EvaluationJob.jobId]
  refine .recover (repository.jobs.nodup_keys_filter _) fun jobId => ?_
  cases found : repository.jobs.find? jobId with
  | none =>
      simp only [job?_eq, found, reduceCtorEq, false_and, exists_false, iff_false]
      intro member
      obtain ⟨job, chosen, same⟩ := List.mem_map.mp member
      exact (Table.find?_eq_none_iff _ _).mp found job (List.mem_filter.mp chosen).1 same
  | some job =>
      rw [repository.jobs.mem_keys_filter_iff (isStale cutoff) found, isStale_iff]
      simp [job?_eq, found]

/-- `_transition` either refuses and changes nothing, or moves the one job. -/
theorem transition_cases (now : DateTime) (jobId : UUID) (allowedFrom : List JobStatus)
    (target : JobStatus) :
    (∃ error, Refused (inMemoryRepository.job? repository jobId) allowedFrom error ∧
      repository.transition now jobId allowedFrom target = (.error error, repository)) ∨
    ∃ job, inMemoryRepository.job? repository jobId = some job ∧ job.status ∈ allowedFrom ∧
      repository.transition now jobId allowedFrom target =
        (.ok (moveJob now target job), repository.mutate jobId (moveJob now target) fun _ => rfl) := by
  unfold transition
  rw [job?_eq]
  cases found : repository.jobs.find? jobId with
  | none => exact .inl ⟨_, .absent rfl, rfl⟩
  | some job =>
      by_cases allowed : job.status ∈ allowedFrom
      · exact .inr ⟨job, rfl, allowed, by simp [allowed]⟩
      · exact .inl ⟨_, .notAllowed rfl allowed, by simp [allowed]⟩

theorem setRunning_effect (now : DateTime) (jobId : UUID) :
    Effect id now (inMemoryRepository.job? repository) (.setRunning jobId)
      (.job (repository.setRunning now jobId).1)
      (inMemoryRepository.job? (repository.setRunning now jobId).2) := by
  unfold setRunning
  rcases repository.transition_cases now jobId [.queued] .running with
    ⟨error, refused, shape⟩ | ⟨job, found, allowed, shape⟩
  · rw [shape]
    exact .refuse rfl refused
  · have changed := eq_update_of_changed (moveJob now .running) found
      (fun other => repository.job?_mutate jobId other (moveJob now .running) fun _ => rfl)
    rw [shape, changed]
    exact .start found (by simpa using allowed)

/-- The two critical sections of a completion, run without a break, are one change. -/
theorem job?_mutate_mutate (jobId : UUID) {job : EvaluationJob}
    (found : inMemoryRepository.job? repository jobId = some job)
    (first second : EvaluationJob → EvaluationJob)
    (firstKeeps : ∀ job, (first job).jobId = job.jobId)
    (secondKeeps : ∀ job, (second job).jobId = job.jobId) :
    inMemoryRepository.job? ((repository.mutate jobId first firstKeeps).mutate jobId second
        secondKeeps) =
      Function.update (inMemoryRepository.job? repository) jobId (some (second (first job))) := by
  have changed : ∀ other, inMemoryRepository.job? ((repository.mutate jobId first firstKeeps).mutate
      jobId second secondKeeps) other = (inMemoryRepository.job? repository other).map
        fun current => if other = jobId then second (first current) else current := by
    intro other
    rw [job?_mutate, job?_mutate, Option.map_map]
    refine Option.map_congr fun current _ => ?_
    by_cases same : other = jobId <;> simp [same]
  exact eq_update_of_changed (fun current => second (first current)) found changed

theorem setSucceeded_effect (now : DateTime) (jobId : UUID) (result : EvaluationResult) :
    Effect id now (inMemoryRepository.job? repository) (.setSucceeded jobId result)
      (.job (repository.setSucceeded now jobId result).1)
      (inMemoryRepository.job? (repository.setSucceeded now jobId result).2) := by
  unfold setSucceeded
  rcases repository.transition_cases now jobId [.running] .succeeded with
    ⟨error, refused, shape⟩ | ⟨job, found, allowed, shape⟩
  · rw [shape]
    exact .refuse rfl refused
  · rw [shape]
    dsimp only
    rw [repository.job?_mutate_mutate jobId found (moveJob now .succeeded) (writeResult now result)
      (fun _ => rfl) (fun _ => rfl)]
    have effect : Effect id now (inMemoryRepository.job? repository) (.setSucceeded jobId result)
        (.job (.ok (job.succeeded id now result))) _ := .succeed found (by simpa using allowed)
    exact effect

theorem setFailed_effect (now : DateTime) (jobId : UUID) (message : String) :
    Effect id now (inMemoryRepository.job? repository) (.setFailed jobId message)
      (.job (repository.setFailed now jobId message).1)
      (inMemoryRepository.job? (repository.setFailed now jobId message).2) := by
  unfold setFailed
  rcases repository.transition_cases now jobId [.queued, .running] .failed with
    ⟨error, refused, shape⟩ | ⟨job, found, allowed, shape⟩
  · rw [shape]
    exact .refuse rfl refused
  · rw [shape]
    dsimp only
    rw [repository.job?_mutate_mutate jobId found (moveJob now .failed) (writeMessage now message)
      (fun _ => rfl) (fun _ => rfl)]
    have effect : Effect id now (inMemoryRepository.job? repository) (.setFailed jobId message)
        (.job (.ok (job.failed id now message))) _ := .fail found (by simpa using allowed)
    exact effect

end InMemoryJobRepository

theorem inMemoryRepository_implements : Implements inMemoryRepository id where
  empty := fun jobId => rfl
  identified := fun {state jobId job} found =>
    Table.find?_key ((InMemoryJobRepository.job?_eq state jobId).symm.trans found)
  arranged := fun arranged => by
    cases arranged
    rfl
  effect := fun {state next now call reply} fresh performed => by
    cases call with
    | create job =>
        cases performed
        exact state.create_effect now job (fresh job rfl)
    | get jobId =>
        cases performed
        rw [show inMemoryRepository.get state jobId = _ from state.get_eq jobId]
        exact .get
    | getForTenant jobId tenantId =>
        cases performed
        rw [show inMemoryRepository.getForTenant state jobId tenantId = _ from
          state.getForTenant_eq jobId tenantId]
        exact .getForTenant
    | listRecent tenantId projectId limit =>
        cases performed
        exact state.listRecent_effect now tenantId projectId limit
    | claimNextQueued =>
        cases performed
        exact state.claimNextQueued_effect now
    | recoverStaleRunning cutoff =>
        cases performed
        exact state.recoverStaleRunning_effect now cutoff
    | setRunning jobId =>
        cases performed
        exact state.setRunning_effect now jobId
    | setSucceeded jobId result =>
        cases performed
        exact state.setSucceeded_effect now jobId result
    | setFailed jobId message =>
        cases performed
        exact state.setFailed_effect now jobId message

end EvaluationService
