import Mathlib.Data.List.Forall2
import EvaluationService.Storage.Contract
import EvaluationService.Storage.Postgres

/-! The PostgreSQL repository refines the contract; a completed job's claim time is cleared. -/

set_option autoImplicit false

namespace EvaluationService

open Foundation

namespace EvaluationJobRow

variable {row : EvaluationJobRow} {job : EvaluationJob}

theorem statusOf_eq_ok_iff (text : String) (status : JobStatus) :
    statusOf text = .ok status ↔ text = status.value := by
  constructor
  · intro decoded
    unfold statusOf at decoded
    cases found : JobStatus.ofValue? text with
    | none => simp [found] at decoded
    | some current =>
        have same : current = status := by simpa [found] using decoded
        have value : current.value = text := by simpa using List.find?_some found
        rw [← same, value]
  · intro same
    rw [same, statusOf_value]

theorem status_eq_iff (decoded : row.toDomain = .ok job) (status : JobStatus) :
    row.status = status.value ↔ job.status = status := by
  obtain ⟨statusDecoded, _⟩ := (toDomain_eq_ok_iff row job).mp decoded
  constructor
  · intro same
    rw [same, statusOf_value] at statusDecoded
    exact (Except.ok.inj statusDecoded).symm
  · intro same
    rw [← same]
    exact (statusOf_eq_ok_iff row.status job.status).mp statusDecoded

theorem toDomain_recoverRow (now : DateTime) (decoded : row.toDomain = .ok job) :
    (recoverRow now row).toDomain =
      .ok (if job.attemptCount ≥ job.maxAttempts then job.timedOut now else job.requeued now) := by
  obtain ⟨_, _, _, _, _, _, _, attempts, budget, _⟩ := (toDomain_eq_ok_iff row job).mp decoded
  unfold recoverRow
  rw [← attempts, ← budget]
  split
  · exact toDomain_timeOutRow now decoded
  · exact toDomain_requeueRow now decoded

theorem exists_jobs (rows : List EvaluationJobRow) (sound : ∀ row ∈ rows, row.Decodes) :
    ∃ jobs, List.Forall₂ (fun row job => row.toDomain = .ok job) rows jobs := by
  induction rows with
  | nil => exact ⟨[], .nil⟩
  | cons row rest ih =>
      obtain ⟨job, decoded⟩ := sound row (by simp)
      obtain ⟨jobs, decodedRest⟩ := ih fun row member => sound row (by simp [member])
      exact ⟨job :: jobs, .cons decoded decodedRest⟩

theorem mapM_toDomain {rows : List EvaluationJobRow} {jobs : List EvaluationJob}
    (decoded : List.Forall₂ (fun row job => row.toDomain = .ok job) rows jobs) :
    rows.mapM toDomain = .ok jobs := by
  induction decoded with
  | nil => rfl
  | cons head _ ih => simp [List.mapM_cons, head, ih, bind, Except.bind, pure, Except.pure]

theorem mem_jobs_iff {rows : List EvaluationJobRow} {jobs : List EvaluationJob}
    (decoded : List.Forall₂ (fun row job => row.toDomain = .ok job) rows jobs) (job : EvaluationJob) :
    job ∈ jobs ↔ ∃ row ∈ rows, row.toDomain = .ok job := by
  induction decoded with
  | nil => simp
  | @cons row head rest tail first _ ih =>
      rw [List.mem_cons, ih]
      constructor
      · intro member
        rcases member with same | ⟨other, member, otherDecoded⟩
        · exact ⟨row, by simp, same ▸ first⟩
        · exact ⟨other, by simp [member], otherDecoded⟩
      · intro ⟨other, member, otherDecoded⟩
        rcases List.mem_cons.mp member with same | member
        · rw [same, first] at otherDecoded
          exact .inl (Except.ok.inj otherDecoded).symm
        · exact .inr ⟨other, member, otherDecoded⟩

/-- A column that decoding copies reads the same from the rows and from the jobs. -/
theorem map_column {Column : Type} {ofRow : EvaluationJobRow → Column} {ofJob : EvaluationJob → Column}
    (copied : ∀ row job, toDomain row = .ok job → ofJob job = ofRow row)
    {rows : List EvaluationJobRow} {jobs : List EvaluationJob}
    (decoded : List.Forall₂ (fun row job => row.toDomain = .ok job) rows jobs) :
    jobs.map ofJob = rows.map ofRow := by
  induction decoded with
  | nil => rfl
  | cons head _ ih => rw [List.map_cons, List.map_cons, copied _ _ head, ih]

theorem jobId_eq (row : EvaluationJobRow) (job : EvaluationJob) (decoded : row.toDomain = .ok job) :
    job.jobId = row.jobId := by
  obtain ⟨_, _, _, same, _⟩ := (toDomain_eq_ok_iff row job).mp decoded
  exact same

theorem createdAt_eq (row : EvaluationJobRow) (job : EvaluationJob) (decoded : row.toDomain = .ok job) :
    job.createdAt = row.createdAt := by
  obtain ⟨_, _, _, _, _, _, _, _, _, _, same, _⟩ := (toDomain_eq_ok_iff row job).mp decoded
  exact same

end EvaluationJobRow

namespace PostgresJobRepository

open EvaluationJobRow

variable (repository : PostgresJobRepository)

theorem get_eq_of_found {jobId : UUID} {row : EvaluationJobRow}
    (found : repository.evaluationJobs.find? jobId = some row) :
    repository.get jobId = row.toDomain := by
  unfold get
  rw [found]

theorem job?_eq_some_iff (jobId : UUID) (job : EvaluationJob) :
    postgresRepository.job? repository jobId = some job ↔
      ∃ row, repository.evaluationJobs.find? jobId = some row ∧ row.toDomain = .ok job := by
  change (repository.get jobId).toOption = some job ↔ _
  unfold get
  cases found : repository.evaluationJobs.find? jobId with
  | none => simp [Except.toOption]
  | some row =>
      cases decoded : row.toDomain with
      | error error => simp [decoded, Except.toOption]
      | ok stored => simp [decoded, Except.toOption]

theorem job?_eq_none_iff (jobId : UUID) :
    postgresRepository.job? repository jobId = none ↔
      repository.evaluationJobs.find? jobId = none := by
  change (repository.get jobId).toOption = none ↔ _
  unfold get
  cases found : repository.evaluationJobs.find? jobId with
  | none => simp [Except.toOption]
  | some row =>
      obtain ⟨job, decoded⟩ := Table.find?_sound found
      simp [decoded, Except.toOption]

theorem job?_of_mem {row : EvaluationJobRow} {job : EvaluationJob}
    (member : row ∈ repository.evaluationJobs.rows) (decoded : row.toDomain = .ok job) :
    postgresRepository.job? repository job.jobId = some job := by
  rw [job?_eq_some_iff, jobId_eq row job decoded]
  exact ⟨row, Table.find?_of_mem _ member, decoded⟩

theorem exists_row {jobId : UUID} {job : EvaluationJob}
    (stored : postgresRepository.job? repository jobId = some job) :
    ∃ row ∈ repository.evaluationJobs.rows, row.toDomain = .ok job := by
  obtain ⟨row, found, decoded⟩ := (repository.job?_eq_some_iff jobId job).mp stored
  exact ⟨row, ((Table.find?_eq_some_iff _ _ _).mp found).1, decoded⟩

theorem get_eq (jobId : UUID) :
    repository.get jobId = foundOr404 (postgresRepository.job? repository jobId) := by
  cases stored : postgresRepository.job? repository jobId with
  | none =>
      unfold get
      rw [(repository.job?_eq_none_iff jobId).mp stored]
      rfl
  | some job =>
      obtain ⟨row, found, decoded⟩ := (repository.job?_eq_some_iff jobId job).mp stored
      rw [repository.get_eq_of_found found, decoded]
      rfl

/-- An assignment to one row, read as an assignment to the stored job. -/
theorem job?_update (jobId other : UUID) (change : EvaluationJobRow → EvaluationJobRow)
    (changeJob : EvaluationJob → EvaluationJob)
    (keeps : ∀ row, (change row).jobId = row.jobId)
    (safe : ∀ row, row.Decodes → (change row).Decodes)
    (decodes : ∀ row job, row.toDomain = .ok job → (change row).toDomain = .ok (changeJob job)) :
    postgresRepository.job? (repository.update jobId change keeps safe) other =
      (postgresRepository.job? repository other).map
        fun job => if other = jobId then changeJob job else job := by
  have lookup : (repository.update jobId change keeps safe).evaluationJobs.find? other = _ :=
    Table.find?_modify keeps safe repository.evaluationJobs jobId other
  cases stored : postgresRepository.job? repository other with
  | none =>
      rw [job?_eq_none_iff] at stored
      rw [stored] at lookup
      exact (job?_eq_none_iff _ _).mpr lookup
  | some job =>
      obtain ⟨row, found, decoded⟩ := (repository.job?_eq_some_iff other job).mp stored
      rw [found] at lookup
      refine (job?_eq_some_iff _ _ _).mpr ⟨_, lookup, ?_⟩
      dsimp only
      by_cases same : other = jobId
      · rw [if_pos same, if_pos same]
        exact decodes row job decoded
      · rw [if_neg same, if_neg same]
        exact decoded

theorem create_effect (now : DateTime) (job : EvaluationJob)
    (fresh : postgresRepository.job? repository job.jobId = none) :
    Effect (fun _ => none) now (postgresRepository.job? repository) (.create job)
      (.job (repository.create job).1) (postgresRepository.job? (repository.create job).2) := by
  have absent := (repository.job?_eq_none_iff job.jobId).mp fresh
  have shape : repository.create job =
      (.ok job, ⟨repository.evaluationJobs.put (toRow job) (decodes_toRow job)⟩) := by
    unfold create
    rw [absent]
  have stored : postgresRepository.job? (repository.create job).2 =
      Function.update (postgresRepository.job? repository) job.jobId (some job) := by
    rw [shape]
    funext other
    ext current
    have lookup : (repository.evaluationJobs.put (toRow job) (decodes_toRow job)).find? other =
        if other = job.jobId then some (toRow job) else repository.evaluationJobs.find? other :=
      Table.find?_put repository.evaluationJobs (toRow job) (decodes_toRow job) other
    rw [job?_eq_some_iff, Function.update_apply]
    simp only [lookup]
    by_cases same : other = job.jobId
    · rw [if_pos same, if_pos same, Option.some_inj]
      simp [toDomain_toRow]
    · rw [if_neg same, if_neg same, job?_eq_some_iff]
  rw [stored, shape]
  exact .create fresh

theorem getForTenant_eq (jobId : UUID) (tenantId : String) :
    repository.getForTenant jobId tenantId =
      foundOr404 ((postgresRepository.job? repository jobId).filter
        fun job => job.tenantId = tenantId) := by
  have selected : ∀ row, row ∈ (repository.evaluationJobs.rows.filter fun row =>
      row.jobId = jobId ∧ row.tenantId = tenantId) ↔
        repository.evaluationJobs.find? jobId = some row ∧ row.tenantId = tenantId := by
    intro row
    rw [List.mem_filter, decide_eq_true_iff, Table.find?_eq_some_iff, and_assoc]
  unfold getForTenant
  dsimp only
  split
  · rename_i none
    rw [List.head?_eq_none_iff] at none
    cases stored : postgresRepository.job? repository jobId with
    | none => rfl
    | some job =>
        obtain ⟨row, found, decoded⟩ := (repository.job?_eq_some_iff jobId job).mp stored
        obtain ⟨_, _, _, _, tenant, _⟩ := (toDomain_eq_ok_iff row job).mp decoded
        have different : job.tenantId ≠ tenantId := by
          intro same
          have member := (selected row).mpr ⟨found, tenant.symm.trans same⟩
          rw [none] at member
          cases member
        simp [Option.filter, different, foundOr404]
  · rename_i row first
    obtain ⟨found, same⟩ := (selected row).mp (List.mem_of_head? first)
    obtain ⟨job, decoded⟩ := Table.find?_sound found
    obtain ⟨_, _, _, _, tenant, _⟩ := (toDomain_eq_ok_iff row job).mp decoded
    have stored := (repository.job?_eq_some_iff jobId job).mpr ⟨row, found, decoded⟩
    simp [stored, decoded, Option.filter, tenant, same, foundOr404]

theorem listRecent_effect (now : DateTime) (tenantId : String) (projectId : Option String)
    (limit : Nat) :
    Effect (fun _ => none) now (postgresRepository.job? repository)
      (.listRecent tenantId projectId limit)
      (.jobs (repository.listRecent tenantId projectId limit))
      (postgresRepository.job? repository) := by
  let selected := repository.evaluationJobs.rows.filter fun row =>
    row.tenantId = tenantId ∧ ∀ project ∈ projectId, row.projectId = project
  have permuted := sortByDescending_perm EvaluationJobRow.createdAt selected
  have sorted := sortByDescending_pairwise EvaluationJobRow.createdAt selected
  have member : ∀ row, row ∈ sortByDescending EvaluationJobRow.createdAt selected ↔
      row ∈ repository.evaluationJobs.rows ∧ row.tenantId = tenantId ∧
        ∀ project ∈ projectId, row.projectId = project := by
    intro row
    rw [permuted.mem_iff, List.mem_filter, decide_eq_true_iff]
  obtain ⟨jobs, decoded⟩ := exists_jobs (sortByDescending EvaluationJobRow.createdAt selected)
    fun row sortedMember => repository.evaluationJobs.checked row ((member row).mp sortedMember).1
  have shape : repository.listRecent tenantId projectId limit = .ok (jobs.take limit) :=
    mapM_toDomain (List.forall₂_take limit decoded)
  rw [shape]
  refine .listRecent ?_ ?_ ?_
  · refine List.Nodup.of_map EvaluationJob.jobId ?_
    rw [map_column jobId_eq decoded, (permuted.map EvaluationJobRow.jobId).nodup_iff]
    exact repository.evaluationJobs.nodup_keys_filter _
  · intro job
    rw [mem_jobs_iff decoded]
    constructor
    · intro ⟨row, sortedMember, rowDecoded⟩
      obtain ⟨stored, tenant, project⟩ := (member row).mp sortedMember
      obtain ⟨_, _, _, _, tenantSame, projectSame, _⟩ := (toDomain_eq_ok_iff row job).mp rowDecoded
      refine ⟨repository.job?_of_mem stored rowDecoded, tenantSame.trans tenant, ?_⟩
      intro wanted given
      exact projectSame.trans (project wanted given)
    · intro ⟨stored, tenant, project⟩
      obtain ⟨row, rowMember, rowDecoded⟩ := repository.exists_row stored
      obtain ⟨_, _, _, _, tenantSame, projectSame, _⟩ := (toDomain_eq_ok_iff row job).mp rowDecoded
      refine ⟨row, (member row).mpr ⟨rowMember, tenantSame.symm.trans tenant, ?_⟩, rowDecoded⟩
      intro wanted given
      exact projectSame.symm.trans (project wanted given)
  · have columns := map_column createdAt_eq decoded
    have ordered : (jobs.map EvaluationJob.createdAt).Pairwise fun newer older => older ≤ newer := by
      rw [columns, List.pairwise_map]
      exact sorted
    exact List.pairwise_map.mp ordered

theorem claimNextQueued_effect (now : DateTime) :
    Effect (fun _ => none) now (postgresRepository.job? repository) .claimNextQueued
      (.claim (repository.claimNextQueued now).1)
      (postgresRepository.job? (repository.claimNextQueued now).2) := by
  have queued : ∀ row job, row.toDomain = .ok job →
      (row ∈ repository.evaluationJobs.rows.filter (fun row =>
        row.status = JobStatus.queued.value ∧ row.attemptCount < row.maxAttempts) ↔
      row ∈ repository.evaluationJobs.rows ∧ job.Claimable) := by
    intro row job decoded
    obtain ⟨_, _, _, _, _, _, _, attempts, budget, _⟩ := (toDomain_eq_ok_iff row job).mp decoded
    rw [List.mem_filter, decide_eq_true_iff, status_eq_iff decoded, ← attempts, ← budget]
    rfl
  unfold claimNextQueued
  dsimp only
  split
  · rename_i none
    rw [head?_sortBy_eq_none_iff] at none
    refine .claimNone fun jobId job stored claimable => ?_
    obtain ⟨row, member, decoded⟩ := repository.exists_row stored
    have chosen := (queued row job decoded).mpr ⟨member, claimable⟩
    rw [none] at chosen
    cases chosen
  · rename_i row first
    obtain ⟨chosen, least⟩ := head?_sortBy_eq_some first
    obtain ⟨job, decoded⟩ := repository.evaluationJobs.checked row (List.mem_filter.mp chosen).1
    obtain ⟨member, claimable⟩ := (queued row job decoded).mp chosen
    have stored := repository.job?_of_mem member decoded
    have reply : (claimRow now row).toDomain.map some = .ok (some (job.claimed now)) := by
      rw [toDomain_claimRow now decoded]
      rfl
    have changed := eq_update_of_changed (EvaluationJob.claimed now) stored
      (fun other => repository.job?_update job.jobId other (claimRow now) (EvaluationJob.claimed now)
        (fun _ => rfl) (fun _ => .claimRow now) fun _ _ => toDomain_claimRow now)
    rw [← jobId_eq row job decoded, reply, changed]
    refine .claim stored claimable fun jobId other otherStored otherClaimable => ?_
    obtain ⟨otherRow, otherMember, otherDecoded⟩ := repository.exists_row otherStored
    rw [createdAt_eq row job decoded, createdAt_eq otherRow other otherDecoded]
    exact least otherRow ((queued otherRow other otherDecoded).mpr ⟨otherMember, otherClaimable⟩)

theorem isStale_iff (cutoff : DateTime) {row : EvaluationJobRow} {job : EvaluationJob}
    (decoded : row.toDomain = .ok job) : isStale cutoff row = true ↔ job.Stale cutoff := by
  obtain ⟨_, _, _, _, _, _, _, _, _, claimedAt, _⟩ := (toDomain_eq_ok_iff row job).mp decoded
  unfold isStale EvaluationJob.Stale
  rw [decide_eq_true_iff, status_eq_iff decoded, ← claimedAt]
  cases job.claimedAt <;> simp

theorem recoverStaleRunning_eq (now cutoff : DateTime) :
    repository.recoverStaleRunning now cutoff =
      (.ok (repository.evaluationJobs.rows.filter (isStale cutoff)).length,
        (repository.evaluationJobs.rows.filter (isStale cutoff)).foldl
          (fun current row => current.update row.jobId (recoverRow now) (recoverRow_jobId now)
            fun _ => .recoverRow now) repository) := by
  have loop := foldl_counted
    (fun (current : PostgresJobRepository) (row : EvaluationJobRow) =>
      current.update row.jobId (recoverRow now) (recoverRow_jobId now) fun _ => .recoverRow now)
    (repository.evaluationJobs.rows.filter (isStale cutoff)) 0 repository
  rw [Nat.zero_add] at loop
  unfold recoverStaleRunning
  dsimp only
  rw [loop]

theorem job?_recoverStaleRunning (now cutoff : DateTime) (jobId : UUID) :
    postgresRepository.job? (repository.recoverStaleRunning now cutoff).2 jobId =
      (postgresRepository.job? repository jobId).map (·.recovered cutoff now) := by
  have inner : ((repository.evaluationJobs.rows.filter (isStale cutoff)).foldl
      (fun current row => current.update row.jobId (recoverRow now) (recoverRow_jobId now)
        fun _ => .recoverRow now) repository).evaluationJobs =
        (repository.evaluationJobs.rows.filter (isStale cutoff)).foldl
          (fun rows row => rows.modify row.jobId (recoverRow now) (recoverRow_jobId now)
            fun _ => .recoverRow now) repository.evaluationJobs :=
    (List.foldl_hom PostgresJobRepository.evaluationJobs fun _ _ => rfl).symm
  have lookup := Table.find?_foldl_modify (recoverRow_jobId now) (fun _ => .recoverRow now)
    (repository.evaluationJobs.rows.filter (isStale cutoff))
    (repository.evaluationJobs.nodup_keys_filter _) repository.evaluationJobs jobId
  rw [← inner] at lookup
  rw [recoverStaleRunning_eq]
  cases stored : postgresRepository.job? repository jobId with
  | none =>
      rw [job?_eq_none_iff] at stored
      rw [stored] at lookup
      exact (job?_eq_none_iff _ _).mpr lookup
  | some job =>
      obtain ⟨row, found, decoded⟩ := (repository.job?_eq_some_iff jobId job).mp stored
      have chosen := repository.evaluationJobs.mem_keys_filter_iff (isStale cutoff) found
      rw [isStale_iff cutoff decoded] at chosen
      rw [found] at lookup
      refine (job?_eq_some_iff _ _ _).mpr ⟨_, lookup, ?_⟩
      dsimp only
      by_cases stale : job.Stale cutoff
      · rw [if_pos (chosen.mpr stale), EvaluationJob.recovered, if_pos stale]
        exact toDomain_recoverRow now decoded
      · rw [if_neg (fun member => stale (chosen.mp member)), EvaluationJob.recovered, if_neg stale]
        exact decoded

theorem recoverStaleRunning_effect (now cutoff : DateTime) :
    Effect (fun _ => none) now (postgresRepository.job? repository) (.recoverStaleRunning cutoff)
      (.count (repository.recoverStaleRunning now cutoff).1)
      (postgresRepository.job? (repository.recoverStaleRunning now cutoff).2) := by
  have after := funext (repository.job?_recoverStaleRunning now cutoff)
  rw [after, recoverStaleRunning_eq, ← List.length_map EvaluationJobRow.jobId]
  refine .recover (repository.evaluationJobs.nodup_keys_filter _) fun jobId => ?_
  cases stored : postgresRepository.job? repository jobId with
  | none =>
      simp only [reduceCtorEq, false_and, exists_false, iff_false]
      intro member
      obtain ⟨row, chosen, same⟩ := List.mem_map.mp member
      exact (Table.find?_eq_none_iff _ _).mp ((repository.job?_eq_none_iff jobId).mp stored) row
        (List.mem_filter.mp chosen).1 same
  | some job =>
      obtain ⟨row, found, decoded⟩ := (repository.job?_eq_some_iff jobId job).mp stored
      rw [repository.evaluationJobs.mem_keys_filter_iff (isStale cutoff) found,
        isStale_iff cutoff decoded]
      simp

/-- A status change refuses and changes nothing, or has the effect of the change on the one
job. -/
theorem changeStatus_effect {now : DateTime} {call : RepositoryCall} {jobId : UUID}
    {allowedFrom : List JobStatus} (guarded : call.guard? = some (jobId, allowedFrom))
    (change : EvaluationJobRow → EvaluationJobRow) (changeJob : EvaluationJob → EvaluationJob)
    (keeps : ∀ row, (change row).jobId = row.jobId)
    (safe : ∀ row, row.Decodes → (change row).Decodes)
    (decodes : ∀ row job, row.toDomain = .ok job → (change row).toDomain = .ok (changeJob job))
    (accepted : ∀ job, postgresRepository.job? repository jobId = some job →
      job.status ∈ allowedFrom →
      Effect (fun _ => none) now (postgresRepository.job? repository) call
        (.job (.ok (changeJob job)))
        (Function.update (postgresRepository.job? repository) jobId (some (changeJob job)))) :
    Effect (fun _ => none) now (postgresRepository.job? repository) call
      (.job (repository.changeStatus jobId allowedFrom change keeps safe).1)
      (postgresRepository.job? (repository.changeStatus jobId allowedFrom change keeps safe).2) := by
  unfold changeStatus
  cases stored : postgresRepository.job? repository jobId with
  | none =>
      rw [(repository.job?_eq_none_iff jobId).mp stored]
      exact .refuse guarded (.absent stored)
  | some job =>
      obtain ⟨row, found, decoded⟩ := (repository.job?_eq_some_iff jobId job).mp stored
      obtain ⟨statusDecoded, _⟩ := (toDomain_eq_ok_iff row job).mp decoded
      rw [found]
      by_cases allowed : job.status ∈ allowedFrom
      · have valid : validateTransition row.status allowedFrom = .ok () := by
          simp [validateTransition, statusDecoded, bind, Except.bind, allowed]
        have changed := eq_update_of_changed changeJob stored
          (fun other => repository.job?_update jobId other change changeJob keeps safe decodes)
        simp only [valid]
        rw [decodes row job decoded, changed]
        exact accepted job stored allowed
      · have invalid : validateTransition row.status allowedFrom =
            .error .invalidStateTransitionError := by
          simp [validateTransition, statusDecoded, bind, Except.bind, allowed]
        simp only [invalid]
        exact .refuse guarded (.notAllowed stored allowed)

theorem setRunning_effect (now : DateTime) (jobId : UUID) :
    Effect (fun _ => none) now (postgresRepository.job? repository) (.setRunning jobId)
      (.job (repository.setRunning now jobId).1)
      (postgresRepository.job? (repository.setRunning now jobId).2) := by
  refine repository.changeStatus_effect rfl (moveRow now .running) (EvaluationJob.started now)
    (fun _ => rfl) (fun _ => .moveRow now .running) (fun _ _ => toDomain_moveRow now .running) ?_
  intro job stored allowed
  exact .start stored (by simpa using allowed)

theorem setSucceeded_effect (now : DateTime) (jobId : UUID) (result : EvaluationResult) :
    Effect (fun _ => none) now (postgresRepository.job? repository) (.setSucceeded jobId result)
      (.job (repository.setSucceeded now jobId result).1)
      (postgresRepository.job? (repository.setSucceeded now jobId result).2) := by
  refine repository.changeStatus_effect rfl (succeedRow now result)
    (EvaluationJob.succeeded (fun _ => none) now result) (fun _ => rfl)
    (fun _ => .succeedRow now result) (fun _ _ => toDomain_succeedRow now result) ?_
  intro job stored allowed
  exact .succeed stored (by simpa using allowed)

theorem setFailed_effect (now : DateTime) (jobId : UUID) (message : String) :
    Effect (fun _ => none) now (postgresRepository.job? repository) (.setFailed jobId message)
      (.job (repository.setFailed now jobId message).1)
      (postgresRepository.job? (repository.setFailed now jobId message).2) := by
  refine repository.changeStatus_effect rfl (failRow now message)
    (EvaluationJob.failed (fun _ => none) now message) (fun _ => rfl)
    (fun _ => .failRow now message) (fun _ _ => toDomain_failRow now message) ?_
  intro job stored allowed
  exact .fail stored (by simpa using allowed)

end PostgresJobRepository

theorem postgresRepository_implements : Implements postgresRepository fun _ => none where
  empty := fun jobId => rfl
  identified := fun {state jobId job} stored => by
    obtain ⟨row, found, decoded⟩ := (PostgresJobRepository.job?_eq_some_iff state jobId job).mp stored
    exact (EvaluationJobRow.jobId_eq row job decoded).trans (Table.find?_key found)
  arranged := fun {state layout} arranged => by
    funext jobId
    ext job
    rw [PostgresJobRepository.job?_eq_some_iff layout, PostgresJobRepository.job?_eq_some_iff state,
      Table.Arranges.find? arranged]
  effect := fun {state next now call reply} fresh performed => by
    cases call with
    | create job =>
        cases performed
        exact PostgresJobRepository.create_effect state now job (fresh job rfl)
    | get jobId =>
        cases performed
        rw [show postgresRepository.get state jobId = _ from
          PostgresJobRepository.get_eq state jobId]
        exact .get
    | getForTenant jobId tenantId =>
        cases performed
        rw [show postgresRepository.getForTenant state jobId tenantId = _ from
          PostgresJobRepository.getForTenant_eq state jobId tenantId]
        exact .getForTenant
    | listRecent tenantId projectId limit =>
        cases performed
        exact PostgresJobRepository.listRecent_effect state now tenantId projectId limit
    | claimNextQueued =>
        cases performed
        exact PostgresJobRepository.claimNextQueued_effect state now
    | recoverStaleRunning cutoff =>
        cases performed
        exact PostgresJobRepository.recoverStaleRunning_effect state now cutoff
    | setRunning jobId =>
        cases performed
        exact PostgresJobRepository.setRunning_effect state now jobId
    | setSucceeded jobId result =>
        cases performed
        exact PostgresJobRepository.setSucceeded_effect state now jobId result
    | setFailed jobId message =>
        cases performed
        exact PostgresJobRepository.setFailed_effect state now jobId message

end EvaluationService
