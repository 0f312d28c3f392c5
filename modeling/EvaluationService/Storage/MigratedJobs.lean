import EvaluationService.Storage.Lifecycle
import EvaluationService.Storage.MigrationProperties

/-!
Jobs across a migration. The rows of the first release are read as jobs that have made none of
their attempts, and the service goes on with them as with its own, but for those that were
running: they have no claim to recover.
-/

set_option autoImplicit false

namespace EvaluationService

open Foundation AddJobAttemptMetadata

/-- The names of the columns that a row has values for. -/
def EvaluationJobRow.names : List String :=
  (CreateEvaluationJobs.columns ++ AddJobAttemptMetadata.columns).map Column.name

namespace EvaluationJobRow

variable {layout : JobsLayout} {row : EvaluationJobRow} {name : String}

/-- What a table keeps of a row: the columns that it has. -/
def cellsIn (layout : JobsLayout) (row : EvaluationJobRow) (name : String) : Option Cell :=
  if (layout.column? name).isSome then row.cells name else none

/-- A row with what the revisions put into the columns that were missing. -/
def upgraded (layout : JobsLayout) (row : EvaluationJobRow) : EvaluationJobRow :=
  { row with
    attemptCount :=
      if (layout.column? AddJobAttemptMetadata.attemptCount.name).isSome then row.attemptCount else 0
    maxAttempts :=
      if (layout.column? AddJobAttemptMetadata.maxAttempts.name).isSome then row.maxAttempts else 3
    claimedAt :=
      if (layout.column? AddJobAttemptMetadata.claimedAt.name).isSome then row.claimedAt else none }

/-- What was written is loaded again. -/
theorem mapM_ofCells? (rows : List EvaluationJobRow) : (rows.map cells).mapM ofCells? = some rows := by
  induction rows with
  | nil => rfl
  | cons row others ih => simp [ofCells?_cells, ih]

theorem cells_eq_none (unknown : name ∉ names) : row.cells name = none := by
  unfold cells
  split
  all_goals first
    | rfl
    | exact absurd (by decide) unknown

theorem cells_upgraded_of_ne (different : ∀ column ∈ columns, name ≠ column.name) :
    (row.upgraded layout).cells name = row.cells name := by
  have notCount := different AddJobAttemptMetadata.attemptCount (by decide)
  have notBudget := different AddJobAttemptMetadata.maxAttempts (by decide)
  have notClaim := different AddJobAttemptMetadata.claimedAt (by decide)
  unfold cells
  split
  all_goals first
    | rfl
    | exact absurd rfl notCount
    | exact absurd rfl notBudget
    | exact absurd rfl notClaim

end EvaluationJobRow

/-! ## Rows -/

/-- What becomes of the values of a row when a column is filled. -/
def fillCell (layout : JobsLayout) (column : Column ColumnKind Cell) (value : Option Cell)
    (row : String → Option Cell) : String → Option Cell :=
  if (layout.column? column.name).isSome then row else Function.update row column.name value

section Rows

variable {layout : JobsLayout} {column : Column ColumnKind Cell} {value : Option Cell}
variable {row : String → Option Cell} {name : String}

theorem fillCell_of_ne (different : name ≠ column.name) :
    fillCell layout column value row name = row name := by
  unfold fillCell
  split
  · rfl
  · exact Function.update_of_ne different _ _

theorem fillCell_self : fillCell layout column value row column.name =
    if (layout.column? column.name).isSome then row column.name else value := by
  unfold fillCell
  split
  · rfl
  · exact Function.update_self _ _ _

theorem headLayout_rows : (headLayout layout).rows = layout.rows.map fun row =>
    fillCell layout claimedAt none (fillCell layout maxAttempts (some (.integer 3))
      (fillCell layout attemptCount (some (.integer 0)) row)) := by
  rw [headLayout, AddJobAttemptMetadata.upgraded, Layout.withIndex_rows, Layout.fillColumn_rows,
    Layout.fillColumn_rows, Layout.fillColumn_rows, List.map_map, List.map_map,
    Layout.fillColumn_column?_of_ne (by decide), Layout.fillColumn_column?_of_ne (by decide),
    Layout.fillColumn_column?_of_ne (by decide)]
  rfl

theorem fillCells_cellsIn (compatible : Compatible layout) (row : EvaluationJobRow) :
    fillCell layout claimedAt none (fillCell layout maxAttempts (some (.integer 3))
      (fillCell layout attemptCount (some (.integer 0)) (row.cellsIn layout))) =
    (row.upgraded layout).cells := by
  funext name
  by_cases isClaim : name = claimedAt.name
  · subst isClaim
    rw [fillCell_self, fillCell_of_ne (by decide), fillCell_of_ne (by decide)]
    unfold EvaluationJobRow.cellsIn
    change _ = (row.upgraded layout).claimedAt.map Cell.dateTime
    unfold EvaluationJobRow.upgraded
    cases (layout.column? claimedAt.name).isSome <;> rfl
  rw [fillCell_of_ne isClaim]
  by_cases isBudget : name = maxAttempts.name
  · subst isBudget
    rw [fillCell_self, fillCell_of_ne (by decide)]
    unfold EvaluationJobRow.cellsIn
    change _ = some (Cell.integer (row.upgraded layout).maxAttempts)
    unfold EvaluationJobRow.upgraded
    cases (layout.column? maxAttempts.name).isSome <;> rfl
  rw [fillCell_of_ne isBudget]
  by_cases isCount : name = attemptCount.name
  · subst isCount
    rw [fillCell_self]
    unfold EvaluationJobRow.cellsIn
    change _ = some (Cell.integer (row.upgraded layout).attemptCount)
    unfold EvaluationJobRow.upgraded
    cases (layout.column? attemptCount.name).isSome <;> rfl
  rw [fillCell_of_ne isCount]
  have different : ∀ column ∈ columns, name ≠ column.name := by
    intro column member
    simp only [columns, List.mem_cons, List.not_mem_nil, or_false] at member
    rcases member with rfl | rfl | rfl
    · exact isCount
    · exact isBudget
    · exact isClaim
  rw [EvaluationJobRow.cells_upgraded_of_ne different, EvaluationJobRow.cellsIn]
  cases found : layout.column? name with
  | some column => rfl
  | none =>
      refine (EvaluationJobRow.cells_eq_none fun known => ?_).symm
      obtain ⟨column, member, rfl⟩ := List.mem_map.mp known
      rcases List.mem_append.mp member with base | added
      · rw [compatible.columns column base] at found
        cases found
      · exact different column added rfl

/-- The rows that the service has written come out as rows of the present release. -/
theorem headLayout_rows_cells (compatible : Compatible layout) {rows : List EvaluationJobRow}
    (holds : layout.rows = rows.map (EvaluationJobRow.cellsIn layout)) :
    (headLayout layout).rows =
      (rows.map (EvaluationJobRow.upgraded layout)).map EvaluationJobRow.cells := by
  rw [headLayout_rows, holds, List.map_map, List.map_map]
  exact List.map_congr_left fun row _ => fillCells_cellsIn compatible row

end Rows

/-! ## Jobs -/

/-- A job with what the revisions put into the columns that were missing. -/
def EvaluationJob.upgraded (layout : JobsLayout) (job : EvaluationJob) : EvaluationJob :=
  { job with
    attemptCount :=
      if (layout.column? AddJobAttemptMetadata.attemptCount.name).isSome then job.attemptCount else 0
    maxAttempts :=
      if (layout.column? AddJobAttemptMetadata.maxAttempts.name).isSome then job.maxAttempts else 3
    claimedAt :=
      if (layout.column? AddJobAttemptMetadata.claimedAt.name).isSome then job.claimedAt else none }

theorem EvaluationJobRow.toDomain_upgraded (layout : JobsLayout) {row : EvaluationJobRow}
    {job : EvaluationJob} (decoded : row.toDomain = .ok job) :
    (row.upgraded layout).toDomain = .ok (job.upgraded layout) := by
  rw [toDomain_eq_ok_iff] at decoded ⊢
  obtain ⟨status, request, result, jobId, tenantId, projectId, message, count, budget, claim,
    created, updated⟩ := decoded
  refine ⟨status, request, result, jobId, tenantId, projectId, message, ?_, ?_, ?_, created, updated⟩
  · dsimp only [EvaluationJob.upgraded, EvaluationJobRow.upgraded]
    rw [count]
  · dsimp only [EvaluationJob.upgraded, EvaluationJobRow.upgraded]
    rw [budget]
  · dsimp only [EvaluationJob.upgraded, EvaluationJobRow.upgraded]
    rw [claim]

def PostgresJobRepository.upgraded (layout : JobsLayout) (store : PostgresJobRepository) :
    PostgresJobRepository where
  evaluationJobs := {
    rows := store.evaluationJobs.rows.map (EvaluationJobRow.upgraded layout)
    unique := by
      rw [List.map_map]
      exact store.evaluationJobs.unique
    checked := by
      intro row member
      obtain ⟨old, isOld, rfl⟩ := List.mem_map.mp member
      obtain ⟨job, decoded⟩ := store.evaluationJobs.checked old isOld
      exact ⟨_, EvaluationJobRow.toDomain_upgraded layout decoded⟩ }

theorem PostgresJobRepository.job?_upgraded (layout : JobsLayout) (store : PostgresJobRepository)
    (jobId : UUID) :
    postgresRepository.job? (store.upgraded layout) jobId =
      (postgresRepository.job? store jobId).map (EvaluationJob.upgraded layout) := by
  have found : (store.upgraded layout).evaluationJobs.find? jobId =
      (store.evaluationJobs.find? jobId).map (EvaluationJobRow.upgraded layout) := by
    unfold PostgresJobRepository.upgraded Table.find?
    rw [List.find?_map]
    rfl
  cases isFound : store.evaluationJobs.find? jobId with
  | none =>
      rw [isFound] at found
      rw [(job?_eq_none_iff _ jobId).mpr isFound, (job?_eq_none_iff _ jobId).mpr found]
      rfl
  | some row =>
      rw [isFound] at found
      obtain ⟨job, decoded⟩ := store.evaluationJobs.find?_sound isFound
      have decodedAfter := EvaluationJobRow.toDomain_upgraded layout decoded
      rw [(job?_eq_some_iff _ jobId job).mpr ⟨row, isFound, decoded⟩,
        (job?_eq_some_iff _ jobId _).mpr ⟨_, found, decodedAfter⟩]
      rfl

section Histories

variable {repository : JobRepository} {release : Option DateTime → Option DateTime}
variable {history : repository.History} {state final : repository.State} {jobId : UUID}

/-- A store whose jobs are consistent stays so. -/
theorem JobRepository.consistent_of_run (implements : Implements repository release)
    (run : Run repository.Operates state history final)
    (sound : ∀ jobId job, repository.job? state jobId = some job → job.Consistent) :
    ∀ jobId job, repository.job? final jobId = some job → job.Consistent := by
  induction run with
  | nil => exact sound
  | @snoc earlier middle last event prior operates ih =>
      intro jobId job stored
      have entry := implements.entry operates jobId
      rw [stored] at entry
      generalize found : repository.job? middle jobId = before at entry
      cases entry with
      | kept _ => exact ih jobId job found
      | created isCreate _ _ => exact (operates.1 job isCreate).1.consistent
      | changed change => exact change.consistent (ih jobId _ found)

def Completes (jobId : UUID) (call : RepositoryCall) : Prop :=
  (∃ result, call = .setSucceeded jobId result) ∨ ∃ message, call = .setFailed jobId message

/-- A running job without a claim is waited for, never taken up again. -/
theorem JobRepository.stranded_of_run (implements : Implements repository release)
    (run : Run repository.Operates state history final) {job : EvaluationJob}
    (stored : repository.job? state jobId = some job) (running : job.status = .running)
    (unclaimed : job.claimedAt = none)
    (abandoned : ∀ taken ∈ history, ¬ Completes jobId taken.event.call) :
    repository.job? final jobId = some job ∧
      ∀ taken ∈ history, ∀ handed, taken.event.reply = .claim (.ok (some handed)) →
        handed.jobId ≠ jobId := by
  induction run with
  | nil => exact ⟨stored, by intro taken member; cases member⟩
  | @snoc earlier middle last event prior operates ih =>
      obtain ⟨kept, unhanded⟩ := ih fun taken member => abandoned taken (List.mem_append_left _ member)
      have notNow := abandoned ⟨middle, event, last⟩ (by simp)
      dsimp only at notNow
      have entry := implements.entry operates jobId
      rw [kept] at entry
      obtain ⟨now, call, reply⟩ := event
      dsimp only at entry notNow
      generalize repository.job? last jobId = after at entry
      cases entry with
      | kept notHanded =>
          refine ⟨rfl, ?_⟩
          intro taken member handed replied
          rcases List.mem_append.mp member with before | current
          · exact unhanded taken before handed replied
          · obtain rfl := List.mem_singleton.mp current
            exact notHanded handed replied
      | changed change =>
          exfalso
          cases change with
          | claimed _ claimable =>
              rw [claimable.1] at running
              cases running
          | requeued stale _ =>
              obtain ⟨_, claimedAt, claimed, _⟩ := stale
              rw [unclaimed] at claimed
              cases claimed
          | timedOut stale _ =>
              obtain ⟨_, claimedAt, claimed, _⟩ := stale
              rw [unclaimed] at claimed
              cases claimed
          | started queued =>
              rw [queued] at running
              cases running
          | succeeded _ => exact notNow (.inl ⟨_, rfl⟩)
          | failed _ => exact notNow (.inr ⟨_, rfl⟩)

end Histories

/-- What the service makes of the jobs of the first release. -/
structure JobsMigrate (store next : PostgresJobRepository) : Prop where
  /-- They are read as they were, with all their attempts before them. -/
  jobs : ∀ jobId, postgresRepository.job? next jobId =
    (postgresRepository.job? store jobId).map fun job =>
      { job with attemptCount := 0, maxAttempts := 3, claimedAt := none }
  /-- The queued ones can be claimed. -/
  claimable : ∀ jobId job, postgresRepository.job? next jobId = some job →
    job.status = .queued → job.Claimable
  /-- The lifecycle holds from then on. -/
  consistent : ∀ history final, Run postgresRepository.Operates next history final →
    ∀ jobId job, postgresRepository.job? final jobId = some job → job.Consistent
  /-- A running one is never recovered nor claimed: it stays as it is until the process that
  was working on it, if it is still there, completes it. -/
  stranded : ∀ history final, Run postgresRepository.Operates next history final →
    ∀ jobId job, postgresRepository.job? next jobId = some job → job.status = .running →
    (∀ taken ∈ history, ¬ Completes jobId taken.event.call) →
    postgresRepository.job? final jobId = some job ∧
      ∀ taken ∈ history, ∀ handed, taken.event.reply = .claim (.ok (some handed)) →
        handed.jobId ≠ jobId

theorem migrated_jobs {database : Database} {table : JobsTable} {store : PostgresJobRepository}
    (supported : database.Supported) (stored : database.table = some table)
    (first : FirstRelease table.layout)
    (holds : table.rows = store.evaluationJobs.rows.map (EvaluationJobRow.cellsIn table.layout))
    (written : ∀ jobId job, postgresRepository.job? store jobId = some job →
      (job.result.isSome ↔ job.status = .succeeded) ∧
      (job.status = .failed → job.errorMessage.isSome)) :
    ∃ upgraded last next, database.upgradeHead = .ok upgraded ∧ upgraded.table = some last ∧
      last.rows.mapM EvaluationJobRow.ofCells? = some next.evaluationJobs.rows ∧
      JobsMigrate store next := by
  obtain ⟨upgraded, upgrades, _, ⟨last, isLast, layout⟩, _⟩ := supported.upgradeHead_ok
  have jobs : ∀ jobId, postgresRepository.job? (store.upgraded table.layout) jobId =
      (postgresRepository.job? store jobId).map fun job =>
        { job with attemptCount := 0, maxAttempts := 3, claimedAt := none } := by
    intro jobId
    rw [PostgresJobRepository.job?_upgraded]
    congr 1
    funext job
    unfold EvaluationJob.upgraded
    rw [first.noAttempts attemptCount (by decide), first.noAttempts maxAttempts (by decide),
      first.noAttempts claimedAt (by decide)]
    rfl
  have unattempted : ∀ jobId job,
      postgresRepository.job? (store.upgraded table.layout) jobId = some job →
      job.attemptCount = 0 ∧ job.maxAttempts = 3 ∧ job.claimedAt = none ∧
        (job.result.isSome ↔ job.status = .succeeded) ∧
        (job.status = .failed → job.errorMessage.isSome) := by
    intro jobId job found
    rw [jobs, Option.map_eq_some_iff] at found
    obtain ⟨old, isOld, rfl⟩ := found
    obtain ⟨result, message⟩ := written jobId old isOld
    exact ⟨rfl, rfl, rfl, result, message⟩
  refine ⟨upgraded, last, store.upgraded table.layout, upgrades, isLast, ?_, jobs, ?_, ?_, ?_⟩
  · have rows : last.rows = ((store.upgraded table.layout).evaluationJobs.rows).map
        EvaluationJobRow.cells := by
      change last.layout.rows = _
      rw [layout, Database.goal, stored]
      exact headLayout_rows_cells first.toCompatible holds
    rw [rows]
    exact EvaluationJobRow.mapM_ofCells? _
  · intro jobId job found queued
    obtain ⟨count, budget, _⟩ := unattempted jobId job found
    exact ⟨queued, by omega⟩
  · intro history final run
    refine JobRepository.consistent_of_run postgresRepository_implements run ?_
    intro jobId job found
    obtain ⟨count, budget, claim, result, message⟩ := unattempted jobId job found
    exact ⟨by omega, by omega, fun _ => by omega, fun _ => claim, result, message⟩
  · intro history final run jobId job found running abandoned
    obtain ⟨_, _, claim, _⟩ := unattempted jobId job found
    exact JobRepository.stranded_of_run postgresRepository_implements run found running claim
      abandoned

/-- The table of the first release with the rows of a store. -/
def firstReleaseTable (rows : List EvaluationJobRow) : JobsTable where
  columns := CreateEvaluationJobs.columns
  primaryKey := ["job_id"]
  indexes := CreateEvaluationJobs.indexes
  rows := rows.map fun row name =>
    if name ∈ CreateEvaluationJobs.columns.map Column.name then row.cells name else none
  columnsDistinct := CreateEvaluationJobs.table.columnsDistinct
  indexesDistinct := by decide
  indexed := by decide
  required := by
    intro cells member column isColumn notNull
    obtain ⟨row, _, rfl⟩ := List.mem_map.mp member
    simp only [CreateEvaluationJobs.columns, List.mem_cons, List.not_mem_nil, or_false] at isColumn
    rcases isColumn with rfl | rfl | rfl | rfl | rfl | rfl | rfl | rfl | rfl
    all_goals first
      | rfl
      | cases notNull
  blank := by
    intro cells member name outside
    obtain ⟨row, _, rfl⟩ := List.mem_map.mp member
    exact if_neg outside

theorem firstReleaseTable_compatible (rows : List EvaluationJobRow) :
    FirstRelease (firstReleaseTable rows).layout where
  columns := (by decide : ∀ column ∈ CreateEvaluationJobs.columns,
    (CreateEvaluationJobs.columns.find? fun other => other.name = column.name) = some column)
  attempts := by
    intro column member
    have absent : ∀ column ∈ AddJobAttemptMetadata.columns,
        (CreateEvaluationJobs.columns.find? fun other => other.name = column.name) = none := by
      decide
    exact .inl (absent column member)
  indexes := (by decide : ∀ index ∈ claimedAtIndex :: CreateEvaluationJobs.indexes,
    (CreateEvaluationJobs.indexes.find? fun other => other.name = index.name) = none ∨
      (CreateEvaluationJobs.indexes.find? fun other => other.name = index.name) = some index)
  primaryKey := rfl
  noAttempts := (by decide : ∀ column ∈ AddJobAttemptMetadata.columns,
    (CreateEvaluationJobs.columns.find? fun other => other.name = column.name) = none)
  noIndex := (by decide :
    (CreateEvaluationJobs.indexes.find? fun other => other.name = claimedAtIndex.name) = none)

theorem firstReleaseTable_supported (rows : List EvaluationJobRow) :
    Database.Supported ⟨some .createEvaluationJobs, some (firstReleaseTable rows)⟩ :=
  .created (firstReleaseTable_compatible rows).toCompatible
    (by decide : ∀ index ∈ CreateEvaluationJobs.indexes,
      (CreateEvaluationJobs.indexes.find? fun other => other.name = index.name) = some index)

theorem firstReleaseTable_rows (rows : List EvaluationJobRow) :
    (firstReleaseTable rows).rows =
      rows.map (EvaluationJobRow.cellsIn (firstReleaseTable rows).layout) := by
  refine List.map_congr_left fun row _ => ?_
  funext name
  unfold EvaluationJobRow.cellsIn
  simp only [← Relation.mem_column_names_iff]
  rfl

/-- One job is queued and one is running when the revisions are run. -/
theorem migrated_jobs_running :
    let calls : List (DateTime × RepositoryCall) :=
      [(0, .create (demoJob 7 3)), (1, .create (demoJob 8 3)), (2, .setRunning 7)]
    let store : PostgresJobRepository := (postgresRepository.replay postgresRepository.empty calls).2
    ∃ upgraded last next, Database.upgradeHead ⟨some .createEvaluationJobs,
        some (firstReleaseTable store.evaluationJobs.rows)⟩ = .ok upgraded ∧
      upgraded.table = some last ∧
      last.rows.mapM EvaluationJobRow.ofCells? = some next.evaluationJobs.rows ∧
      JobsMigrate store next ∧
      ∃ job, postgresRepository.job? next 7 = some job ∧ job.status = .running := by
  intro calls store
  have reached := postgresRepository.reaches_replay calls (by decide)
  have first := firstReleaseTable_compatible store.evaluationJobs.rows
  obtain ⟨upgraded, last, next, upgrades, isLast, loaded, migrate⟩ := migrated_jobs
    (firstReleaseTable_supported _) rfl first (firstReleaseTable_rows _) fun jobId job stored =>
      ⟨(reached.consistent postgresRepository_implements stored).resultIff,
        (reached.consistent postgresRepository_implements stored).failedMessage⟩
  have running : (postgresRepository.job? store 7).map (·.status) = some .running := by decide
  obtain ⟨job, stored, isRunning⟩ := Option.map_eq_some_iff.mp running
  have found := migrate.jobs 7
  rw [stored, Option.map_some] at found
  exact ⟨upgraded, last, next, upgrades, isLast, loaded, migrate, _, found, isRunning⟩

/-! ## Back again -/

/-- What the revisions did to a database of the first release is undone step by step, down to
the rows, and the last step leaves no table. -/
theorem downgrade_upgrade {database : Database} {table : JobsTable} (supported : database.Supported)
    (stored : database.table = some table) (first : FirstRelease table.layout) :
    ∃ upgraded restored, database.upgradeHead = .ok upgraded ∧
      upgraded.downgradeStep = .ok restored ∧
      restored.version = some .createEvaluationJobs ∧
      (∃ next, restored.table = some next ∧
        next.layout = CreateEvaluationJobs.upgraded table.layout) ∧
      restored.downgradeStep = .ok ⟨none, none⟩ := by
  obtain ⟨upgraded, upgrades, version, ⟨last, isLast, lastLayout⟩, _⟩ := supported.upgradeHead_ok
  obtain ⟨base, _, baseLayout⟩ := CreateEvaluationJobs.upgrade_ok first.toCompatible
  obtain ⟨compatible, present⟩ := CreateEvaluationJobs.upgraded_compatible first.toCompatible
  rw [← baseLayout] at compatible present
  have noIndex : base.layout.index? AddJobAttemptMetadata.claimedAtIndex.name = none := by
    rw [baseLayout, CreateEvaluationJobs.upgraded, Layout.withIndex_index?_of_ne (by decide),
      Layout.withIndex_index?_of_ne (by decide), Layout.withIndex_index?_of_ne (by decide)]
    exact first.noIndex
  have absent : ∀ column ∈ AddJobAttemptMetadata.columns,
      base.layout.column? column.name = none := by
    rw [baseLayout]
    exact first.noAttempts
  have layout : last.layout = AddJobAttemptMetadata.upgraded base.layout := by
    rw [lastLayout, Database.goal, stored, baseLayout]
    rfl
  obtain ⟨next, downgrades, nextLayout⟩ :=
    AddJobAttemptMetadata.downgrade_ok compatible absent noIndex layout
  rw [← nextLayout] at present
  refine ⟨upgraded, ⟨some .createEvaluationJobs, some next⟩, upgrades, ?_, rfl,
    ⟨next, rfl, nextLayout.trans baseLayout⟩, ?_⟩
  · simp only [Database.downgradeStep, version, isLast, Revision.downgrade, downgrades,
      Except.mapError, Except.map, Revision.downRevision]
  · simp only [Database.downgradeStep, Revision.downgrade,
      CreateEvaluationJobs.downgrade_ok present, Except.mapError, Except.map, Revision.downRevision]

theorem downgrade_upgrade_rows :
    let rows := [EvaluationJobRow.toRow (demoJob 7 3), EvaluationJobRow.toRow (demoJob 8 3)]
    ∃ upgraded restored next,
      Database.upgradeHead ⟨some .createEvaluationJobs, some (firstReleaseTable rows)⟩ =
        .ok upgraded ∧
      upgraded.downgradeStep = .ok restored ∧ restored.table = some next ∧
      next.rows = (firstReleaseTable rows).rows := by
  intro rows
  obtain ⟨upgraded, restored, upgrades, downgrades, _, ⟨next, isNext, layout⟩, _⟩ :=
    downgrade_upgrade (firstReleaseTable_supported rows) rfl (firstReleaseTable_compatible rows)
  exact ⟨upgraded, restored, next, upgrades, downgrades, isNext, congrArg Layout.rows layout⟩

end EvaluationService
