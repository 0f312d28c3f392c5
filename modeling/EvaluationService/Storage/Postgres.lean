import EvaluationService.Foundation.Ordering
import EvaluationService.Foundation.Table
import EvaluationService.Storage.Base

/-!
The PostgreSQL repository (`app/storage/postgres.py`). A method is one transaction
on the table of rows. Columns hold what was written to them; the physical order of
the rows is the database's own, so `ORDER BY` leaves ties in an arbitrary order.
-/

set_option autoImplicit false

namespace EvaluationService

open Foundation

/-! ## JSON payloads -/

inductive JsonValue where
  | null
  | bool (value : Bool)
  | int (value : Int)
  | str (value : String)
deriving DecidableEq, Repr

abbrev JsonObject : Type := List (String × JsonValue)

namespace JsonObject

def requireString (payload : JsonObject) (field : String) : Except Exn String :=
  match payload.lookup field with
  | some (.str value) => .ok value
  | _ => .error .valueError

def optionalString (payload : JsonObject) (field : String) : Except Exn (Option String) :=
  match payload.lookup field with
  | none | some .null => .ok none
  | some (.str value) => .ok (some value)
  | _ => .error .valueError

def requireInt (payload : JsonObject) (field : String) : Except Exn Int :=
  match payload.lookup field with
  | some (.int value) => .ok value
  | _ => .error .valueError

def requireBool (payload : JsonObject) (field : String) : Except Exn Bool :=
  match payload.lookup field with
  | some (.bool value) => .ok value
  | _ => .error .valueError

end JsonObject

namespace EvaluationRequest

def modelDump (request : EvaluationRequest) : JsonObject :=
  [("tenant_id", .str request.tenantId),
    ("project_id", .str request.projectId),
    ("question", .str request.question),
    ("answer", .str request.answer),
    ("rubric", request.rubric.elim .null .str)]

def modelValidate (payload : JsonObject) : Except Exn EvaluationRequest := do
  let tenantId ← payload.requireString "tenant_id"
  let projectId ← payload.requireString "project_id"
  let question ← payload.requireString "question"
  let answer ← payload.requireString "answer"
  let rubric ← payload.optionalString "rubric"
  if valid : LengthBetween 1 128 tenantId ∧ LengthBetween 1 128 projectId ∧
      LengthBetween 1 10000 question ∧ LengthBetween 1 20000 answer ∧
      OptionalLength 10000 rubric then
    .ok ⟨tenantId, projectId, question, answer, rubric,
      valid.1, valid.2.1, valid.2.2.1, valid.2.2.2.1, valid.2.2.2.2⟩
  else .error .valueError

end EvaluationRequest

namespace EvaluationResult

def modelDump (result : EvaluationResult) : JsonObject :=
  [("score", .int result.score),
    ("justification", .str result.justification),
    ("rubric_used", .bool result.rubricUsed)]

def modelValidate (payload : JsonObject) : Except Exn EvaluationResult := do
  let score ← payload.requireInt "score"
  let justification ← payload.requireString "justification"
  let rubricUsed ← payload.requireBool "rubric_used"
  if valid : 0 ≤ score ∧ score ≤ 100 then
    .ok ⟨score, justification, rubricUsed, valid.1, valid.2⟩
  else .error .valueError

end EvaluationResult

/-! ## Rows -/

structure EvaluationJobRow where
  jobId : UUID
  tenantId : String
  projectId : String
  status : String
  requestPayload : JsonObject
  resultPayload : Option JsonObject
  errorMessage : Option String
  attemptCount : Int
  maxAttempts : Int
  claimedAt : Option DateTime
  createdAt : DateTime
  updatedAt : DateTime
deriving DecidableEq, Repr

namespace EvaluationJobRow

def toRow (job : EvaluationJob) : EvaluationJobRow where
  jobId := job.jobId
  tenantId := job.tenantId
  projectId := job.projectId
  status := job.status.value
  requestPayload := job.request.modelDump
  resultPayload := job.result.map EvaluationResult.modelDump
  errorMessage := job.errorMessage
  attemptCount := job.attemptCount
  maxAttempts := job.maxAttempts
  claimedAt := job.claimedAt
  createdAt := job.createdAt
  updatedAt := job.updatedAt

def statusOf (text : String) : Except Exn JobStatus :=
  match JobStatus.ofValue? text with
  | some status => .ok status
  | none => .error .valueError

def resultOf : Option JsonObject → Except Exn (Option EvaluationResult)
  | none => .ok none
  | some payload => (EvaluationResult.modelValidate payload).map some

def toDomain (row : EvaluationJobRow) : Except Exn EvaluationJob := do
  let status ← statusOf row.status
  let request ← EvaluationRequest.modelValidate row.requestPayload
  let result ← resultOf row.resultPayload
  .ok {
    jobId := row.jobId
    tenantId := row.tenantId
    projectId := row.projectId
    status := status
    request := request
    result := result
    errorMessage := row.errorMessage
    attemptCount := row.attemptCount
    maxAttempts := row.maxAttempts
    claimedAt := row.claimedAt
    createdAt := row.createdAt
    updatedAt := row.updatedAt }

/-- A row that some job is stored as. -/
def Decodes (row : EvaluationJobRow) : Prop :=
  ∃ job, row.toDomain = .ok job

/-! ### The codec -/

theorem modelValidate_request_dump (request : EvaluationRequest) :
    EvaluationRequest.modelValidate request.modelDump = .ok request := by
  obtain ⟨tenantId, projectId, question, answer, rubric, h₁, h₂, h₃, h₄, h₅⟩ := request
  cases rubric <;>
    simp [EvaluationRequest.modelValidate, EvaluationRequest.modelDump,
      JsonObject.requireString, JsonObject.optionalString, List.lookup_cons, bind, Except.bind,
      h₁, h₂, h₃, h₄, h₅]

theorem modelValidate_result_dump (result : EvaluationResult) :
    EvaluationResult.modelValidate result.modelDump = .ok result := by
  obtain ⟨score, justification, rubricUsed, lower, upper⟩ := result
  simp [EvaluationResult.modelValidate, EvaluationResult.modelDump, JsonObject.requireString,
    JsonObject.requireInt, JsonObject.requireBool, List.lookup_cons, bind, Except.bind, lower, upper]

@[simp] theorem statusOf_value (status : JobStatus) : statusOf status.value = .ok status := by
  simp [statusOf]

/-- A row and a job agree column by column. -/
theorem toDomain_eq_ok_iff (row : EvaluationJobRow) (job : EvaluationJob) :
    row.toDomain = .ok job ↔
      statusOf row.status = .ok job.status ∧
      EvaluationRequest.modelValidate row.requestPayload = .ok job.request ∧
      resultOf row.resultPayload = .ok job.result ∧
      job.jobId = row.jobId ∧ job.tenantId = row.tenantId ∧ job.projectId = row.projectId ∧
      job.errorMessage = row.errorMessage ∧ job.attemptCount = row.attemptCount ∧
      job.maxAttempts = row.maxAttempts ∧ job.claimedAt = row.claimedAt ∧
      job.createdAt = row.createdAt ∧ job.updatedAt = row.updatedAt := by
  constructor
  · intro decoded
    obtain ⟨status, statusDecoded, continuation⟩ := bind_ok decoded
    obtain ⟨request, requestDecoded, continuation⟩ := bind_ok continuation
    obtain ⟨result, resultDecoded, shape⟩ := bind_ok continuation
    cases shape
    exact ⟨statusDecoded, requestDecoded, resultDecoded, rfl, rfl, rfl, rfl, rfl, rfl, rfl, rfl, rfl⟩
  · rintro ⟨statusDecoded, requestDecoded, resultDecoded, columns⟩
    obtain ⟨jobId, tenantId, projectId, status, request, result, errorMessage, attemptCount,
      maxAttempts, claimedAt, createdAt, updatedAt⟩ := job
    obtain ⟨rfl, rfl, rfl, rfl, rfl, rfl, rfl, rfl, rfl⟩ := columns
    simp [toDomain, statusDecoded, requestDecoded, resultDecoded, bind, Except.bind]

/-- Reading back a stored job loses nothing. -/
theorem toDomain_toRow (job : EvaluationJob) : (toRow job).toDomain = .ok job := by
  rw [toDomain_eq_ok_iff]
  refine ⟨statusOf_value job.status, modelValidate_request_dump job.request, ?_,
    rfl, rfl, rfl, rfl, rfl, rfl, rfl, rfl, rfl⟩
  cases stored : job.result with
  | none => simp [toRow, stored, resultOf]
  | some result => simp [toRow, stored, resultOf, modelValidate_result_dump, Except.map]

theorem decodes_toRow (job : EvaluationJob) : (toRow job).Decodes :=
  ⟨job, toDomain_toRow job⟩

end EvaluationJobRow

/-! ### Assignments to a selected row -/

namespace EvaluationJobRow

variable {row : EvaluationJobRow} {job : EvaluationJob}

def claimRow (now : DateTime) (row : EvaluationJobRow) : EvaluationJobRow :=
  { row with
    status := JobStatus.running.value
    attemptCount := row.attemptCount + 1
    claimedAt := some now
    updatedAt := now }

theorem toDomain_claimRow (now : DateTime) (decoded : row.toDomain = .ok job) :
    (claimRow now row).toDomain = .ok
      { job with
        status := .running
        attemptCount := job.attemptCount + 1
        claimedAt := some now
        updatedAt := now } := by
  rw [toDomain_eq_ok_iff] at decoded ⊢
  simp_all [claimRow]

def timeOutRow (now : DateTime) (row : EvaluationJobRow) : EvaluationJobRow :=
  { row with
    status := JobStatus.failed.value
    errorMessage := some "Evaluation worker timed out."
    claimedAt := none
    updatedAt := now }

theorem toDomain_timeOutRow (now : DateTime) (decoded : row.toDomain = .ok job) :
    (timeOutRow now row).toDomain = .ok
      { job with
        status := .failed
        errorMessage := some "Evaluation worker timed out."
        claimedAt := none
        updatedAt := now } := by
  rw [toDomain_eq_ok_iff] at decoded ⊢
  simp_all [timeOutRow]

def requeueRow (now : DateTime) (row : EvaluationJobRow) : EvaluationJobRow :=
  { row with
    status := JobStatus.queued.value
    errorMessage := some "Evaluation worker stopped before completing the job."
    claimedAt := none
    updatedAt := now }

theorem toDomain_requeueRow (now : DateTime) (decoded : row.toDomain = .ok job) :
    (requeueRow now row).toDomain = .ok
      { job with
        status := .queued
        errorMessage := some "Evaluation worker stopped before completing the job."
        claimedAt := none
        updatedAt := now } := by
  rw [toDomain_eq_ok_iff] at decoded ⊢
  simp_all [requeueRow]

def recoverRow (now : DateTime) (row : EvaluationJobRow) : EvaluationJobRow :=
  if row.attemptCount ≥ row.maxAttempts then timeOutRow now row else requeueRow now row

theorem recoverRow_jobId (now : DateTime) (row : EvaluationJobRow) :
    (recoverRow now row).jobId = row.jobId := by
  unfold recoverRow
  split <;> rfl

def moveRow (now : DateTime) (target : JobStatus) (row : EvaluationJobRow) : EvaluationJobRow :=
  { row with status := target.value, updatedAt := now }

theorem toDomain_moveRow (now : DateTime) (target : JobStatus) (decoded : row.toDomain = .ok job) :
    (moveRow now target row).toDomain = .ok { job with status := target, updatedAt := now } := by
  rw [toDomain_eq_ok_iff] at decoded ⊢
  simp_all [moveRow]

def succeedRow (now : DateTime) (result : EvaluationResult) (row : EvaluationJobRow) :
    EvaluationJobRow :=
  { row with
    status := JobStatus.succeeded.value
    resultPayload := some result.modelDump
    claimedAt := none
    updatedAt := now }

theorem toDomain_succeedRow (now : DateTime) (result : EvaluationResult)
    (decoded : row.toDomain = .ok job) :
    (succeedRow now result row).toDomain = .ok
      { job with
        status := .succeeded
        result := some result
        claimedAt := none
        updatedAt := now } := by
  rw [toDomain_eq_ok_iff] at decoded ⊢
  simp_all [succeedRow, resultOf, modelValidate_result_dump, Except.map]

def failRow (now : DateTime) (message : String) (row : EvaluationJobRow) : EvaluationJobRow :=
  { row with
    status := JobStatus.failed.value
    errorMessage := some message
    claimedAt := none
    updatedAt := now }

theorem toDomain_failRow (now : DateTime) (message : String) (decoded : row.toDomain = .ok job) :
    (failRow now message row).toDomain = .ok
      { job with
        status := .failed
        errorMessage := some message
        claimedAt := none
        updatedAt := now } := by
  rw [toDomain_eq_ok_iff] at decoded ⊢
  simp_all [failRow]

theorem Decodes.claimRow (now : DateTime) (sound : row.Decodes) : (claimRow now row).Decodes := by
  obtain ⟨job, decoded⟩ := sound
  exact ⟨_, toDomain_claimRow now decoded⟩

theorem Decodes.recoverRow (now : DateTime) (sound : row.Decodes) :
    (recoverRow now row).Decodes := by
  obtain ⟨job, decoded⟩ := sound
  unfold EvaluationJobRow.recoverRow
  split
  · exact ⟨_, toDomain_timeOutRow now decoded⟩
  · exact ⟨_, toDomain_requeueRow now decoded⟩

theorem Decodes.moveRow (now : DateTime) (target : JobStatus) (sound : row.Decodes) :
    (moveRow now target row).Decodes := by
  obtain ⟨job, decoded⟩ := sound
  exact ⟨_, toDomain_moveRow now target decoded⟩

theorem Decodes.succeedRow (now : DateTime) (result : EvaluationResult) (sound : row.Decodes) :
    (succeedRow now result row).Decodes := by
  obtain ⟨job, decoded⟩ := sound
  exact ⟨_, toDomain_succeedRow now result decoded⟩

theorem Decodes.failRow (now : DateTime) (message : String) (sound : row.Decodes) :
    (failRow now message row).Decodes := by
  obtain ⟨job, decoded⟩ := sound
  exact ⟨_, toDomain_failRow now message decoded⟩

end EvaluationJobRow

/-! ## The repository -/

structure PostgresJobRepository where
  evaluationJobs : Table EvaluationJobRow.jobId EvaluationJobRow.Decodes

namespace PostgresJobRepository

open EvaluationJobRow

def empty : PostgresJobRepository := ⟨Table.empty⟩

def update (repository : PostgresJobRepository) (jobId : UUID)
    (change : EvaluationJobRow → EvaluationJobRow) (keeps : ∀ row, (change row).jobId = row.jobId)
    (safe : ∀ row, row.Decodes → (change row).Decodes) : PostgresJobRepository :=
  ⟨repository.evaluationJobs.modify jobId change keeps safe⟩

def create (repository : PostgresJobRepository) (job : EvaluationJob) :
    Except Exn EvaluationJob × PostgresJobRepository :=
  match repository.evaluationJobs.find? job.jobId with
  | some _ => (.error .integrityError, repository)
  | none => (.ok job, ⟨repository.evaluationJobs.put (toRow job) (decodes_toRow job)⟩)

def get (repository : PostgresJobRepository) (jobId : UUID) : Except Exn EvaluationJob :=
  match repository.evaluationJobs.find? jobId with
  | none => .error .notFoundError
  | some row => row.toDomain

def getForTenant (repository : PostgresJobRepository) (jobId : UUID) (tenantId : String) :
    Except Exn EvaluationJob :=
  let statement := repository.evaluationJobs.rows.filter fun row =>
    row.jobId = jobId ∧ row.tenantId = tenantId
  match statement.head? with
  | none => .error .notFoundError
  | some row => row.toDomain

def listRecent (repository : PostgresJobRepository) (tenantId : String)
    (projectId : Option String) (limit : Nat) : Except Exn (List EvaluationJob) :=
  let rows := repository.evaluationJobs.rows.filter fun row =>
    row.tenantId = tenantId ∧ ∀ project ∈ projectId, row.projectId = project
  ((sortByDescending EvaluationJobRow.createdAt rows).take limit).mapM toDomain

def claimNextQueued (repository : PostgresJobRepository) (now : DateTime) :
    Except Exn (Option EvaluationJob) × PostgresJobRepository :=
  let rows := repository.evaluationJobs.rows.filter fun row =>
    row.status = JobStatus.queued.value ∧ row.attemptCount < row.maxAttempts
  match (sortBy EvaluationJobRow.createdAt rows).head? with
  | none => (.ok none, repository)
  | some row =>
      ((claimRow now row).toDomain.map some,
        repository.update row.jobId (claimRow now) (fun _ => rfl) fun _ => .claimRow now)

/-- The `WHERE` clause of the recovery query; a null `claimed_at` satisfies no comparison. -/
def isStale (cutoff : DateTime) (row : EvaluationJobRow) : Bool :=
  row.status = JobStatus.running.value ∧ row.claimedAt.isSome ∧
    ∃ claimedAt ∈ row.claimedAt, claimedAt < cutoff

def recoverStaleRunning (repository : PostgresJobRepository) (now cutoff : DateTime) :
    Except Exn Nat × PostgresJobRepository :=
  let rows := repository.evaluationJobs.rows.filter (isStale cutoff)
  let (recovered, repository) := rows.foldl
    (fun (recovered, repository) row =>
      (recovered + 1, repository.update row.jobId (recoverRow now) (recoverRow_jobId now)
        fun _ => .recoverRow now))
    (0, repository)
  (.ok recovered, repository)

def validateTransition (currentStatus : String) (allowedFrom : List JobStatus) : Except Exn Unit := do
  let current ← statusOf currentStatus
  if current ∉ allowedFrom then .error .invalidStateTransitionError else .ok ()

/-- The common body of `set_succeeded`, `set_failed` and `_transition`: lock the row,
validate its status, assign its columns, commit and refresh. -/
def changeStatus (repository : PostgresJobRepository) (jobId : UUID) (allowedFrom : List JobStatus)
    (change : EvaluationJobRow → EvaluationJobRow) (keeps : ∀ row, (change row).jobId = row.jobId)
    (safe : ∀ row, row.Decodes → (change row).Decodes) :
    Except Exn EvaluationJob × PostgresJobRepository :=
  match repository.evaluationJobs.find? jobId with
  | none => (.error .notFoundError, repository)
  | some row =>
      match validateTransition row.status allowedFrom with
      | .error error => (.error error, repository)
      | .ok () => ((change row).toDomain, repository.update jobId change keeps safe)

def transition (repository : PostgresJobRepository) (now : DateTime) (jobId : UUID)
    (allowedFrom : List JobStatus) (target : JobStatus) :
    Except Exn EvaluationJob × PostgresJobRepository :=
  repository.changeStatus jobId allowedFrom (moveRow now target) (fun _ => rfl)
    fun _ => .moveRow now target

def setRunning (repository : PostgresJobRepository) (now : DateTime) (jobId : UUID) :
    Except Exn EvaluationJob × PostgresJobRepository :=
  repository.transition now jobId [.queued] .running

def setSucceeded (repository : PostgresJobRepository) (now : DateTime) (jobId : UUID)
    (result : EvaluationResult) : Except Exn EvaluationJob × PostgresJobRepository :=
  repository.changeStatus jobId [.running] (succeedRow now result) (fun _ => rfl)
    fun _ => .succeedRow now result

def setFailed (repository : PostgresJobRepository) (now : DateTime) (jobId : UUID)
    (message : String) : Except Exn EvaluationJob × PostgresJobRepository :=
  repository.changeStatus jobId [.queued, .running] (failRow now message) (fun _ => rfl)
    fun _ => .failRow now message

end PostgresJobRepository

/-- The PostgreSQL repository as a `JobRepository`: any physical order of the rows may be scanned. -/
def postgresRepository : JobRepository where
  State := PostgresJobRepository
  empty := PostgresJobRepository.empty
  create := PostgresJobRepository.create
  get := PostgresJobRepository.get
  getForTenant := PostgresJobRepository.getForTenant
  listRecent := PostgresJobRepository.listRecent
  claimNextQueued := PostgresJobRepository.claimNextQueued
  recoverStaleRunning := PostgresJobRepository.recoverStaleRunning
  setRunning := PostgresJobRepository.setRunning
  setSucceeded := PostgresJobRepository.setSucceeded
  setFailed := PostgresJobRepository.setFailed
  Arranges := fun state layout => state.evaluationJobs.Arranges layout.evaluationJobs
  arranges_refl := fun state => Table.Arranges.refl state.evaluationJobs

end EvaluationService
