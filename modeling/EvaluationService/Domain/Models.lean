import Mathlib.Data.Int.Order.Basic
import EvaluationService.Core.Errors

/-!
Domain models (`app/domain/models.py`). A validated model is a structure whose
last fields state its field constraints, so only values that pass validation exist.
-/

set_option autoImplicit false

namespace EvaluationService

/-- An instant, in microseconds since the epoch: every clock reading is `datetime.now(UTC)`. -/
abbrev DateTime : Type := Int

abbrev UUID : Type := BitVec 128

inductive JobStatus where
  | queued
  | running
  | succeeded
  | failed
deriving DecidableEq, Repr

namespace JobStatus

def value : JobStatus → String
  | queued => "queued"
  | running => "running"
  | succeeded => "succeeded"
  | failed => "failed"

/-- `JobStatus(text)`, which rejects every other string. -/
def ofValue? (text : String) : Option JobStatus :=
  [queued, running, succeeded, failed].find? fun status => status.value = text

@[simp] theorem ofValue?_value (status : JobStatus) : ofValue? status.value = some status := by
  cases status <;> decide

def Terminal (status : JobStatus) : Prop :=
  status = succeeded ∨ status = failed

instance (status : JobStatus) : Decidable status.Terminal :=
  inferInstanceAs (Decidable (_ ∨ _))

end JobStatus

/-- `Field(min_length=shortest, max_length=longest)` on a string. -/
def LengthBetween (shortest longest : Nat) (text : String) : Prop :=
  shortest ≤ text.length ∧ text.length ≤ longest

instance (shortest longest : Nat) (text : String) : Decidable (LengthBetween shortest longest text) :=
  inferInstanceAs (Decidable (_ ∧ _))

/-- `Field(default=None, max_length=longest)` on an optional string. -/
def OptionalLength (longest : Nat) (text : Option String) : Prop :=
  ∀ given ∈ text, given.length ≤ longest

instance (longest : Nat) (text : Option String) : Decidable (OptionalLength longest text) :=
  match text with
  | none => isTrue (by simp [OptionalLength])
  | some given => decidable_of_iff (given.length ≤ longest) (by simp [OptionalLength])

structure EvaluationRequest where
  tenantId : String
  projectId : String
  question : String
  answer : String
  rubric : Option String := none
  tenantIdLength : LengthBetween 1 128 tenantId
  projectIdLength : LengthBetween 1 128 projectId
  questionLength : LengthBetween 1 10000 question
  answerLength : LengthBetween 1 20000 answer
  rubricLength : OptionalLength 10000 rubric
deriving DecidableEq, Repr

/-- `Field(default=None, min_length=shortest, max_length=longest)` on an optional string. -/
def OptionalLengthBetween (shortest longest : Nat) (text : Option String) : Prop :=
  ∀ given ∈ text, LengthBetween shortest longest given

structure SubmitEvaluationRequest where
  tenantId : Option String := none
  projectId : String
  question : String
  answer : String
  rubric : Option String := none
  tenantIdLength : OptionalLengthBetween 1 128 tenantId
  projectIdLength : LengthBetween 1 128 projectId
  questionLength : LengthBetween 1 10000 question
  answerLength : LengthBetween 1 20000 answer
  rubricLength : OptionalLength 10000 rubric

structure EvaluationResult where
  score : Int
  justification : String
  rubricUsed : Bool
  scoreLower : 0 ≤ score
  scoreUpper : score ≤ 100
deriving DecidableEq, Repr

structure EvaluationJob where
  jobId : UUID
  tenantId : String
  projectId : String
  status : JobStatus
  request : EvaluationRequest
  result : Option EvaluationResult := none
  errorMessage : Option String := none
  attemptCount : Int := 0
  maxAttempts : Int := 3
  claimedAt : Option DateTime := none
  createdAt : DateTime
  updatedAt : DateTime
deriving DecidableEq, Repr

/-! ## Responses -/

structure SubmitEvaluationResponse where
  jobId : UUID
  status : JobStatus
  requestId : String
deriving DecidableEq, Repr

structure EvaluationRequestSummary where
  tenantId : String
  projectId : String
  rubric : Option String
deriving DecidableEq, Repr

structure EvaluationJobSummary where
  jobId : UUID
  tenantId : String
  projectId : String
  status : JobStatus
  result : Option EvaluationResult
  errorMessage : Option String
  attemptCount : Int
  maxAttempts : Int
  claimedAt : Option DateTime
  createdAt : DateTime
  updatedAt : DateTime
deriving DecidableEq, Repr

structure EvaluationJobResponse extends EvaluationJobSummary where
  request : EvaluationRequestSummary
  requestId : String
deriving DecidableEq, Repr

structure EvaluationJobDetailResponse extends EvaluationJobSummary where
  request : EvaluationRequest
  requestId : String
deriving DecidableEq, Repr

structure EvaluationListResponse where
  jobs : List EvaluationJobSummary
  requestId : String
deriving DecidableEq, Repr

/-- Of the fields that the second model validates again only `tenant_id` may differ. -/
def SubmitEvaluationRequest.toEvaluationRequest (payload : SubmitEvaluationRequest)
    (tenantId : String) : Except Exn EvaluationRequest :=
  if valid : LengthBetween 1 128 tenantId then
    .ok {
      tenantId := tenantId
      projectId := payload.projectId
      question := payload.question
      answer := payload.answer
      rubric := payload.rubric
      tenantIdLength := valid
      projectIdLength := payload.projectIdLength
      questionLength := payload.questionLength
      answerLength := payload.answerLength
      rubricLength := payload.rubricLength }
  else .error .valueError

/-- The request is built with the fields of the body exactly when the tenant is valid. -/
theorem SubmitEvaluationRequest.toEvaluationRequest_cases (payload : SubmitEvaluationRequest)
    (tenantId : String) :
    (LengthBetween 1 128 tenantId ∧ ∃ request, payload.toEvaluationRequest tenantId = .ok request ∧
        request.tenantId = tenantId ∧ request.projectId = payload.projectId ∧
        request.question = payload.question ∧ request.answer = payload.answer ∧
        request.rubric = payload.rubric) ∨
      ¬ LengthBetween 1 128 tenantId ∧ payload.toEvaluationRequest tenantId = .error .valueError := by
  unfold toEvaluationRequest
  by_cases valid : LengthBetween 1 128 tenantId
  · rw [dif_pos valid]
    exact .inl ⟨valid, _, rfl, rfl, rfl, rfl, rfl, rfl⟩
  · rw [dif_neg valid]
    exact .inr ⟨valid, rfl⟩

namespace EvaluationJob

def toSummary (job : EvaluationJob) : EvaluationJobSummary where
  jobId := job.jobId
  tenantId := job.tenantId
  projectId := job.projectId
  status := job.status
  result := job.result
  errorMessage := job.errorMessage
  attemptCount := job.attemptCount
  maxAttempts := job.maxAttempts
  claimedAt := job.claimedAt
  createdAt := job.createdAt
  updatedAt := job.updatedAt

/-- The default status response leaves out the question and the answer. -/
def toResponse (job : EvaluationJob) (requestId : String) : EvaluationJobResponse where
  toEvaluationJobSummary := job.toSummary
  request := {
    tenantId := job.request.tenantId
    projectId := job.request.projectId
    rubric := job.request.rubric }
  requestId := requestId

def toDetailResponse (job : EvaluationJob) (requestId : String) : EvaluationJobDetailResponse where
  toEvaluationJobSummary := job.toSummary
  request := job.request
  requestId := requestId

end EvaluationJob

end EvaluationService
