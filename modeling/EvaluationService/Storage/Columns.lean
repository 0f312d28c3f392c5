import EvaluationService.Services.System
import EvaluationService.Storage.Postgres

/-!
The column types of `EvaluationJobRow` (`app/storage/postgres.py`). A text of the database
holds every string but those with a U+0000 in them, and a `String(n)` column at most `n`
characters of it. Numbers and times of a new row are within their columns' ranges.
-/

set_option autoImplicit false

namespace EvaluationService

def NulFree (text : String) : Prop :=
  ∀ character ∈ text.toList, character.toNat ≠ 0

instance (text : String) : Decidable (NulFree text) :=
  List.decidableBAll (fun character : Char => character.toNat ≠ 0) text.toList

/-- `String(longest)` -/
def FitsString (longest : Nat) (text : String) : Prop :=
  text.length ≤ longest ∧ NulFree text

instance (longest : Nat) (text : String) : Decidable (FitsString longest text) :=
  inferInstanceAs (Decidable (_ ∧ _))

/-- A nullable `Text` -/
def FitsText (text : Option String) : Prop :=
  ∀ given ∈ text, NulFree given

instance (text : Option String) : Decidable (FitsText text) :=
  inferInstanceAs (Decidable (∀ given ∈ text, NulFree given))

def JsonValue.text? : JsonValue → Option String
  | str value => some value
  | _ => none

/-- `JSONB` -/
def FitsJsonb (payload : JsonObject) : Prop :=
  ∀ field ∈ payload, NulFree field.1 ∧ FitsText field.2.text?

instance (payload : JsonObject) : Decidable (FitsJsonb payload) :=
  inferInstanceAs (Decidable (∀ field ∈ payload, _))

namespace EvaluationJobRow

def Fits (row : EvaluationJobRow) : Prop :=
  FitsString 128 row.tenantId ∧ FitsString 128 row.projectId ∧ FitsString 32 row.status ∧
    FitsJsonb row.requestPayload ∧ (∀ payload ∈ row.resultPayload, FitsJsonb payload) ∧
    FitsText row.errorMessage

instance (row : EvaluationJobRow) : Decidable row.Fits :=
  inferInstanceAs (Decidable (_ ∧ _))

/-- The check of a row that is flushed to the database. -/
def insert (row : EvaluationJobRow) : Except Exn Unit :=
  if row.Fits then .ok () else .error .dataError

end EvaluationJobRow

theorem fitsText_str_iff (text : String) : FitsText (JsonValue.str text).text? ↔ NulFree text := by
  simp [FitsText, JsonValue.text?]

theorem fitsJsonb_modelDump_iff (request : EvaluationRequest) :
    FitsJsonb request.modelDump ↔
      NulFree request.tenantId ∧ NulFree request.projectId ∧ NulFree request.question ∧
        NulFree request.answer ∧ FitsText request.rubric := by
  have tenantKey : NulFree "tenant_id" := by decide
  have projectKey : NulFree "project_id" := by decide
  have questionKey : NulFree "question" := by decide
  have answerKey : NulFree "answer" := by decide
  have rubricKey : NulFree "rubric" := by decide
  have rubricText : (request.rubric.elim JsonValue.null JsonValue.str).text? = request.rubric := by
    cases request.rubric <;> rfl
  unfold FitsJsonb EvaluationRequest.modelDump
  simp only [List.forall_mem_cons, List.not_mem_nil, IsEmpty.forall_iff, implies_true,
    fitsText_str_iff, rubricText, tenantKey, projectKey, questionKey, answerKey, rubricKey, true_and,
    and_true]

/-- A new job fits its columns exactly when no text of its request has a U+0000: the request's
own limits keep the rest. -/
theorem fits_toRow_submission_iff (submission : Submission) :
    (EvaluationJobRow.toRow submission.job).Fits ↔
      NulFree submission.request.tenantId ∧ NulFree submission.request.projectId ∧
        NulFree submission.request.question ∧ NulFree submission.request.answer ∧
        FitsText submission.request.rubric := by
  constructor
  · intro fits
    obtain ⟨_, _, _, payload, _⟩ := fits
    exact (fitsJsonb_modelDump_iff submission.request).mp payload
  · intro nulFree
    have status : FitsString 32 JobStatus.queued.value := by decide
    refine ⟨⟨submission.request.tenantIdLength.2, nulFree.1⟩,
      ⟨submission.request.projectIdLength.2, nulFree.2.1⟩, status,
      (fitsJsonb_modelDump_iff submission.request).mpr nulFree, ?_, ?_⟩
    · intro payload isPayload
      cases isPayload
    · intro message isMessage
      cases isMessage

end EvaluationService
