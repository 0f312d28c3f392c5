import EvaluationService.Core.Resilience
import EvaluationService.Core.Telemetry
import EvaluationService.Domain.Evaluation

/-!
The evaluator (`app/services/evaluator.py`). What the service may get from an evaluator
is a relation between a request and an outcome; the mock evaluator scores each request
within a deadline and tries twice.
-/

set_option autoImplicit false

namespace EvaluationService

abbrev EvaluatorBehavior : Type := EvaluationRequest → Except Exn EvaluationResult → Prop

namespace Evaluator

def arbitrary : EvaluatorBehavior := fun _ _ => True

/-- `Evaluator.score` with the mock operation: `expired` tells which calls of it run into
the deadline. -/
def score (lower : String → String) (expired : Nat → Bool) (request : EvaluationRequest) :
    Except Exn EvaluationResult :=
  (retryAsync (fun call => withTimeout (expired call) (.ok (scoreMockResponse lower request))) 2
    defaultInitialDelay).outcome

def mock (lower : String → String) : EvaluatorBehavior :=
  fun request outcome => ∃ expired, outcome = score lower expired request

def scoreEmissions (request : EvaluationRequest) : List Emission :=
  [.span "evaluation.scoring" [("tenant_id", .text request.tenantId),
      ("project_id", .text request.projectId), ("rubric_present", .flag request.rubric.isSome)],
    .scoringDuration]

theorem eq_of_mock_ok {lower : String → String} {request : EvaluationRequest}
    {result : EvaluationResult} (scored : mock lower request (.ok result)) :
    result = scoreMockResponse lower request := by
  obtain ⟨expired, outcome⟩ := scored
  obtain ⟨call, called⟩ := exists_ok_of_retryFrom outcome.symm
  unfold withTimeout at called
  split at called
  · cases called
  · exact (Except.ok.inj called).symm

end Evaluator

end EvaluationService
