import Mathlib.Data.Finset.Basic
import Mathlib.Data.Finset.Card
import Mathlib.Tactic.NormNum
import EvaluationService.Domain.Models
import EvaluationService.Foundation.Text

/-!
Deterministic mock scoring (`app/domain/evaluation.py`). `str.lower` is a parameter:
what is proved about a score holds for every lowercasing of words.
-/

set_option autoImplicit false

namespace EvaluationService

open Foundation

def stopWords : Finset String :=
  {"the", "a", "an", "and", "or", "of", "to", "in", "is", "it", "for", "on", "with"}

def punctuation : String := ".,!?;:()[]\x7b\x7d\"'"

def significantTerms (lower : String → String) (text : String) : Finset String :=
  let terms := ((Text.split text).filter (3 < ·.length)).map fun token =>
    Text.stripChars punctuation (lower token)
  terms.toFinset \ stopWords

def hasAnyOverlap (lower : String → String) (left right : String) : Bool :=
  significantTerms lower left ∩ significantTerms lower right ≠ ∅

def mockJustification : String :=
  "Mock evaluation score based on answer length, question-term overlap, " ++
    "basic clarity signals, and optional rubric overlap."

/-- An absent or empty rubric is falsy. -/
def rubricBonus (lower : String → String) (rubric : Option String) (answer : String) : Nat :=
  match rubric with
  | none => 0
  | some text => if text ≠ "" ∧ hasAnyOverlap lower text answer then 10 else 0

def scoreMockResponse (lower : String → String) (request : EvaluationRequest) : EvaluationResult :=
  let answer := Text.strip request.answer
  let questionTerms := significantTerms lower request.question
  let answerTerms := significantTerms lower answer
  let lengthScore := min (answer.length / 8) 40
  let overlapScore := min ((questionTerms ∩ answerTerms).card * 10) 40
  let clarityBonus := if '.' ∈ answer.toList ∨ '\n' ∈ answer.toList then 10 else 0
  let total := lengthScore + overlapScore + rubricBonus lower request.rubric answer + clarityBonus
  { score := max 0 (min 100 (total : Int))
    justification := mockJustification
    rubricUsed := request.rubric.isSome
    scoreLower := le_max_left 0 _
    scoreUpper := max_le (by norm_num) (min_le_left 100 _) }

end EvaluationService
