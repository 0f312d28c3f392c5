import EvaluationService.Core.Auth
import EvaluationService.Domain.Evaluation

/-!
What a mock score is made of, and that text around an answer never lowers it. Every
component reads the answer through its tokens or through its characters, and a longer
answer has the tokens and the characters of the part it surrounds.
-/

set_option autoImplicit false

namespace EvaluationService

open Foundation

/-! ## Components -/

def lengthScore (answer : String) : Nat :=
  min (answer.length / 8) 40

def overlapScore (lower : String → String) (question answer : String) : Nat :=
  min ((significantTerms lower question ∩ significantTerms lower answer).card * 10) 40

def clarityBonus (answer : String) : Nat :=
  if '.' ∈ answer.toList ∨ '\n' ∈ answer.toList then 10 else 0

/-- The sum of the components for an answer that is stripped already. -/
def totalScore (lower : String → String) (request : EvaluationRequest) (answer : String) : Nat :=
  lengthScore answer + overlapScore lower request.question answer +
    rubricBonus lower request.rubric answer + clarityBonus answer

theorem scoreMockResponse_score (lower : String → String) (request : EvaluationRequest) :
    (scoreMockResponse lower request).score =
      max 0 (min 100 (totalScore lower request (Text.strip request.answer) : Int)) := rfl

theorem mem_significantTerms {lower : String → String} {text term : String} :
    term ∈ significantTerms lower text ↔
      (∃ token ∈ Text.split text, 3 < token.length ∧
        Text.stripChars punctuation (lower token) = term) ∧ term ∉ stopWords := by
  rw [significantTerms, Finset.mem_sdiff, List.mem_toFinset, List.mem_map]
  constructor
  · intro given
    obtain ⟨⟨token, member, isTerm⟩, other⟩ := given
    obtain ⟨isToken, long⟩ := List.mem_filter.mp member
    exact ⟨⟨token, isToken, of_decide_eq_true long, isTerm⟩, other⟩
  · intro given
    obtain ⟨⟨token, isToken, long, isTerm⟩, other⟩ := given
    exact ⟨⟨token, List.mem_filter.mpr ⟨isToken, decide_eq_true long⟩, isTerm⟩, other⟩

theorem hasAnyOverlap_iff {lower : String → String} {left right : String} :
    hasAnyOverlap lower left right = true ↔
      ∃ term, term ∈ significantTerms lower left ∧ term ∈ significantTerms lower right := by
  rw [hasAnyOverlap, decide_eq_true_iff, ← Finset.nonempty_iff_ne_empty]
  constructor
  · intro given
    obtain ⟨term, member⟩ := given
    exact ⟨term, Finset.mem_inter.mp member⟩
  · intro given
    obtain ⟨term, member⟩ := given
    exact ⟨term, Finset.mem_inter.mpr member⟩

/-! ## A longer answer -/

/-- The longer text has every token and, in one piece, the characters of the text. -/
structure PartOf (text longer : String) : Prop where
  characters : text.toList <:+: longer.toList
  tokens : ∀ token ∈ Text.split text, token ∈ Text.split longer

section Longer

variable {lower : String → String} {text longer : String}

theorem significantTerms_mono (part : PartOf text longer) :
    significantTerms lower text ⊆ significantTerms lower longer := by
  intro term member
  obtain ⟨⟨token, isToken, long, isTerm⟩, other⟩ := mem_significantTerms.mp member
  exact mem_significantTerms.mpr ⟨⟨token, part.tokens token isToken, long, isTerm⟩, other⟩

theorem lengthScore_mono (part : PartOf text longer) : lengthScore text ≤ lengthScore longer := by
  have shorter : text.length ≤ longer.length := by
    rw [← String.length_toList, ← String.length_toList]
    exact part.characters.length_le
  exact min_le_min_right 40 (Nat.div_le_div_right shorter)

theorem overlapScore_mono (question : String) (part : PartOf text longer) :
    overlapScore lower question text ≤ overlapScore lower question longer := by
  apply min_le_min_right
  apply Nat.mul_le_mul_right
  apply Finset.card_le_card
  exact Finset.inter_subset_inter_left (significantTerms_mono part)

theorem hasAnyOverlap_mono {left : String} (part : PartOf text longer)
    (overlap : hasAnyOverlap lower left text = true) : hasAnyOverlap lower left longer = true := by
  obtain ⟨term, inLeft, inText⟩ := hasAnyOverlap_iff.mp overlap
  exact hasAnyOverlap_iff.mpr ⟨term, inLeft, significantTerms_mono part inText⟩

theorem rubricBonus_mono (rubric : Option String) (part : PartOf text longer) :
    rubricBonus lower rubric text ≤ rubricBonus lower rubric longer := by
  cases rubric with
  | none => exact le_rfl
  | some given =>
      rw [rubricBonus, rubricBonus]
      by_cases earned : given ≠ "" ∧ hasAnyOverlap lower given text = true
      · rw [if_pos earned, if_pos ⟨earned.1, hasAnyOverlap_mono part earned.2⟩]
      · rw [if_neg earned]
        exact Nat.zero_le _

theorem clarityBonus_mono (part : PartOf text longer) : clarityBonus text ≤ clarityBonus longer := by
  rw [clarityBonus, clarityBonus]
  by_cases clear : '.' ∈ text.toList ∨ '\n' ∈ text.toList
  · have inLonger := part.characters.subset
    rw [if_pos clear, if_pos (clear.imp (inLonger ·) (inLonger ·))]
  · rw [if_neg clear]
    exact Nat.zero_le _

theorem totalScore_mono (request : EvaluationRequest) (part : PartOf text longer) :
    totalScore lower request text ≤ totalScore lower request longer := by
  apply Nat.add_le_add _ (clarityBonus_mono part)
  apply Nat.add_le_add _ (rubricBonus_mono request.rubric part)
  exact Nat.add_le_add (lengthScore_mono part) (overlapScore_mono request.question part)

end Longer

/-! ## Text around an answer -/

/-- `before + opening + text + closing + after` -/
def surrounded (before : String) (opening : Char) (text : String) (closing : Char)
    (after : String) : String :=
  before ++ String.singleton opening ++ text ++ String.singleton closing ++ after

/-- The request with another answer, which has to fit the field of the model as well. -/
def EvaluationRequest.withAnswer (request : EvaluationRequest) (answer : String)
    (fits : LengthBetween 1 20000 answer) : EvaluationRequest :=
  { request with answer := answer, answerLength := fits }

section Surrounded

variable {opening closing : Char}

theorem split_surrounded (before text after : String) (opens : Text.isSpace opening = true)
    (closes : Text.isSpace closing = true) :
    Text.split (surrounded before opening text closing after) =
      Text.split before ++ (Text.split text ++ Text.split after) := by
  have characters : surrounded before opening text closing after =
      String.ofList (before.toList ++ opening :: (text.toList ++ closing :: after.toList)) := by
    rw [← String.toList_inj]
    simp [surrounded]
  rw [characters, Text.split_append_space _ _ opens, Text.split_append_space _ _ closes]
  simp only [String.ofList_toList]

theorem partOf_surrounded (before text after : String) (opens : Text.isSpace opening = true)
    (closes : Text.isSpace closing = true) :
    PartOf (Text.strip text) (Text.strip (surrounded before opening text closing after)) := by
  constructor
  · have characters : (surrounded before opening text closing after).toList =
        (before.toList ++ [opening]) ++ text.toList ++ (closing :: after.toList) := by
      simp [surrounded]
    rw [Text.strip, Text.strip, Text.stripWhere, Text.stripWhere, String.toList_ofList,
      String.toList_ofList, characters]
    exact Text.strip_infix _ _ _
  · intro token member
    rw [Text.split_strip] at member
    rw [Text.split_strip, split_surrounded before text after opens closes]
    exact List.mem_append_right _ (List.mem_append_left _ member)

/-- Text that is set off by white space, before and after an answer, never lowers its score. -/
theorem score_le_score_surrounded (lower : String → String) (request : EvaluationRequest)
    (before after : String) (opens : Text.isSpace opening = true)
    (closes : Text.isSpace closing = true)
    (fits : LengthBetween 1 20000 (surrounded before opening request.answer closing after)) :
    (scoreMockResponse lower request).score ≤
      (scoreMockResponse lower (request.withAnswer _ fits)).score := by
  rw [scoreMockResponse_score, scoreMockResponse_score]
  apply max_le_max_left
  apply min_le_min_left
  exact Int.ofNat_le.mpr
    (totalScore_mono request (partOf_surrounded before request.answer after opens closes))

def terseRequest : EvaluationRequest where
  tenantId := "tenant-b"
  projectId := "builds"
  question := "What broke the build?"
  answer := "\ttests"
  rubric := some "Name the cause."
  tenantIdLength := by decide
  projectIdLength := by decide
  questionLength := by decide
  answerLength := by decide
  rubricLength := by decide

theorem score_le_score_surrounded_terse :
    (scoreMockResponse lowerAscii terseRequest).score ≤
      (scoreMockResponse lowerAscii (terseRequest.withAnswer
        (surrounded "The" ' ' "\ttests" '\n' "broke the build.") (by decide))).score :=
  score_le_score_surrounded lowerAscii terseRequest "The" "broke the build." (by decide) (by decide)
    (by decide)

end Surrounded

end EvaluationService
