import EvaluationService.Services.System

/-!
Jobs without their content. Redaction blanks the question and the answer of a request and,
if asked to, the text of its rubric, of which only the presence is left. The service commutes
with it: a redacted call on redacted replies moves to the redacted state and emits the same.
-/

set_option autoImplicit false

namespace EvaluationService

open Foundation

/-! ## Data -/

def EvaluationRequest.redacted (hideRubric : Bool) (request : EvaluationRequest) :
    EvaluationRequest :=
  { request with
    question := "-"
    answer := "-"
    rubric := request.rubric.map fun text => if hideRubric then "" else text
    questionLength := by decide
    answerLength := by decide
    rubricLength := by
      intro given member
      obtain ⟨text, isText, rfl⟩ := Option.map_eq_some_iff.mp member
      split
      · decide
      · exact request.rubricLength text isText }

def EvaluationJob.redacted (hideRubric : Bool) (job : EvaluationJob) : EvaluationJob :=
  { job with request := job.request.redacted hideRubric }

def RepositoryReply.redacted (hideRubric : Bool) : RepositoryReply → RepositoryReply
  | job outcome => .job (outcome.map (·.redacted hideRubric))
  | jobs outcome => .jobs (outcome.map fun listed => listed.map (·.redacted hideRubric))
  | claim outcome => .claim (outcome.map fun claimed => claimed.map (·.redacted hideRubric))
  | count outcome => .count outcome

def Signal.redacted (hideRubric : Bool) : Signal → Signal
  | replied now reply => .replied now (reply.redacted hideRubric)
  | scored outcome => .scored outcome
  | resumed now => .resumed now
  | stop => .stop

def Submission.redacted (hideRubric : Bool) (submission : Submission) : Submission :=
  { submission with request := submission.request.redacted hideRubric }

def ServiceState.redacted (hideRubric : Bool) : ServiceState → ServiceState
  | loading jobId => .loading jobId
  | starting jobId job => .starting jobId (job.redacted hideRubric)
  | scoring jobId job => .scoring jobId (job.redacted hideRubric)
  | succeeding jobId job result => .succeeding jobId (job.redacted hideRubric) result
  | recordingFailure jobId job error => .recordingFailure jobId (job.redacted hideRubric) error
  | finished outcome => .finished outcome

def WorkerPhase.redacted (hideRubric : Bool) : WorkerPhase → WorkerPhase
  | processing task => .processing (task.redacted hideRubric)
  | polling => .polling
  | recovering cutoff => .recovering cutoff
  | claiming => .claiming
  | sleeping => .sleeping
  | left outcome => .left outcome

def Thread.redacted (hideRubric : Bool) : Thread → Thread
  | service state => .service (state.redacted hideRubric)
  | worker state => .worker { state with phase := state.phase.redacted hideRubric }

/-! ## What redaction leaves -/

section

variable {request other : EvaluationRequest}

/-- Requests are alike without their texts if they agree on the tenant, the project and whether
there is a rubric. -/
theorem redacted_eq_iff : request.redacted true = other.redacted true ↔
    request.tenantId = other.tenantId ∧ request.projectId = other.projectId ∧
      request.rubric.isSome = other.rubric.isSome := by
  simp only [EvaluationRequest.redacted, EvaluationRequest.mk.injEq, if_true, true_and]
  refine and_congr_right fun _ => and_congr_right fun _ => ?_
  cases request.rubric <;> cases other.rubric <;> simp

/-- The rubrics too may be compared. -/
theorem redacted_eq_iff_of_rubric : request.redacted false = other.redacted false ↔
    request.tenantId = other.tenantId ∧ request.projectId = other.projectId ∧
      request.rubric = other.rubric := by
  have kept : ∀ rubric : Option String,
      (rubric.map fun text => if false then "" else text) = rubric := by
    intro rubric
    cases rubric <;> rfl
  simp only [EvaluationRequest.redacted, EvaluationRequest.mk.injEq, true_and, kept]

end

/-! ## The service -/

variable (hideRubric : Bool)

theorem scoreEmissions_redacted (request : EvaluationRequest) :
    Evaluator.scoreEmissions (request.redacted hideRubric) = Evaluator.scoreEmissions request := by
  cases present : request.rubric <;>
    simp [Evaluator.scoreEmissions, EvaluationRequest.redacted, present]

theorem afterCreate_redacted (now : DateTime) (job : EvaluationJob)
    (outcome : Except Exn EvaluationJob) :
    (afterCreate now (job.redacted hideRubric) (outcome.map (·.redacted hideRubric))).2 =
      (afterCreate now job outcome).2 := by
  cases outcome <;> rfl

/-- What a call does next, without its content. -/
def redactedMove {State : Type} (redacted : State → State) (after : State × List Emission) :
    State × List Emission :=
  (redacted after.1, after.2)

theorem ServiceState.afterScore_redacted (jobId : UUID) (job : EvaluationJob)
    (outcome : Except Exn EvaluationResult) :
    afterScore jobId (job.redacted hideRubric) outcome =
      redactedMove (ServiceState.redacted hideRubric) (afterScore jobId job outcome) := by
  have emitted := scoreEmissions_redacted hideRubric job.request
  cases outcome with
  | error error => exact congrArg (Prod.mk _) emitted
  | ok result => exact congrArg (Prod.mk _) emitted

theorem ServiceState.next_redacted (state : ServiceState) (signal : Signal) :
    (state.redacted hideRubric).next (signal.redacted hideRubric) =
      (state.next signal).map (redactedMove (ServiceState.redacted hideRubric)) := by
  cases signal with
  | replied now reply =>
      cases reply with
      | job outcome => cases outcome <;> cases state <;> rfl
      | jobs _ | claim _ | count _ => cases state <;> rfl
  | scored outcome =>
      cases state with
      | scoring jobId job => exact congrArg some (afterScore_redacted hideRubric jobId job outcome)
      | loading _ | starting _ _ | succeeding _ _ _ | recordingFailure _ _ _ | finished _ => rfl
  | resumed _ | stop => cases state <;> rfl

theorem WorkerPhase.afterProcess_redacted (task : ServiceState) :
    afterProcess (task.redacted hideRubric) =
      redactedMove (WorkerPhase.redacted hideRubric) (afterProcess task) := by
  cases task with
  | finished outcome => cases outcome <;> rfl
  | loading _ | starting _ _ | scoring _ _ | succeeding _ _ _ | recordingFailure _ _ _ => rfl

theorem WorkerPhase.next_redacted (staleJobSeconds : Int) (stopping : Bool) (phase : WorkerPhase)
    (signal : Signal) :
    (phase.redacted hideRubric).next staleJobSeconds stopping (signal.redacted hideRubric) =
      (phase.next staleJobSeconds stopping signal).map
        (redactedMove (WorkerPhase.redacted hideRubric)) := by
  cases phase with
  | processing task =>
      change ((task.redacted hideRubric).next (signal.redacted hideRubric)).map _ =
        ((task.next signal).map _).map _
      rw [ServiceState.next_redacted, Option.map_map, Option.map_map]
      congr 1
      funext after
      exact congrArg (Prod.map id (after.2 ++ ·)) (afterProcess_redacted hideRubric after.1)
  | polling => cases signal <;> cases stopping <;> rfl
  | recovering cutoff =>
      cases signal with
      | replied now reply =>
          cases reply with
          | count outcome => rcases outcome with error | (_ | recovered) <;> rfl
          | job _ | jobs _ | claim _ => rfl
      | scored _ | resumed _ | stop => rfl
  | claiming =>
      cases signal with
      | replied now reply =>
          cases reply with
          | claim outcome => rcases outcome with error | (_ | job) <;> rfl
          | job _ | jobs _ | count _ => rfl
      | scored _ | resumed _ | stop => rfl
  | sleeping => cases signal <;> rfl
  | left outcome => cases signal <;> rfl

/-- A thread without its content moves as the thread does, and emits the same. -/
theorem Thread.next_redacted (staleJobSeconds : Int) (thread : Thread) (signal : Signal) :
    (thread.redacted hideRubric).next staleJobSeconds (signal.redacted hideRubric) =
      (thread.next staleJobSeconds signal).map (redactedMove (Thread.redacted hideRubric)) := by
  cases thread with
  | service state =>
      change (ServiceState.next _ _).map _ = ((state.next signal).map _).map _
      rw [ServiceState.next_redacted, Option.map_map, Option.map_map]
      rfl
  | worker state =>
      cases signal with
      | stop => rfl
      | replied _ _ | scored _ | resumed _ =>
          have moved := WorkerPhase.next_redacted hideRubric staleJobSeconds state.stopping state.phase
          change ((WorkerPhase.next _ _ _ (Signal.redacted hideRubric _)).map _).map _ =
            (((state.phase.next _ _ _).map _).map _).map _
          rw [moved, Option.map_map, Option.map_map, Option.map_map, Option.map_map]
          rfl

end EvaluationService
