import EvaluationService.Api.Routes
import EvaluationService.Core.Logging
import EvaluationService.Core.Metrics
import EvaluationService.Services.Queue
import EvaluationService.Services.Redaction

/-!
What the service shows of the content of requests. A run of the job service is driven by
what it is given: calls, replies of the repository, outcomes of the evaluator and turns of
the queue. Its audit events, spans, log payloads and metrics are those of the run without
the questions, the answers and the texts of the rubrics; a status response shows the rubric.
-/

set_option autoImplicit false

namespace EvaluationService

open Foundation

/-! ## Runs of the job service -/

inductive ServiceEvent where
  /-- A call of `submit`, with the outcome of its `create`. -/
  | submit (submission : Submission) (outcome : Except Exn EvaluationJob)
  | process (index : Nat) (jobId : UUID)
  | processClaimed (index : Nat) (now : DateTime) (job : EvaluationJob)
  | work (index : Nat)
  /-- A call hears what it waited for. -/
  | hear (index : Nat) (signal : Signal)
  | queue (action : QueueAction)
  /-- The route answers, with the reply of the repository. -/
  | getEvaluation (requestId : String) (draw : Draw) (jobId : UUID) (tenantId : String)
      (reply : RepositoryReply)
  | listEvaluations (requestId : String) (draw : Draw) (tenantId : String)
      (projectId : Option String) (limit : Nat) (reply : RepositoryReply)

inductive ServiceOutput where
  | service (emission : Emission)
  | queue (output : QueueOutput)

structure ServiceRun where
  threads : Nat → Option Thread
  queue : InMemoryJobQueue
  outputs : List ServiceOutput

namespace ServiceRun

def initial : ServiceRun := ⟨fun _ => none, .empty, []⟩

/-- An enqueued job makes the queue report its depth. -/
def emitOne (run : ServiceRun) : Emission → ServiceRun
  | .enqueued jobId =>
      { run with
        queue := (run.queue.enqueue jobId).1
        outputs := run.outputs ++
          .service (.enqueued jobId) :: (run.queue.enqueue jobId).2.map .queue }
  | emission => { run with outputs := run.outputs ++ [.service emission] }

def emit (run : ServiceRun) (emissions : List Emission) : ServiceRun :=
  emissions.foldl emitOne run

def put (run : ServiceRun) (index : Nat) (after : Thread × List Emission) : ServiceRun :=
  { run with threads := Function.update run.threads index (some after.1) }.emit after.2

/-- A call goes on, if it waited for what it was told. -/
def advance (run : ServiceRun) (index : Nat) : Option (Thread × List Emission) → ServiceRun
  | none => run
  | some after => run.put index after

def turn (run : ServiceRun) : Option (InMemoryJobQueue × List QueueOutput) → ServiceRun
  | none => run
  | some (queue, outputs) =>
      { run with queue := queue, outputs := run.outputs ++ outputs.map .queue }

/-- One event; a call that does not wait for what it is told stays where it is. -/
def after (staleJobSeconds : Int) (run : ServiceRun) : ServiceEvent → ServiceRun
  | .submit submission outcome => run.emit (afterCreate submission.now submission.job outcome).2
  | .process index jobId => run.put index (.service (.loading jobId), [])
  | .processClaimed index now job =>
      run.put index ((ServiceState.processClaimed now job).map .service id)
  | .work index =>
      run.put index (.worker .started,
        [WorkerPhase.logRecord .info "evaluation worker started" []])
  | .hear index signal =>
      run.advance index ((run.threads index).bind fun thread => thread.next staleJobSeconds signal)
  | .queue action => run.turn (run.queue.step? action)
  | .getEvaluation _ _ _ _ _ | .listEvaluations _ _ _ _ _ _ => run

end ServiceRun

def serve (staleJobSeconds : Int) (events : List ServiceEvent) : ServiceRun :=
  events.foldl (ServiceRun.after staleJobSeconds) .initial

theorem serve_concat (staleJobSeconds : Int) (events : List ServiceEvent) (event : ServiceEvent) :
    serve staleJobSeconds (events ++ [event]) =
      (serve staleJobSeconds events).after staleJobSeconds event :=
  List.foldl_append

/-- The response of `get_evaluation` or `list_evaluations`. -/
def ServiceEvent.response? : ServiceEvent → Option (Except Exn Body)
  | getEvaluation requestId draw jobId tenantId reply =>
      (Awaited.get jobId tenantId).answer requestId draw reply
  | listEvaluations requestId draw tenantId projectId limit reply =>
      (Awaited.listRecent tenantId projectId limit).answer requestId draw reply
  | _ => none

/-! ## What leaves the process -/

/-- What the surroundings of a run add to its telemetry. -/
structure Surroundings where
  formatException : List Exn → String
  timestamp : Nat → String
  requestId : Nat → String
  duration : Nat → ℚ

structure Exported where
  auditEvents : List AuditEvent
  spans : List (String × Fields)
  payloads : List Fields
  metrics : MetricsRegistry

namespace ServiceOutput

def emission? : ServiceOutput → Option Emission
  | service emission => some emission
  | queue _ => none

def span? : ServiceOutput → Option (String × Fields)
  | service (.span name attributes) => some (name, attributes)
  | _ => none

def record? : ServiceOutput → Option LogRecord
  | service (.log record) => some record
  | queue (.log record) => some record
  | _ => none

/-- What an output does to the metrics; a duration is as measured. -/
def recordIn (registry : MetricsRegistry) (duration : ℚ) : ServiceOutput → MetricsRegistry
  | service (.jobStatus status) => registry.recordJobStatus status.value
  | service .scoringDuration => registry.recordScoringDuration duration
  | service (.recoveredJobs count) => registry.recordWorkerRecoveredJobs count
  | queue (.depth size) => registry.recordQueueDepth size
  | _ => registry

end ServiceOutput

def exported (surroundings : Surroundings) (outputs : List ServiceOutput) : Exported where
  auditEvents := auditEvents (outputs.filterMap ServiceOutput.emission?)
  spans := outputs.filterMap ServiceOutput.span?
  payloads := (outputs.filterMap ServiceOutput.record?).zipIdx.map fun (record, position) =>
    JsonFormatter.format surroundings.formatException (surroundings.timestamp position)
      (surroundings.requestId position) record
  metrics := outputs.zipIdx.foldl (fun registry (output, position) =>
    output.recordIn registry (surroundings.duration position)) .empty

/-! ## Runs of the system -/

namespace ServiceRun

/-- What the service emitted, the outputs of the queue left out. -/
def telemetry (run : ServiceRun) : List Emission := run.outputs.filterMap ServiceOutput.emission?

theorem emissions_queue (outputs : List QueueOutput) :
    (outputs.map ServiceOutput.queue).filterMap ServiceOutput.emission? = [] := by
  rw [List.filterMap_map]
  exact List.filterMap_eq_nil_iff.mpr fun _ _ => rfl

theorem emit_eq (run : ServiceRun) (emissions : List Emission) :
    (run.emit emissions).threads = run.threads ∧
      (run.emit emissions).telemetry = run.telemetry ++ emissions := by
  induction emissions generalizing run with
  | nil => exact ⟨rfl, (List.append_nil _).symm⟩
  | cons emission rest ih =>
      have one : (run.emitOne emission).threads = run.threads ∧
          (run.emitOne emission).telemetry = run.telemetry ++ [emission] := by
        cases emission with
        | enqueued jobId =>
            refine ⟨rfl, ?_⟩
            rw [telemetry, emitOne, List.filterMap_append, List.filterMap_cons, emissions_queue]
            rfl
        | span _ _ | audit _ | log _ | jobStatus _ | scoringDuration | recoveredJobs _ =>
            exact ⟨rfl, List.filterMap_append⟩
      obtain ⟨threads, emitted⟩ := ih (run.emitOne emission)
      refine ⟨threads.trans one.1, emitted.trans ?_⟩
      rw [one.2, List.append_assoc]
      rfl

theorem put_eq (run : ServiceRun) (index : Nat) (after : Thread × List Emission) :
    (run.put index after).threads = Function.update run.threads index (some after.1) ∧
      (run.put index after).telemetry = run.telemetry ++ after.2 :=
  emit_eq _ after.2

end ServiceRun

/-- The threads and the telemetry of the system are those of a run of the job service. -/
theorem SystemReaches.served {repository : JobRepository} {evaluator : EvaluatorBehavior}
    {staleJobSeconds : Int} {trace : SystemTrace repository} {pool : Pool (World repository) Thread}
    (reached : SystemReaches repository evaluator staleJobSeconds trace pool) :
    ∃ events, (serve staleJobSeconds events).threads = pool.threads ∧
      (serve staleJobSeconds events).telemetry = pool.store.telemetry := by
  induction reached with
  | nil => exact ⟨[], rfl, rfl⟩
  | snoc _ taken ih =>
      obtain ⟨events, threads, telemetry⟩ := ih
      have put := ServiceRun.put_eq (serve staleJobSeconds events)
      rw [threads, telemetry] at put
      cases taken with
      | @arrive submission store arrived =>
          obtain ⟨_, outcome, _, _, emitted⟩ := arrived
          obtain ⟨sameThreads, sameTelemetry⟩ := ServiceRun.emit_eq (serve staleJobSeconds events)
            (afterCreate submission.now submission.job outcome).2
          rw [telemetry, ← emitted] at sameTelemetry
          refine ⟨events ++ [.submit submission outcome], ?_⟩
          rw [serve_concat]
          exact ⟨sameThreads.trans threads, sameTelemetry⟩
      | @start index store thread free started =>
          rcases started with ⟨jobId, rfl, rfl⟩ | ⟨rfl, rfl⟩
          · refine ⟨events ++ [.process index jobId], ?_⟩
            rw [serve_concat]
            obtain ⟨sameThreads, sameTelemetry⟩ := put index (.service (.loading jobId), [])
            exact ⟨sameThreads, sameTelemetry.trans (List.append_nil _)⟩
          · refine ⟨events ++ [.work index], ?_⟩
            rw [serve_concat]
            exact put index (.worker .started, _)
      | @act index signal store thread following found acted =>
          obtain ⟨after, moved, rfl, _, _, emitted⟩ := acted
          refine ⟨events ++ [.hear index signal], ?_⟩
          rw [serve_concat, emitted, ServiceRun.after, threads, found, Option.bind_some, moved]
          exact put index after

/-! ## Runs without content -/

def ServiceEvent.redacted (hideRubric : Bool) : ServiceEvent → ServiceEvent
  | submit submission outcome =>
      .submit (submission.redacted hideRubric) (outcome.map (·.redacted hideRubric))
  | process index jobId => .process index jobId
  | processClaimed index now job => .processClaimed index now (job.redacted hideRubric)
  | work index => .work index
  | hear index signal => .hear index (signal.redacted hideRubric)
  | queue action => .queue action
  | getEvaluation requestId draw jobId tenantId reply =>
      .getEvaluation requestId draw jobId tenantId (reply.redacted hideRubric)
  | listEvaluations requestId draw tenantId projectId limit reply =>
      .listEvaluations requestId draw tenantId projectId limit (reply.redacted hideRubric)

/-- The runs are given the same, but for the texts of questions, answers and rubrics. -/
def SameButForTexts (events others : List ServiceEvent) : Prop :=
  events.map (ServiceEvent.redacted true) = others.map (ServiceEvent.redacted true)

/-- The runs are given the same, but for the texts of questions and answers. -/
def SameWithRubrics (events others : List ServiceEvent) : Prop :=
  events.map (ServiceEvent.redacted false) = others.map (ServiceEvent.redacted false)

namespace ServiceRun

variable (hideRubric : Bool)

def redacted (run : ServiceRun) : ServiceRun :=
  { run with threads := fun index => (run.threads index).map (Thread.redacted hideRubric) }

theorem emit_redacted (run : ServiceRun) (emissions : List Emission) :
    (run.redacted hideRubric).emit emissions = (run.emit emissions).redacted hideRubric := by
  induction emissions generalizing run with
  | nil => rfl
  | cons emission rest ih =>
      have one : (run.redacted hideRubric).emitOne emission =
          (run.emitOne emission).redacted hideRubric := by
        cases emission <;> rfl
      rw [emit, List.foldl_cons, one]
      exact ih (run.emitOne emission)

theorem put_redacted (run : ServiceRun) (index : Nat) (after : Thread × List Emission) :
    (run.redacted hideRubric).put index (redactedMove (Thread.redacted hideRubric) after) =
      (run.put index after).redacted hideRubric := by
  have threads : Function.update (run.redacted hideRubric).threads index
      (some (after.1.redacted hideRubric)) =
      fun other => (Function.update run.threads index (some after.1) other).map
        (Thread.redacted hideRubric) := by
    funext other
    rcases eq_or_ne other index with rfl | different
    · rw [Function.update_self, Function.update_self]
      rfl
    · rw [Function.update_of_ne different, Function.update_of_ne different]
      rfl
  rw [put, put, ← emit_redacted]
  exact congrArg (fun threads => emit ⟨threads, run.queue, run.outputs⟩ after.2) threads

theorem advance_redacted (run : ServiceRun) (index : Nat)
    (moved : Option (Thread × List Emission)) :
    (run.redacted hideRubric).advance index
        (moved.map (redactedMove (Thread.redacted hideRubric))) =
      (run.advance index moved).redacted hideRubric := by
  cases moved with
  | none => rfl
  | some after => exact put_redacted hideRubric run index after

/-- A run goes on without its content as it goes on with it. -/
theorem after_redacted (staleJobSeconds : Int) (run : ServiceRun) (event : ServiceEvent) :
    (run.redacted hideRubric).after staleJobSeconds (event.redacted hideRubric) =
      (run.after staleJobSeconds event).redacted hideRubric := by
  cases event with
  | submit submission outcome =>
      exact (congrArg _ (afterCreate_redacted hideRubric submission.now submission.job outcome)).trans
        (emit_redacted hideRubric run _)
  | process index jobId => exact put_redacted hideRubric run index (.service (.loading jobId), [])
  | processClaimed index now job =>
      exact put_redacted hideRubric run index ((ServiceState.processClaimed now job).map .service id)
  | work index => exact put_redacted hideRubric run index (.worker .started, _)
  | hear index signal =>
      have moved : ((run.redacted hideRubric).threads index).bind
          (fun thread => thread.next staleJobSeconds (signal.redacted hideRubric)) =
          ((run.threads index).bind fun thread => thread.next staleJobSeconds signal).map
            (redactedMove (Thread.redacted hideRubric)) := by
        change ((run.threads index).map _).bind _ = _
        cases run.threads index with
        | none => rfl
        | some thread => exact Thread.next_redacted hideRubric staleJobSeconds thread signal
      exact (congrArg _ moved).trans (advance_redacted hideRubric run index _)
  | queue action =>
      change (run.redacted hideRubric).turn (run.queue.step? action) =
        (run.turn (run.queue.step? action)).redacted hideRubric
      cases run.queue.step? action <;> rfl
  | getEvaluation requestId draw jobId tenantId reply => rfl
  | listEvaluations requestId draw tenantId projectId limit reply => rfl

end ServiceRun

theorem serve_redacted (hideRubric : Bool) (staleJobSeconds : Int) (events : List ServiceEvent) :
    serve staleJobSeconds (events.map (ServiceEvent.redacted hideRubric)) =
      (serve staleJobSeconds events).redacted hideRubric := by
  induction events using List.reverseRecOn with
  | nil => rfl
  | append_singleton earlier event ih =>
      rw [List.map_append, List.map_singleton, serve_concat, ih, serve_concat]
      exact ServiceRun.after_redacted hideRubric staleJobSeconds _ event

/-- The outputs of a run are those of the run without its content. -/
theorem outputs_eq_of_same {staleJobSeconds : Int} {events others : List ServiceEvent}
    (same : SameButForTexts events others) :
    (serve staleJobSeconds events).outputs = (serve staleJobSeconds others).outputs := by
  have runs := congrArg (serve staleJobSeconds) same
  rw [serve_redacted, serve_redacted] at runs
  have outputs := congrArg ServiceRun.outputs runs
  exact outputs

/-! ## Status responses -/

theorem EvaluationJob.toSummary_redacted (hideRubric : Bool) (job : EvaluationJob) :
    (job.redacted hideRubric).toSummary = job.toSummary := rfl

theorem EvaluationJob.toResponse_redacted (job : EvaluationJob) (requestId : String) :
    (job.redacted false).toResponse requestId = job.toResponse requestId := by
  have kept : (job.request.redacted false).rubric = job.request.rubric := by
    change job.request.rubric.map _ = _
    cases job.request.rubric <;> rfl
  unfold toResponse
  rw [toSummary_redacted]
  exact congrArg (fun rubric => EvaluationJobResponse.mk job.toSummary
    ⟨job.request.tenantId, job.request.projectId, rubric⟩ requestId) kept

/-- A status response is the same without the question and the answer. -/
theorem ServiceEvent.response?_redacted (event : ServiceEvent) :
    (event.redacted false).response? = event.response? := by
  cases event with
  | getEvaluation requestId draw jobId tenantId reply =>
      cases reply with
      | job outcome =>
          cases outcome with
          | error error => rfl
          | ok job =>
              have response := job.toResponse_redacted requestId
              exact congrArg (fun response => some (Except.ok (Body.found response))) response
      | jobs _ | claim _ | count _ => rfl
  | listEvaluations requestId draw tenantId projectId limit reply =>
      cases reply with
      | jobs outcome =>
          cases outcome with
          | error error => rfl
          | ok jobs =>
              have summaries : (jobs.map (·.redacted false)).map EvaluationJob.toSummary =
                  jobs.map EvaluationJob.toSummary := List.map_map
              exact congrArg (fun summaries => some (Except.ok (Body.listed ⟨summaries, requestId⟩)))
                summaries
      | job _ | claim _ | count _ => rfl
  | submit _ _ | process _ _ | processClaimed _ _ _ | work _ | hear _ _ | queue _ => rfl

theorem responses_eq_of_same {events others : List ServiceEvent}
    (same : SameWithRubrics events others) :
    events.filterMap ServiceEvent.response? = others.filterMap ServiceEvent.response? := by
  have responses := congrArg (List.filterMap ServiceEvent.response?) same
  rw [List.filterMap_map, List.filterMap_map] at responses
  have redacted : ServiceEvent.response? ∘ ServiceEvent.redacted false = ServiceEvent.response? :=
    funext ServiceEvent.response?_redacted
  rwa [redacted] at responses

/-- Telemetry does not depend on the texts, and status responses on the rubrics only. -/
theorem content_not_shown (staleJobSeconds : Int) (surroundings : Surroundings)
    (events others : List ServiceEvent) (same : SameButForTexts events others) :
    exported surroundings (serve staleJobSeconds events).outputs =
        exported surroundings (serve staleJobSeconds others).outputs ∧
      (SameWithRubrics events others →
        events.filterMap ServiceEvent.response? = others.filterMap ServiceEvent.response?) := by
  constructor
  · rw [outputs_eq_of_same same]
  · exact responses_eq_of_same

/-- A job that fails while its failure cannot be recorded, and is read afterwards. -/
def failingRun (request : EvaluationRequest) : List ServiceEvent :=
  let submission : Submission := ⟨request, 7, 0, 0, 1⟩
  let job := submission.job
  [.submit submission (.ok job), .process 0 7, .hear 0 (.replied 2 (.job (.ok job))),
    .hear 0 (.replied 3 (.job (.ok (job.started 3)))), .hear 0 (.scored (.error .timeoutError)),
    .hear 0 (.replied 4 (.job (.error .dataError))),
    .getEvaluation "request-1" ⟨0, 0, 0, 5⟩ 7 request.tenantId (.job (.ok (job.started 3)))]

theorem content_not_shown_failing :
    let other : EvaluationRequest := { demoRequest with
      question := "What is a type?"
      answer := "A set of values."
      questionLength := by decide
      answerLength := by decide }
    let surroundings : Surroundings := ⟨fun _ => "Traceback", fun _ => "now", fun _ => "request-1",
      fun _ => 1⟩
    (exported surroundings (serve 0 (failingRun demoRequest)).outputs).payloads.length = 4 ∧
      exported surroundings (serve 0 (failingRun demoRequest)).outputs =
        exported surroundings (serve 0 (failingRun other)).outputs ∧
      (failingRun demoRequest).filterMap ServiceEvent.response? =
        (failingRun other).filterMap ServiceEvent.response? := by
  intro other surroundings
  have same : SameButForTexts (failingRun demoRequest) (failingRun other) := rfl
  obtain ⟨telemetry, responses⟩ := content_not_shown 0 surroundings _ _ same
  exact ⟨rfl, telemetry, responses rfl⟩

end EvaluationService
