import EvaluationService.Api.Confidentiality
import EvaluationService.Core.LogStream

/-!
The log of a run. What a run of the job service logs comes from the texts of requests, from
request identifiers that a client may choose and from the messages of exceptions; the log still
has one line for each record, and decoding the lines gives the payloads back.
-/

set_option autoImplicit false

namespace EvaluationService

open Foundation

def Emission.LogsText : Emission → Prop
  | .log record => record.KeepsText
  | _ => True

def QueueOutput.LogsText : QueueOutput → Prop
  | .log record => record.KeepsText
  | _ => True

def ServiceOutput.LogsText : ServiceOutput → Prop
  | .service emission => emission.LogsText
  | .queue output => output.LogsText

/-! ## What one step logs -/

/-- The identifier of a job is the only field of these records that is kept. -/
theorem keepsText_of_jobId {logger message : String} {level : LogLevel} {excInfo : List Exn}
    {jobId : UUID} {others : Fields}
    (notKept : ∀ field ∈ others, field.1 ∉ JsonFormatter.keptFields) :
    (LogRecord.mk logger level message excInfo (("job_id", .uuid jobId) :: others)).KeepsText := by
  intro field member kept
  rcases List.mem_cons.mp member with rfl | other
  · trivial
  · exact absurd kept (notKept field other)

theorem logsText_auditRecord {now : DateTime} {eventType tenantId projectId : String} {jobId : UUID}
    {metadata : Fields} :
    ∀ emission ∈ auditRecord now eventType tenantId projectId jobId metadata, emission.LogsText := by
  intro emission member
  simp only [auditRecord, List.mem_cons, List.not_mem_nil, or_false] at member
  rcases member with rfl | rfl
  · trivial
  · intro field isField _
    simp only [List.mem_cons, List.not_mem_nil, or_false] at isField
    rcases isField with rfl | rfl | rfl | rfl <;> trivial

theorem logsText_afterCreate {now : DateTime} {job : EvaluationJob}
    {outcome : Except Exn EvaluationJob} :
    ∀ emission ∈ (afterCreate now job outcome).2, emission.LogsText := by
  intro emission member
  cases outcome with
  | error error =>
      obtain rfl := List.mem_singleton.mp member
      trivial
  | ok created =>
      simp only [afterCreate, List.mem_append, List.mem_cons, List.not_mem_nil, or_false] at member
      rcases member with ((rfl | rfl) | audited) | rfl
      · trivial
      · trivial
      · exact logsText_auditRecord emission audited
      · trivial

namespace ServiceState

theorem logsText_raised {jobId : UUID} {original : Exn} {emitted : List Emission}
    (logsText : ∀ emission ∈ emitted, emission.LogsText) :
    ∀ emission ∈ (raised jobId original emitted).2, emission.LogsText := by
  intro emission member
  simp only [raised, List.mem_append, List.mem_cons, List.not_mem_nil, or_false] at member
  rcases member with earlier | rfl
  · exact logsText emission earlier
  · exact keepsText_of_jobId (by simp)

theorem logsText_processClaimed {now : DateTime} {job : EvaluationJob} :
    ∀ emission ∈ (processClaimed now job).2, emission.LogsText := by
  intro emission member
  simp only [processClaimed, List.mem_cons] at member
  rcases member with rfl | audited
  · trivial
  · exact logsText_auditRecord emission audited

theorem Move.logsText {state : ServiceState} {signal : Signal}
    {after : ServiceState × List Emission} (move : Move state signal after) :
    ∀ emission ∈ after.2, emission.LogsText := by
  intro emission member
  cases move with
  | @loaded jobId now outcome =>
      cases outcome with
      | error error => cases member
      | ok job =>
          simp only [afterGet, List.mem_cons, List.not_mem_nil, or_false] at member
          subst member
          trivial
  | @started jobId job now outcome =>
      cases outcome with
      | error error => cases member
      | ok updated => exact logsText_auditRecord emission member
  | @scored jobId job outcome =>
      have span : ∀ emission ∈ Evaluator.scoreEmissions job.request, emission.LogsText := by
        intro emission member
        simp only [Evaluator.scoreEmissions, List.mem_cons, List.not_mem_nil, or_false] at member
        rcases member with rfl | rfl <;> trivial
      cases outcome <;> exact span emission member
  | @succeeded jobId job result now outcome =>
      cases outcome with
      | error error => cases member
      | ok updated =>
          simp only [afterSetSucceeded, List.mem_append, List.mem_cons, List.not_mem_nil,
            or_false] at member
          rcases member with audited | rfl | rfl
          · exact logsText_auditRecord emission audited
          · intro field isField _
            simp only [List.mem_cons, List.not_mem_nil, or_false] at isField
            rcases isField with rfl | rfl | rfl <;> trivial
          · trivial
  | @failed jobId job error now outcome =>
      cases outcome with
      | error unrecorded =>
          refine logsText_raised (fun logged isLogged => ?_) emission member
          obtain rfl := List.mem_singleton.mp isLogged
          exact keepsText_of_jobId (by simp [JsonFormatter.keptFields])
      | ok updated =>
          refine logsText_raised (fun logged isLogged => ?_) emission member
          rcases List.mem_append.mp isLogged with audited | counted
          · exact logsText_auditRecord logged audited
          · obtain rfl := List.mem_singleton.mp counted
            trivial

end ServiceState

namespace WorkerPhase

theorem logsText_logRecord {level : LogLevel} {message : String} {extra : Fields}
    (notKept : ∀ field ∈ extra, field.1 ∉ JsonFormatter.keptFields) :
    (logRecord level message extra).LogsText :=
  fun field member kept => absurd kept (notKept field member)

theorem logsText_leave {outcome : Except Exn Unit} :
    ∀ emission ∈ (leave outcome).2, emission.LogsText := by
  intro emission member
  obtain rfl := List.mem_singleton.mp member
  exact logsText_logRecord (by simp)

theorem logsText_afterProcess (task : ServiceState) :
    ∀ emission ∈ (afterProcess task).2, emission.LogsText := by
  intro emission member
  unfold afterProcess at member
  split at member
  · cases member
  · exact logsText_leave emission member
  · cases member

theorem Move.logsText {staleJobSeconds : Int} {stopping : Bool} {phase : WorkerPhase}
    {signal : Signal} {after : WorkerPhase × List Emission}
    (move : Move staleJobSeconds stopping phase signal after) :
    ∀ emission ∈ after.2, emission.LogsText := by
  intro emission member
  cases move with
  | stopped _ => exact logsText_leave emission member
  | polled _ => cases member
  | @recovered cutoff now outcome =>
      unfold afterRecover at member
      split at member
      · exact logsText_leave emission member
      · cases member
      · simp only [List.mem_cons, List.not_mem_nil, or_false] at member
        rcases member with rfl | rfl
        · trivial
        · refine logsText_logRecord fun field isField => ?_
          rw [List.mem_singleton.mp isField]
          simp [JsonFormatter.keptFields]
  | @claimed now outcome =>
      unfold afterClaim at member
      split at member
      · exact logsText_leave emission member
      · cases member
      · exact ServiceState.logsText_processClaimed emission member
  | slept => cases member
  | @processed task signal after moved =>
      rcases List.mem_append.mp member with worked | ended
      · exact moved.logsText emission worked
      · exact logsText_afterProcess _ emission ended

end WorkerPhase

theorem Thread.logsText {staleJobSeconds : Int} {thread : Thread} {signal : Signal}
    {after : Thread × List Emission} (moved : thread.next staleJobSeconds signal = some after) :
    ∀ emission ∈ after.2, emission.LogsText := by
  cases Thread.move_of_next moved with
  | service move => exact move.logsText
  | loop move => exact move.logsText
  | stop => simp

/-! ## What a run logs -/

theorem logsText_failureLog {jobId : UUID} {outcome : Except Exn Unit} :
    ∀ output ∈ InMemoryJobQueue.failureLog jobId outcome, output.LogsText := by
  intro output member
  cases outcome with
  | ok _ => cases member
  | error error =>
      obtain rfl := List.mem_singleton.mp member
      exact keepsText_of_jobId (by simp)

theorem ConsumerTurn.logsText {queue next : InMemoryJobQueue} {index : Nat}
    {outputs : List QueueOutput} (turn : ConsumerTurn queue index next outputs) :
    ∀ output ∈ outputs, output.LogsText := by
  intro output member
  cases turn with
  | stopped _ | waits _ => cases member
  | woken _ =>
      obtain rfl := List.mem_singleton.mp member
      trivial
  | takes _ =>
      obtain rfl := List.mem_singleton.mp member
      trivial

theorem QueueMove.logsText {queue next : InMemoryJobQueue} {action : QueueAction}
    {outputs : List QueueOutput} (move : QueueMove queue action next outputs) :
    ∀ output ∈ outputs, output.LogsText := by
  intro output member
  cases move with
  | enqueued =>
      obtain rfl := List.mem_singleton.mp member
      trivial
  | started _ | running _ | stopped _ | stoppedUnstarted _ => cases member
  | resumed _ turn => exact turn.logsText output member
  | handled _ turn =>
      rcases List.mem_append.mp member with front | after
      · rcases List.mem_append.mp front with failed | depth
        · exact logsText_failureLog output failed
        · obtain rfl := List.mem_singleton.mp depth
          trivial
      · exact turn.logsText output after

namespace ServiceRun

variable {run : ServiceRun}

def LogsText (run : ServiceRun) : Prop := ∀ output ∈ run.outputs, output.LogsText

theorem LogsText.emitOne (logsText : run.LogsText) {emission : Emission}
    (emitted : emission.LogsText) : (run.emitOne emission).LogsText := by
  intro output member
  cases emission with
  | enqueued jobId =>
      simp only [ServiceRun.emitOne, InMemoryJobQueue.enqueue, List.map_cons, List.map_nil,
        List.mem_append, List.mem_cons, List.not_mem_nil, or_false] at member
      rcases member with earlier | rfl | rfl
      · exact logsText output earlier
      · trivial
      · trivial
  | span _ _ | audit _ | log _ | jobStatus _ | scoringDuration | recoveredJobs _ =>
      rcases List.mem_append.mp member with earlier | new
      · exact logsText output earlier
      · obtain rfl := List.mem_singleton.mp new
        exact emitted

theorem LogsText.emit (logsText : run.LogsText) {emissions : List Emission}
    (emitted : ∀ emission ∈ emissions, emission.LogsText) : (run.emit emissions).LogsText := by
  induction emissions generalizing run with
  | nil => exact logsText
  | cons emission others ih =>
      exact ih (logsText.emitOne (emitted emission List.mem_cons_self))
        fun other member => emitted other (List.mem_cons_of_mem _ member)

theorem LogsText.put (logsText : run.LogsText) {index : Nat} {after : Thread × List Emission}
    (emitted : ∀ emission ∈ after.2, emission.LogsText) : (run.put index after).LogsText := by
  have same : LogsText { run with threads := Function.update run.threads index (some after.1) } :=
    logsText
  exact same.emit emitted

/-- Each event logs texts only, whatever it brings. -/
theorem LogsText.after (logsText : run.LogsText) (staleJobSeconds : Int) (event : ServiceEvent) :
    (run.after staleJobSeconds event).LogsText := by
  cases event with
  | submit submission outcome => exact logsText.emit logsText_afterCreate
  | process index jobId => exact logsText.put (by simp)
  | processClaimed index now job => exact logsText.put ServiceState.logsText_processClaimed
  | work index =>
      refine logsText.put fun emission member => ?_
      obtain rfl := List.mem_singleton.mp member
      exact WorkerPhase.logsText_logRecord (by simp)
  | hear index signal =>
      rw [ServiceRun.after]
      cases moved : (run.threads index).bind fun thread => thread.next staleJobSeconds signal with
      | none => exact logsText
      | some after =>
          obtain ⟨thread, -, advanced⟩ := Option.bind_eq_some_iff.mp moved
          exact logsText.put (Thread.logsText advanced)
  | queue action =>
      rw [ServiceRun.after]
      cases turned : run.queue.step? action with
      | none => exact logsText
      | some reached =>
          obtain ⟨queue, outputs⟩ := reached
          have move : QueueMove run.queue action queue outputs :=
            @QueueStep.move _ _ ⟨action, outputs⟩ turned
          intro output member
          rcases List.mem_append.mp member with earlier | new
          · exact logsText output earlier
          · obtain ⟨shown, isShown, rfl⟩ := List.mem_map.mp new
            exact move.logsText shown isShown
  | getEvaluation _ _ _ _ _ => exact logsText
  | listEvaluations _ _ _ _ _ _ => exact logsText

end ServiceRun

theorem logsText_serve (staleJobSeconds : Int) (events : List ServiceEvent) :
    (serve staleJobSeconds events).LogsText := by
  induction events using List.reverseRecOn with
  | nil =>
      intro output member
      cases member
  | append_singleton earlier event ih =>
      rw [serve_concat]
      exact ih.after staleJobSeconds event

/-- The payloads of the records that a handler with this threshold lets through. -/
def logged (surroundings : Surroundings) (threshold : Nat) (outputs : List ServiceOutput) :
    List Fields :=
  ((outputs.filterMap ServiceOutput.record?).filter
    fun record => threshold ≤ record.level.levelno).zipIdx.map fun (record, position) =>
      JsonFormatter.format surroundings.formatException (surroundings.timestamp position)
        (surroundings.requestId position) record

theorem keepsText_of_record? {outputs : List ServiceOutput} {record : LogRecord}
    (logsText : ∀ output ∈ outputs, output.LogsText)
    (member : record ∈ outputs.filterMap ServiceOutput.record?) : record.KeepsText := by
  obtain ⟨output, isOutput, shown⟩ := List.mem_filterMap.mp member
  have text := logsText output isOutput
  unfold ServiceOutput.record? at shown
  split at shown
  · obtain rfl := Option.some.inj shown
    exact text
  · obtain rfl := Option.some.inj shown
    exact text
  · cases shown

theorem wellformed_logged (surroundings : Surroundings) (threshold : Nat)
    {outputs : List ServiceOutput} (logsText : ∀ output ∈ outputs, output.LogsText) :
    ∀ payload ∈ logged surroundings threshold outputs, JsonFormatter.Wellformed payload := by
  intro payload member
  obtain ⟨⟨record, position⟩, isRecord, rfl⟩ := List.mem_map.mp member
  have kept := (List.mem_filter.mp (List.fst_mem_of_mem_zipIdx isRecord)).1
  exact JsonFormatter.wellformed_format _ _ _ (keepsText_of_record? logsText kept)

/-- The log of any run, under any request identifiers and messages of exceptions: plain text with
a line for each record, from which a reader gets the payloads and nothing else. -/
theorem log_reads_back (repr : Exn → String) (surroundings : Surroundings) (threshold : Nat)
    (staleJobSeconds : Int) (events : List ServiceEvent) :
    let payloads := logged surroundings threshold (serve staleJobSeconds events).outputs
    (∀ character ∈ (JsonFormatter.stream repr payloads).toList,
        Json.Printable character ∨ character = '\n') ∧
      JsonFormatter.readStream (JsonFormatter.stream repr payloads) =
        payloads.map fun payload => some (.object (JsonFormatter.members repr payload)) := by
  intro payloads
  have wellformed := wellformed_logged surroundings threshold
    (logsText_serve staleJobSeconds events)
  exact ⟨JsonFormatter.stream_printable repr wellformed,
    JsonFormatter.readStream_stream repr wellformed⟩

end EvaluationService
