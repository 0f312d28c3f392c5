import EvaluationService.Core.Errors
import EvaluationService.Domain.Models

/-!
What the service emits while it works: spans (`app/core/tracing.py`), audit events
(`app/core/audit.py`), metrics (`app/core/metrics.py`) and log records. A function of
the service returns the emissions of the part of it that runs before its next `await`.
-/

set_option autoImplicit false

namespace EvaluationService

/-- The values of span attributes, audit metadata and log fields. `str(job_id)` is kept
as the identifier and `repr(error)` as the exception. -/
inductive FieldValue where
  | text (value : String)
  | uuid (value : UUID)
  | flag (value : Bool)
  | number (value : Int)
  | error (value : Exn)
deriving DecidableEq, Repr

abbrev Fields : Type := List (String × FieldValue)

structure AuditEvent where
  eventType : String
  tenantId : String
  projectId : String
  jobId : UUID
  createdAt : DateTime
  metadata : Fields
deriving DecidableEq, Repr

inductive LogLevel where
  | info
  | warning
  /-- `logger.exception`, at the level of errors. -/
  | exception
deriving DecidableEq, Repr

structure LogRecord where
  logger : String
  level : LogLevel
  message : String
  /-- The exception that is handled, and the one during whose handling it was raised. -/
  excInfo : List Exn
  extra : Fields
deriving DecidableEq, Repr

inductive Emission where
  | span (name : String) (attributes : Fields)
  | audit (event : AuditEvent)
  | log (record : LogRecord)
  | jobStatus (status : JobStatus)
  | scoringDuration
  | recoveredJobs (count : Nat)
  /-- The job is put into the in-process queue, which then reports its depth. -/
  | enqueued (jobId : UUID)
deriving DecidableEq, Repr

def auditRecord (now : DateTime) (eventType tenantId projectId : String) (jobId : UUID)
    (metadata : Fields) : List Emission :=
  [.audit ⟨eventType, tenantId, projectId, jobId, now, metadata⟩,
    .log ⟨"app.core.audit", .info, "audit event recorded", [], [("event_type", .text eventType),
      ("tenant_id", .text tenantId), ("project_id", .text projectId), ("job_id", .uuid jobId)]⟩]

/-! ## What was recorded -/

@[simp] def Emission.audit? : Emission → Option AuditEvent
  | audit event => some event
  | _ => none

@[simp] def Emission.jobStatus? : Emission → Option JobStatus
  | jobStatus status => some status
  | _ => none

def auditEvents (telemetry : List Emission) : List AuditEvent :=
  telemetry.filterMap Emission.audit?

def recordedStatuses (telemetry : List Emission) : List JobStatus :=
  telemetry.filterMap Emission.jobStatus?

section Recorded

variable (first second : List Emission)

@[simp] theorem auditEvents_append :
    auditEvents (first ++ second) = auditEvents first ++ auditEvents second :=
  List.filterMap_append

@[simp] theorem recordedStatuses_append :
    recordedStatuses (first ++ second) = recordedStatuses first ++ recordedStatuses second :=
  List.filterMap_append

@[simp] theorem auditEvents_nil : auditEvents [] = [] := rfl

@[simp] theorem auditEvents_cons (emission : Emission) :
    auditEvents (emission :: first) = emission.audit?.toList ++ auditEvents first := by
  cases emission <;> rfl

@[simp] theorem recordedStatuses_nil : recordedStatuses [] = [] := rfl

@[simp] theorem recordedStatuses_cons (emission : Emission) :
    recordedStatuses (emission :: first) =
      emission.jobStatus?.toList ++ recordedStatuses first := by
  cases emission <;> rfl

variable (now : DateTime) (eventType tenantId projectId : String) (jobId : UUID) (metadata : Fields)

@[simp] theorem auditEvents_auditRecord :
    auditEvents (auditRecord now eventType tenantId projectId jobId metadata) =
      [⟨eventType, tenantId, projectId, jobId, now, metadata⟩] := rfl

@[simp] theorem recordedStatuses_auditRecord :
    recordedStatuses (auditRecord now eventType tenantId projectId jobId metadata) = [] := rfl

end Recorded

end EvaluationService
