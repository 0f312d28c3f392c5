import EvaluationService.Core.Telemetry

/-!
The log format (`JsonFormatter` of `app/core/logging.py`). Of the fields that a call attaches
to a record the formatter keeps four. The payload is kept as the fields of its `dict`, in
their order.
-/

set_option autoImplicit false

namespace EvaluationService

def LogLevel.levelname : LogLevel → String
  | info => "INFO"
  | warning => "WARNING"
  | exception => "ERROR"

namespace JsonFormatter

def keptFields : List String := ["tenant_id", "project_id", "job_id", "event_type"]

/-- The payload of a record, with the clock's reading and the request identifier of the context
in which it is formatted. The text of an exception is its traceback. -/
def format (formatException : List Exn → String) (timestamp requestId : String)
    (record : LogRecord) : Fields :=
  [("timestamp", .text timestamp), ("level", .text record.level.levelname),
    ("logger", .text record.logger), ("message", .text record.message),
    ("request_id", .text requestId)] ++
  (if record.excInfo = [] then [] else [("exception", .text (formatException record.excInfo))]) ++
  keptFields.filterMap fun key => (record.extra.lookup key).map fun value => (key, value)

end JsonFormatter

end EvaluationService
