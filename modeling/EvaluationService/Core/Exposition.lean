import Mathlib.Data.List.Lex
import Mathlib.Data.Prod.Lex
import EvaluationService.Core.Metrics
import EvaluationService.Foundation.Decimal
import EvaluationService.Foundation.Text

/-!
The metrics in the text format of Prometheus: `render_prometheus` of `app/core/metrics.py`,
line by line, and the grammar by which a scraper reads the lines back.
-/

set_option autoImplicit false

namespace EvaluationService

open Foundation

/-! ## Rendering -/

/-- A line of the exposition. -/
inductive ExpositionLine where
  | help (name text : String)
  | type (name kind : String)
  | sample (key : MetricKey) (value : String)
  | blank
deriving DecidableEq, Repr

/-- `text.replace(old, new)` for a text `old` of one character. -/
def replaceCharacter (old : Char) (new : String) (text : String) : String :=
  String.ofList (text.toList.flatMap fun character =>
    if character = old then new.toList else [character])

def escapeLabel (value : String) : String :=
  replaceCharacter '"' "\\\"" (replaceCharacter '\n' "\\n" (replaceCharacter '\\' "\\\\" value))

def labelText (label : String × String) : String :=
  label.1 ++ "=\"" ++ escapeLabel label.2 ++ "\""

def formatLabels (labels : LabelSet) : String :=
  if labels.isEmpty then "" else "\x7b" ++ Text.join ',' (labels.map labelText) ++ "\x7d"

def ExpositionLine.text : ExpositionLine → String
  | help name text => "# HELP " ++ name ++ " " ++ text
  | type name kind => "# TYPE " ++ name ++ " " ++ kind
  | sample key value => key.1 ++ formatLabels key.2 ++ " " ++ value
  | blank => ""

namespace MetricsRegistry

/-- The metrics with a type and a help text of their own. -/
def metadata : List (String × String × String) :=
  [("http_requests_total", "counter", "HTTP requests handled by the API."),
    ("http_request_duration_seconds_count", "counter", "HTTP request duration observation count."),
    ("http_request_duration_seconds_sum", "counter",
      "Total observed HTTP request duration in seconds."),
    ("evaluation_jobs_total", "counter", "Evaluation jobs by terminal or queued status."),
    ("evaluation_scoring_duration_seconds_count", "counter",
      "Evaluation scoring duration observation count."),
    ("evaluation_scoring_duration_seconds_sum", "counter",
      "Total observed evaluation scoring duration in seconds."),
    ("evaluation_worker_recovered_jobs_total", "counter", "Stale running jobs recovered by workers."),
    ("evaluation_queue_depth", "gauge", "In-memory evaluation jobs waiting to be processed.")]

def describe (name : String) : String × String :=
  (metadata.lookup name).getD ("gauge", name)

/-- Python compares tuples lexicographically. -/
def keyOrder (key : MetricKey) : String ×ₗ List (String ×ₗ String) :=
  toLex (key.1, key.2.map toLex)

variable (registry : MetricsRegistry)

def metricNames : List String :=
  sortBy id (registry.series.map Prod.fst).dedup

def sortedValues : List (MetricKey × ℚ) :=
  sortBy (fun row => keyOrder row.1) registry.values.rows

/-- The lines of one metric. -/
def renderMetric (name : String) : List ExpositionLine :=
  [.help name (describe name).2, .type name (describe name).1] ++
    (registry.sortedValues.filter fun row => row.1.1 = name).map fun row =>
      .sample row.1 (Decimal.formatGeneral row.2)

def renderLines : List ExpositionLine :=
  registry.metricNames.flatMap registry.renderMetric ++ [.blank]

def renderPrometheus : String :=
  Text.join '\n' (registry.renderLines.map ExpositionLine.text)

end MetricsRegistry

/-! ## The grammar of a line -/

def isLetter (character : Char) : Bool :=
  ('a' ≤ character && character ≤ 'z') || ('A' ≤ character && character ≤ 'Z') || character = '_'

def isNamePart (character : Char) : Bool :=
  isLetter character || character = ':' || ('0' ≤ character && character ≤ '9')

def isLabelPart (character : Char) : Bool :=
  isLetter character || ('0' ≤ character && character ≤ '9')

/-- A metric name starts with a letter or a colon. -/
def IsMetricName (name : String) : Prop :=
  (∃ first ∈ name.toList.head?, isLetter first || first = ':') ∧ name.toList.all isNamePart

def IsLabelName (name : String) : Prop :=
  (∃ first ∈ name.toList.head?, isLetter first) ∧ name.toList.all isLabelPart

instance (name : String) : Decidable (IsMetricName name) :=
  decidable_of_iff ((name.toList.head?.any fun first => isLetter first || first = ':') = true ∧
    name.toList.all isNamePart = true) (and_congr_left fun _ => Option.any_eq_true _ _)

instance (name : String) : Decidable (IsLabelName name) :=
  decidable_of_iff (name.toList.head?.any isLetter = true ∧ name.toList.all isLabelPart = true)
    (and_congr_left fun _ => Option.any_eq_true _ _)

/-- The longest run of name characters, if it is a name, and what follows it. -/
def name? (isPart : Char → Bool) (valid : String → Bool) (characters : List Char) :
    Option (String × List Char) :=
  let name := String.ofList (characters.takeWhile isPart)
  if valid name then some (name, characters.dropWhile isPart) else none

def metricName? : List Char → Option (String × List Char) :=
  name? isNamePart fun name => decide (IsMetricName name)

def labelName? : List Char → Option (String × List Char) :=
  name? isLabelPart fun name => decide (IsLabelName name)

/-- A quoted value from after its opening quote, unescaped, and what follows its closing
quote. -/
def labelValue? : List Char → Option (List Char × List Char)
  | '"' :: rest => some ([], rest)
  | '\\' :: '\\' :: rest => (labelValue? rest).map fun read => ('\\' :: read.1, read.2)
  | '\\' :: '"' :: rest => (labelValue? rest).map fun read => ('"' :: read.1, read.2)
  | '\\' :: 'n' :: rest => (labelValue? rest).map fun read => ('\n' :: read.1, read.2)
  | '\\' :: _ => none
  | character :: rest => (labelValue? rest).map fun read => (character :: read.1, read.2)
  | [] => none

/-- One label, and what follows it. -/
def label? (characters : List Char) : Option ((String × String) × List Char) :=
  (labelName? characters).bind fun (name, rest) =>
    match rest with
    | '=' :: '"' :: rest =>
        (labelValue? rest).map fun (value, rest) => ((name, String.ofList value), rest)
    | _ => none

/-- The labels up to the closing brace; at most `fuel` of them. -/
def labels? : Nat → List Char → Option (LabelSet × List Char)
  | 0, _ => none
  | fuel + 1, characters =>
      if characters.head? = some '}' then some ([], characters.drop 1)
      else
        (label? characters).bind fun (label, rest) =>
          match rest with
          | ',' :: rest => (labels? fuel rest).map fun read => (label :: read.1, read.2)
          | '}' :: rest => some ([label], rest)
          | _ => none

def labelSet? (characters : List Char) : Option (LabelSet × List Char) :=
  match characters with
  | '{' :: rest => labels? characters.length rest
  | _ => some ([], characters)

def afterBlank? : List Char → Option String
  | ' ' :: rest => some (String.ofList rest)
  | _ => none

/-- A sample without a time stamp. Its value is a number. -/
def sample? (characters : List Char) : Option ExpositionLine := do
  let (name, rest) ← metricName? characters
  let (labels, rest) ← labelSet? rest
  let value ← afterBlank? rest
  let _ ← Decimal.denoted? value
  return .sample (name, labels) value

/-- A metric's name and a text that the keyword of the comment allows. -/
def comment? (line : String → String → ExpositionLine) (allows : String → Bool)
    (characters : List Char) : Option ExpositionLine := do
  let (name, rest) ← metricName? characters
  let text ← afterBlank? rest
  if allows text then some (line name text) else none

def metricTypes : List String := ["counter", "gauge", "histogram", "summary", "untyped"]

def parseLine? (line : String) : Option ExpositionLine :=
  let characters := line.toList
  if characters = [] then some .blank
  else if "# HELP ".toList.isPrefixOf characters then comment? .help (fun _ => true) (characters.drop 7)
  else if "# TYPE ".toList.isPrefixOf characters then
    comment? .type metricTypes.contains (characters.drop 7)
  else sample? characters

/-- The lines of an exposition, as a scraper reads them. -/
def parseExposition (text : String) : List (Option ExpositionLine) :=
  (Text.splitOn '\n' text).map parseLine?

/-! ## Calls of the registry -/

inductive MetricCall where
  | increment (name : String) (labels : List (String × String)) (amount : ℚ)
  | setGauge (name : String) (value : ℚ) (labels : List (String × String))
  | observeDuration (name : String) (seconds : ℚ) (labels : List (String × String))

def MetricCall.apply (registry : MetricsRegistry) : MetricCall → MetricsRegistry
  | increment name labels amount => registry.increment name labels amount
  | setGauge name value labels => registry.setGauge name value labels
  | observeDuration name seconds labels => registry.observeDuration name seconds labels

def registryOf (calls : List MetricCall) : MetricsRegistry :=
  calls.foldl MetricCall.apply .empty

/-- The metric and label names of the call are identifiers of Prometheus. -/
def MetricCall.WellNamed : MetricCall → Prop
  | increment name labels _ | setGauge name _ labels | observeDuration name _ labels =>
      IsMetricName name ∧ ∀ label ∈ labels, IsLabelName label.1

end EvaluationService
