import Mathlib.Algebra.Order.Ring.Rat
import Mathlib.Data.String.Basic
import EvaluationService.Foundation.Ordering
import EvaluationService.Foundation.Table

/-!
The metrics registry (`app/core/metrics.py`). A series is a metric name with its sorted
labels; the registry keeps every series that was ever written. Values are exact numbers.
-/

set_option autoImplicit false

namespace EvaluationService

open Foundation

abbrev LabelSet : Type := List (String × String)

abbrev MetricKey : Type := String × LabelSet

structure MetricsRegistry where
  values : Table (Prod.fst : MetricKey × ℚ → MetricKey) fun _ => True

namespace MetricsRegistry

def empty : MetricsRegistry := ⟨Table.empty⟩

/-- A mapping has no two labels of one name, so it is sorted by them. -/
def labelSet (labels : List (String × String)) : LabelSet :=
  sortBy Prod.fst labels

/-- A series that was never written reads as zero. -/
def value (registry : MetricsRegistry) (key : MetricKey) : ℚ :=
  ((registry.values.find? key).map Prod.snd).getD 0

def series (registry : MetricsRegistry) : List MetricKey :=
  registry.values.rows.map Prod.fst

def set (registry : MetricsRegistry) (key : MetricKey) (value : ℚ) : MetricsRegistry :=
  ⟨registry.values.put (key, value) trivial⟩

def increment (registry : MetricsRegistry) (name : String) (labels : List (String × String))
    (amount : ℚ := 1) : MetricsRegistry :=
  registry.set (name, labelSet labels) (registry.value (name, labelSet labels) + amount)

def setGauge (registry : MetricsRegistry) (name : String) (value : ℚ)
    (labels : List (String × String)) : MetricsRegistry :=
  registry.set (name, labelSet labels) value

def observeDuration (registry : MetricsRegistry) (name : String) (seconds : ℚ)
    (labels : List (String × String)) : MetricsRegistry :=
  (registry.increment (name ++ "_count") labels).increment (name ++ "_sum") labels seconds

def httpLabels (method route : String) (statusCode : Nat) : List (String × String) :=
  [("method", method), ("route", route), ("status_code", toString statusCode)]

def recordHttpRequest (registry : MetricsRegistry) (method route : String) (statusCode : Nat)
    (durationSeconds : ℚ) : MetricsRegistry :=
  let labels := httpLabels method route statusCode
  (registry.increment "http_requests_total" labels).observeDuration "http_request_duration_seconds"
    durationSeconds labels

def recordJobStatus (registry : MetricsRegistry) (status : String) : MetricsRegistry :=
  registry.increment "evaluation_jobs_total" [("status", status)]

def recordScoringDuration (registry : MetricsRegistry) (durationSeconds : ℚ) : MetricsRegistry :=
  registry.observeDuration "evaluation_scoring_duration_seconds" durationSeconds []

def recordWorkerRecoveredJobs (registry : MetricsRegistry) (count : Nat) : MetricsRegistry :=
  registry.increment "evaluation_worker_recovered_jobs_total" [] count

def recordQueueDepth (registry : MetricsRegistry) (depth : Int) : MetricsRegistry :=
  registry.setGauge "evaluation_queue_depth" (max depth 0 : Int) []

/-! ## Series and their values -/

variable (registry : MetricsRegistry)

@[simp] theorem value_empty (key : MetricKey) : empty.value key = 0 := rfl

@[simp] theorem series_empty : empty.series = [] := rfl

theorem value_set (key other : MetricKey) (value : ℚ) :
    (registry.set key value).value other = if other = key then value else registry.value other := by
  unfold set MetricsRegistry.value
  rw [Table.find?_put]
  split <;> rfl

theorem mem_series_set (key other : MetricKey) (value : ℚ) :
    other ∈ (registry.set key value).series ↔ other = key ∨ other ∈ registry.series := by
  simp only [series, set, List.mem_map, Table.mem_put_rows]
  constructor
  · rintro ⟨row, rfl | ⟨member, _⟩, rfl⟩
    · exact .inl rfl
    · exact .inr ⟨row, member, rfl⟩
  · rintro (rfl | ⟨row, member, rfl⟩)
    · exact ⟨(other, value), .inl rfl, rfl⟩
    · by_cases same : row.1 = key
      · exact ⟨(key, value), .inl rfl, same.symm⟩
      · exact ⟨row, .inr ⟨member, same⟩, rfl⟩

theorem value_increment (name : String) (labels : List (String × String)) (amount : ℚ)
    (key : MetricKey) :
    (registry.increment name labels amount).value key =
      registry.value key + if key = (name, labelSet labels) then amount else 0 := by
  rw [increment, value_set]
  split
  · rename_i same
    rw [same]
  · rw [add_zero]

theorem mem_series_increment (name : String) (labels : List (String × String)) (amount : ℚ)
    (key : MetricKey) :
    key ∈ (registry.increment name labels amount).series ↔
      key = (name, labelSet labels) ∨ key ∈ registry.series :=
  mem_series_set registry _ key _

end MetricsRegistry

end EvaluationService
