import Mathlib.Data.Fintype.EquivFin
import EvaluationService.Api.Middleware

/-!
What the registry knows of the traffic. A request is counted by a middleware that an
unhandled exception passes by, and it is counted under the route that the router left or,
where there is none, under the path that the client chose.
-/

set_option autoImplicit false

namespace EvaluationService

open Foundation

namespace MetricsRegistry

def httpMetricNames : List String :=
  ["http_requests_total", "http_request_duration_seconds_count",
    "http_request_duration_seconds_sum"]

theorem labelSet_httpLabels (method route : String) (statusCode : Nat) :
    labelSet (httpLabels method route statusCode) = httpLabels method route statusCode := by
  have first : "method" ≤ "route" := by decide
  have second : "route" ≤ "status_code" := by decide
  simp [labelSet, httpLabels, sortBy, List.insertionSort, first, second]

theorem value_recordHttpRequest (registry : MetricsRegistry) (method route : String)
    (statusCode : Nat) (durationSeconds : ℚ) (labels : LabelSet) :
    (registry.recordHttpRequest method route statusCode durationSeconds).value
        ("http_requests_total", labels) =
      registry.value ("http_requests_total", labels) +
        if labels = httpLabels method route statusCode then 1 else 0 := by
  have notCount : "http_requests_total" ≠ "http_request_duration_seconds" ++ "_count" := by decide
  have notSum : "http_requests_total" ≠ "http_request_duration_seconds" ++ "_sum" := by decide
  simp only [recordHttpRequest, observeDuration, value_increment, labelSet_httpLabels, Prod.mk.injEq,
    notCount, notSum, false_and, if_false, true_and, add_zero]

theorem mem_series_recordHttpRequest (registry : MetricsRegistry) (method route : String)
    (statusCode : Nat) (durationSeconds : ℚ) (key : MetricKey) :
    key ∈ (registry.recordHttpRequest method route statusCode durationSeconds).series ↔
      (key.1 ∈ httpMetricNames ∧ key.2 = httpLabels method route statusCode) ∨
        key ∈ registry.series := by
  obtain ⟨name, labels⟩ := key
  simp only [recordHttpRequest, observeDuration, mem_series_increment, labelSet_httpLabels,
    Prod.mk.injEq, httpMetricNames, List.mem_cons, List.not_mem_nil, or_false]
  rw [show "http_request_duration_seconds" ++ "_count" = "http_request_duration_seconds_count" from rfl,
    show "http_request_duration_seconds" ++ "_sum" = "http_request_duration_seconds_sum" from rfl]
  tauto

end MetricsRegistry

namespace Exchange

variable (exchange : Exchange)

/-- Below the middlewares a request is answered, unless an exception is not handled there. -/
theorem exceptionMiddleware_cases :
    (exchange.Unhandled ∧ ∃ error, exchange.exceptionMiddleware = .error error) ∨
      (¬ exchange.Unhandled ∧ ∃ response, exchange.exceptionMiddleware = .ok response) := by
  unfold Unhandled exceptionMiddleware
  cases exchange.outcome with
  | response response => exact .inr ⟨by simp, response, rfl⟩
  | appError error => exact .inr ⟨by simp, _, rfl⟩
  | unhandled className => exact .inl ⟨⟨className, rfl⟩, _, rfl⟩

theorem handle_of_unhandled (unhandled : exchange.Unhandled) (registry : MetricsRegistry) :
    exchange.handle registry = (unhandledErrorHandler exchange.requestId, registry) := by
  rcases exchange.exceptionMiddleware_cases with ⟨_, error, raised⟩ | ⟨handled, _⟩
  · simp [handle, metricsMiddleware, requestIdMiddleware, raised]
  · exact absurd unhandled handled

/-- An answered request is tagged, and counted under the status code it is answered with. -/
theorem handle_of_handled (handled : ¬ exchange.Unhandled) (registry : MetricsRegistry) :
    exchange.sent.header? "x-request-id" = some exchange.requestId ∧
      exchange.handle registry =
        (exchange.sent,
          if exchange.routeLabel ≠ "/metrics" then
            registry.recordHttpRequest exchange.method exchange.routeLabel exchange.sent.statusCode
              exchange.durationSeconds
          else registry) := by
  rcases exchange.exceptionMiddleware_cases with ⟨unhandled, _⟩ | ⟨_, response, answered⟩
  · exact absurd unhandled handled
  · have tagged : ∀ current, exchange.handle current =
        (response.setHeader "x-request-id" exchange.requestId,
          if exchange.routeLabel ≠ "/metrics" then
            current.recordHttpRequest exchange.method exchange.routeLabel response.statusCode
              exchange.durationSeconds
          else current) := by
      intro current
      unfold handle metricsMiddleware
      simp only [requestIdMiddleware, answered, ok_bind, pure_eq]
      by_cases counted : exchange.routeLabel ≠ "/metrics"
      · simp only [if_pos counted]
        rfl
      · simp only [if_neg counted]
    have isSent : exchange.sent = response.setHeader "x-request-id" exchange.requestId := by
      rw [sent, tagged]
    rw [isSent, tagged]
    exact ⟨by simp [Response.header?, Response.setHeader], rfl⟩

end Exchange

/-! ## Counting and tagging -/

/-- Every request of a sequence to a route other than `/metrics` adds one to the series of its
method, route and sent status code and nothing to any other, and its response has its request
identifier. -/
structure CountsAndTags (initial : MetricsRegistry) (exchanges : List Exchange) : Prop where
  counted : ∀ before exchange after, exchanges = before ++ exchange :: after →
    exchange.routeLabel ≠ "/metrics" → ∀ labels,
    (registryAfter initial (before ++ [exchange])).value ("http_requests_total", labels) =
      (registryAfter initial before).value ("http_requests_total", labels) +
        if labels = MetricsRegistry.httpLabels exchange.method exchange.routeLabel
          exchange.sent.statusCode then 1 else 0
  tagged : ∀ exchange ∈ exchanges, exchange.routeLabel ≠ "/metrics" →
    exchange.sent.header? "x-request-id" = some exchange.requestId

theorem registryAfter_concat (initial : MetricsRegistry) (before : List Exchange)
    (exchange : Exchange) :
    registryAfter initial (before ++ [exchange]) =
      (exchange.handle (registryAfter initial before)).2 := by
  simp [registryAfter]

/-- Counting and tagging leave out exactly the requests that end in an unhandled exception. -/
theorem counts_and_tags_iff (initial : MetricsRegistry) (exchanges : List Exchange) :
    CountsAndTags initial exchanges ↔
      ∀ exchange ∈ exchanges, exchange.routeLabel = "/metrics" ∨ ¬ exchange.Unhandled := by
  constructor
  · intro complete exchange member
    by_cases excluded : exchange.routeLabel = "/metrics"
    · exact .inl excluded
    · right
      intro unhandled
      have tagged := complete.tagged exchange member excluded
      rw [Exchange.sent, exchange.handle_of_unhandled unhandled] at tagged
      cases tagged
  · intro handled
    constructor
    · rintro before exchange after rfl counted labels
      have answered := (handled exchange (by simp)).resolve_left counted
      rw [registryAfter_concat, (exchange.handle_of_handled answered _).2, if_pos counted,
        MetricsRegistry.value_recordHttpRequest]
    · intro exchange member counted
      exact (exchange.handle_of_handled ((handled exchange member).resolve_left counted) initial).1

/-- A read that ends in an exception of the database driver. -/
def failedRead : Exchange where
  method := "GET"
  path := "/v1/evaluations"
  xRequestId := some "demo-request-001"
  route := some .listEvaluations
  outcome := .unhandled "DBAPIError"
  newRequestId := "a93f0c5e"
  durationSeconds := 1

/-- The 500 that is sent has no request identifier, and no series counts it. -/
theorem not_countsAndTags :
    ¬ CountsAndTags .empty [failedRead] ∧ failedRead.sent.statusCode = 500 ∧
      failedRead.sent.header? "x-request-id" = none ∧
      (registryAfter .empty [failedRead]).series = [] := by
  have unhandled : failedRead.Unhandled := ⟨_, rfl⟩
  refine ⟨?_, rfl, rfl, rfl⟩
  intro complete
  have tagged := complete.tagged failedRead (by simp) (by decide)
  rw [Exchange.sent, failedRead.handle_of_unhandled unhandled] at tagged
  cases tagged

/-! ## Routes in the registry -/

/-- Every series about HTTP requests has its route label among the given ones. -/
def RouteLabelsIn (labels : List String) (registry : MetricsRegistry) : Prop :=
  ∀ key ∈ registry.series, key.1 ∈ MetricsRegistry.httpMetricNames →
    ∃ label ∈ labels, key.2.lookup "route" = some label

/-- The series that a request writes. -/
def Exchange.Writes (exchange : Exchange) (key : MetricKey) : Prop :=
  ¬ exchange.Unhandled ∧ exchange.routeLabel ≠ "/metrics" ∧
    key.1 ∈ MetricsRegistry.httpMetricNames ∧
    key.2 = MetricsRegistry.httpLabels exchange.method exchange.routeLabel exchange.sent.statusCode

theorem Exchange.mem_series_handle (exchange : Exchange) (registry : MetricsRegistry)
    (key : MetricKey) :
    key ∈ (exchange.handle registry).2.series ↔ exchange.Writes key ∨ key ∈ registry.series := by
  unfold Exchange.Writes
  by_cases unhandled : exchange.Unhandled
  · simp [exchange.handle_of_unhandled unhandled, unhandled]
  · rw [(exchange.handle_of_handled unhandled registry).2]
    by_cases counted : exchange.routeLabel ≠ "/metrics"
    · simp only [if_pos counted, MetricsRegistry.mem_series_recordHttpRequest]
      simp [unhandled, counted]
    · simp [counted]

/-- The registry never forgets a series. -/
theorem mem_series_registryAfter (initial : MetricsRegistry) (exchanges : List Exchange)
    (key : MetricKey) :
    key ∈ (registryAfter initial exchanges).series ↔
      (∃ exchange ∈ exchanges, exchange.Writes key) ∨ key ∈ initial.series := by
  induction exchanges generalizing initial with
  | nil => simp [registryAfter]
  | cons exchange rest ih =>
      have stepped : registryAfter initial (exchange :: rest) =
          registryAfter (exchange.handle initial).2 rest := rfl
      rw [stepped, ih, exchange.mem_series_handle]
      simp only [List.mem_cons, exists_eq_or_imp, or_assoc]
      exact or_left_comm

theorem lookup_route_httpLabels (method route : String) (statusCode : Nat) :
    (MetricsRegistry.httpLabels method route statusCode).lookup "route" = some route := by
  simp [MetricsRegistry.httpLabels, List.lookup_cons]

theorem routeLabelsIn_iff (labels : List String) (exchanges : List Exchange) :
    RouteLabelsIn labels (registryAfter .empty exchanges) ↔
      ∀ exchange ∈ exchanges, ¬ exchange.Unhandled → exchange.routeLabel ≠ "/metrics" →
        exchange.routeLabel ∈ labels := by
  simp only [RouteLabelsIn, mem_series_registryAfter, MetricsRegistry.series_empty,
    List.not_mem_nil, or_false]
  constructor
  · intro bounded exchange member handled counted
    have written : exchange.Writes ("http_requests_total", MetricsRegistry.httpLabels exchange.method
        exchange.routeLabel exchange.sent.statusCode) :=
      ⟨handled, counted, by simp [MetricsRegistry.httpMetricNames], rfl⟩
    obtain ⟨label, labelMember, found⟩ :=
      bounded _ ⟨exchange, member, written⟩ (by simp [MetricsRegistry.httpMetricNames])
    rw [lookup_route_httpLabels, Option.some_inj] at found
    exact found ▸ labelMember
  · rintro bounded key ⟨exchange, member, handled, counted, _, labelled⟩ _
    refine ⟨exchange.routeLabel, bounded exchange member handled counted, ?_⟩
    rw [labelled, lookup_route_httpLabels]

/-- The route labels stay among the registered paths exactly while every answered request has a
route or has one of these paths. -/
theorem bounded_cardinality_iff (exchanges : List Exchange) :
    RouteLabelsIn RegisteredRoute.paths (registryAfter .empty exchanges) ↔
      ∀ exchange ∈ exchanges, exchange.route ≠ none ∨ exchange.path ∈ RegisteredRoute.paths ∨
        exchange.Unhandled := by
  rw [routeLabelsIn_iff]
  refine forall₂_congr fun exchange member => ?_
  cases routed : exchange.route with
  | some route =>
      have label : exchange.routeLabel = route.path := by simp [Exchange.routeLabel, routed]
      simp [label, route.path_mem_paths]
  | none =>
      have label : exchange.routeLabel = exchange.path := by simp [Exchange.routeLabel, routed]
      have excluded : "/metrics" ∈ RegisteredRoute.paths := RegisteredRoute.metrics.path_mem_paths
      rw [label]
      constructor
      · intro bounded
        by_cases handled : exchange.Unhandled
        · exact .inr (.inr handled)
        by_cases scraped : exchange.path = "/metrics"
        · exact .inr (.inl (scraped ▸ excluded))
        · exact .inr (.inl (bounded handled scraped))
      · rintro (routeless | registered | unhandled) handled _
        · exact absurd rfl routeless
        · exact registered
        · exact absurd unhandled handled

/-- A request that no route matches. -/
def unmatched (path : String) : Exchange where
  method := "GET"
  path := path
  xRequestId := none
  route := none
  outcome := .response { statusCode := 404 }
  newRequestId := "a93f0c5e"
  durationSeconds := 1

/-- There is a finite set of route labels that no traffic leaves. -/
def BoundedCardinality : Prop :=
  ∃ labels : List String, ∀ exchanges, RouteLabelsIn labels (registryAfter .empty exchanges)

/-- Every finite set of labels is left by a request for a longer path. -/
theorem not_boundedCardinality :
    ¬ BoundedCardinality ∧
      ¬ RouteLabelsIn RegisteredRoute.paths (registryAfter .empty [unmatched "/wp-login.php"]) := by
  have left : ∀ labels : List String, ∀ path ∉ labels, path ≠ "/metrics" →
      ¬ RouteLabelsIn labels (registryAfter .empty [unmatched path]) := by
    intro labels path outside notMetrics bounded
    have handled : ¬ (unmatched path).Unhandled := by
      rintro ⟨_, answered⟩
      cases answered
    exact outside ((routeLabelsIn_iff labels _).mp bounded (unmatched path) (by simp) handled notMetrics)
  constructor
  · rintro ⟨labels, bounded⟩
    obtain ⟨path, outside⟩ := Infinite.exists_notMem_finset ("/metrics" :: labels).toFinset
    simp only [List.mem_toFinset, List.mem_cons, not_or] at outside
    exact left labels path outside.2 outside.1 (bounded _)
  · exact left _ _ (by decide) (by decide)

end EvaluationService
