import EvaluationService.Core.Errors
import EvaluationService.Core.Metrics

/-!
The application around its routes (`app/main.py`, with the handlers of
`app/core/errors.py`). From the outside in stand the server error middleware of the
framework, `MetricsMiddleware`, `RequestIdMiddleware`, the middleware for CORS, the
framework's exception middleware and the router. What the last three make of a request,
up to the exception handlers, is the `Handling` of it.
-/

set_option autoImplicit false

namespace EvaluationService

/-- The routes of `create_app`, with those that the framework registers for its documentation. -/
inductive RegisteredRoute where
  | openapi
  | docs
  | docsRedirect
  | redoc
  | live
  | ready
  | metrics
  | submitEvaluation
  | listEvaluations
  | getEvaluationDetails
  | getEvaluation
deriving DecidableEq, Repr

namespace RegisteredRoute

def path : RegisteredRoute → String
  | openapi => "/openapi.json"
  | docs => "/docs"
  | docsRedirect => "/docs/oauth2-redirect"
  | redoc => "/redoc"
  | live => "/health/live"
  | ready => "/health/ready"
  | metrics => "/metrics"
  | submitEvaluation => "/v1/evaluations"
  | listEvaluations => "/v1/evaluations"
  | getEvaluationDetails => "/v1/evaluations/\x7bjob_id\x7d/details"
  | getEvaluation => "/v1/evaluations/\x7bjob_id\x7d"

def paths : List String :=
  [openapi, docs, docsRedirect, redoc, live, ready, metrics, submitEvaluation, listEvaluations,
    getEvaluationDetails, getEvaluation].map path

theorem path_mem_paths (route : RegisteredRoute) : route.path ∈ paths := by
  cases route <;> simp [paths]

end RegisteredRoute

structure ErrorBody where
  code : String
  message : String
  requestId : String
deriving DecidableEq, Repr

/-- A response; the body of one that no error handler made is not read by anything here. -/
structure Response where
  statusCode : Nat
  headers : List (String × String) := []
  error : Option ErrorBody := none
deriving DecidableEq, Repr

namespace Response

def header? (response : Response) (name : String) : Option String :=
  response.headers.lookup name

def setHeader (response : Response) (name value : String) : Response :=
  { response with headers := (name, value) :: response.headers.filter (·.1 ≠ name) }

end Response

def errorResponse (requestId : String) (statusCode : Nat) (code message : String) : Response where
  statusCode := statusCode
  error := some { code, message, requestId }

def appErrorHandler (requestId : String) (error : AppError) : Response :=
  errorResponse requestId error.statusCode error.code error.publicMessage

def unhandledErrorHandler (requestId : String) : Response :=
  errorResponse requestId 500 "internal_error" "An unexpected error occurred."

/-- How the code below the middlewares ends. -/
inductive Outcome where
  | response (response : Response)
  | appError (error : AppError)
  /-- Any other exception, by its class. -/
  | unhandled (className : String)
deriving DecidableEq, Repr

/-- A request with what happens to it: the `scope["route"]` that the router leaves, the outcome,
and what the middlewares draw and measure. -/
structure Exchange where
  method : String
  path : String
  xRequestId : Option String
  route : Option RegisteredRoute
  outcome : Outcome
  newRequestId : String
  durationSeconds : ℚ

namespace Exchange

def requestId (exchange : Exchange) : String :=
  exchange.xRequestId.getD exchange.newRequestId

/-- `getattr(request.scope.get("route"), "path", request.url.path)` -/
def routeLabel (exchange : Exchange) : String :=
  (exchange.route.map RegisteredRoute.path).getD exchange.path

/-- The exception middleware: it has a handler for `AppError`, that of `Exception` is elsewhere. -/
def exceptionMiddleware (exchange : Exchange) : Except Exn Response :=
  match exchange.outcome with
  | .response response => .ok response
  | .appError error => .ok (appErrorHandler exchange.requestId error)
  | .unhandled className => .error (.other className)

def requestIdMiddleware (exchange : Exchange) : Except Exn Response := do
  let response ← exchange.exceptionMiddleware
  return response.setHeader "x-request-id" exchange.requestId

def metricsMiddleware (registry : MetricsRegistry) (exchange : Exchange) :
    Except Exn Response × MetricsRegistry :=
  match exchange.requestIdMiddleware with
  | .error error => (.error error, registry)
  | .ok response =>
      if exchange.routeLabel ≠ "/metrics" then
        (.ok response, registry.recordHttpRequest exchange.method exchange.routeLabel
          response.statusCode exchange.durationSeconds)
      else (.ok response, registry)

/-- The server error middleware, which answers what no other one did, and so the application. -/
def handle (registry : MetricsRegistry) (exchange : Exchange) : Response × MetricsRegistry :=
  match exchange.metricsMiddleware registry with
  | (.ok response, next) => (response, next)
  | (.error _, next) => (unhandledErrorHandler exchange.requestId, next)

def Unhandled (exchange : Exchange) : Prop :=
  ∃ className, exchange.outcome = .unhandled className

/-- The response that is sent. -/
def sent (exchange : Exchange) : Response :=
  (exchange.handle .empty).1

end Exchange

/-- The registry after a sequence of requests. -/
def registryAfter (registry : MetricsRegistry) (exchanges : List Exchange) : MetricsRegistry :=
  exchanges.foldl (fun current exchange => (exchange.handle current).2) registry

end EvaluationService
