import EvaluationService.Core.Auth
import EvaluationService.Core.RateLimit
import EvaluationService.Services.System

/-!
The evaluation routes (`app/api/routes.py`). A handler runs up to its one call of the job
service, which it awaits, and then answers with what it made of the reply. The framework
has validated the body and the query parameters before.
-/

set_option autoImplicit false

namespace EvaluationService

open Foundation

def tenantFromContextOrRequest (context : Option RequestContext) (tenantId : Option String) :
    Except Exn String :=
  match context with
  | some context => .ok context.tenantId
  | none =>
      match tenantId with
      -- "tenant_id is required."; a response shows the message of the error's class only
      | none => .error (.app .badRequest)
      | some tenantId => .ok tenantId

/-- A query parameter `Query(min_length=1, max_length=128)`, if it is given. -/
abbrev QueryText : Type := Option { text : String // LengthBetween 1 128 text }

/-- `Query(ge=1, le=100)` -/
abbrev PageLimit : Type := { limit : Nat // 1 ≤ limit ∧ limit ≤ 100 }

inductive Endpoint where
  | submitEvaluation (payload : SubmitEvaluationRequest)
  | listEvaluations (tenantId projectId : QueryText) (limit : PageLimit)
  | getEvaluationDetails (jobId : UUID) (tenantId : QueryText)
  | getEvaluation (jobId : UUID) (tenantId : QueryText)

/-- The call of the job service that a handler awaits. -/
inductive Awaited where
  | submit (request : EvaluationRequest)
  | listRecent (tenantId : String) (projectId : Option String) (limit : Nat)
  | details (jobId : UUID) (tenantId : String)
  | get (jobId : UUID) (tenantId : String)

inductive Body where
  | submitted (response : SubmitEvaluationResponse)
  | listed (response : EvaluationListResponse)
  | details (response : EvaluationJobDetailResponse)
  | found (response : EvaluationJobResponse)
deriving DecidableEq, Repr

/-- What the handlers read of a request besides its endpoint. -/
structure RequestState where
  origin : Origin
  requestId : String

section Handlers

variable (settings : Settings) (limiter : InMemoryRateLimiter) (clock : ℚ) (request : RequestState)
variable (context : Option RequestContext)

/-- What the handlers have in common: the tenant is resolved and the rate limit is checked
before anything else. -/
def limited (routeName : RouteName) (tenantId : Option String)
    (handler : String → Except Exn Awaited) : Except Exn Awaited × InMemoryRateLimiter :=
  match tenantFromContextOrRequest context tenantId with
  | .error error => (.error error, limiter)
  | .ok tenantId =>
      match checkRateLimit settings limiter clock request.origin routeName (some tenantId) with
      | (.error error, limiter) => (.error error, limiter)
      | (.ok (), limiter) => (handler tenantId, limiter)

def submitEvaluation (payload : SubmitEvaluationRequest) :
    Except Exn Awaited × InMemoryRateLimiter :=
  limited settings limiter clock request context .submitEvaluation payload.tenantId
    fun tenantId => (payload.toEvaluationRequest tenantId).map .submit

def listEvaluations (tenantId projectId : QueryText) (limit : PageLimit) :
    Except Exn Awaited × InMemoryRateLimiter :=
  limited settings limiter clock request context .listEvaluations (tenantId.map Subtype.val)
    fun tenantId => .ok (.listRecent tenantId (projectId.map Subtype.val) limit.val)

def getEvaluationDetails (jobId : UUID) (tenantId : QueryText) :
    Except Exn Awaited × InMemoryRateLimiter :=
  limited settings limiter clock request context .getEvaluationDetails (tenantId.map Subtype.val)
    fun tenantId => .ok (.details jobId tenantId)

def getEvaluation (jobId : UUID) (tenantId : QueryText) :
    Except Exn Awaited × InMemoryRateLimiter :=
  limited settings limiter clock request context .getEvaluation (tenantId.map Subtype.val)
    fun tenantId => .ok (.get jobId tenantId)

def Endpoint.handle : Endpoint → Except Exn Awaited × InMemoryRateLimiter
  | .submitEvaluation payload =>
      EvaluationService.submitEvaluation settings limiter clock request context payload
  | .listEvaluations tenantId projectId limit =>
      EvaluationService.listEvaluations settings limiter clock request context tenantId projectId limit
  | .getEvaluationDetails jobId tenantId =>
      EvaluationService.getEvaluationDetails settings limiter clock request context jobId tenantId
  | .getEvaluation jobId tenantId =>
      EvaluationService.getEvaluation settings limiter clock request context jobId tenantId

end Handlers

/-! ## Limits -/

section Limits

variable {settings : Settings} {limiter : InMemoryRateLimiter} {clock : ℚ} {request : RequestState}
variable {context : Option RequestContext} {routeName : RouteName} {tenantId : Option String}
variable {handler : String → Except Exn Awaited}

/-- The first request of a client is below every limit. -/
theorem checkRateLimit_first (settings : Settings) (clock : ℚ) (origin : Origin)
    (routeName : RouteName) (tenantId : Option String) :
    (checkRateLimit settings {} clock origin routeName tenantId).1 = .ok () := by
  unfold checkRateLimit
  split <;> rfl

theorem checkRateLimit_error {origin : Origin} {error : Exn}
    (refused : (checkRateLimit settings limiter clock origin routeName tenantId).1 = .error error) :
    error = .app .rateLimitExceeded := by
  unfold checkRateLimit InMemoryRateLimiter.check at refused
  split at refused
  · cases refused
  · split at refused
    · cases refused
    · split at refused
      · cases refused
      · split at refused
        · cases refused
          rfl
        · cases refused

theorem limited_first {resolved : String}
    (resolves : tenantFromContextOrRequest context tenantId = .ok resolved) :
    (limited settings {} clock request context routeName tenantId handler).1 = handler resolved := by
  have passed := checkRateLimit_first settings clock request.origin routeName (some resolved)
  unfold limited
  rw [resolves]
  dsimp only
  generalize checkRateLimit settings {} clock request.origin routeName (some resolved) =
    checked at passed
  obtain ⟨outcome, after⟩ := checked
  dsimp only at passed
  subst passed
  rfl

/-- A request is refused by an application error or handled for the tenant it resolves to. -/
theorem limited_cases :
    (∃ app, (limited settings limiter clock request context routeName tenantId handler).1 =
        .error (.app app)) ∨
      ∃ resolved, tenantFromContextOrRequest context tenantId = .ok resolved ∧
        (limited settings limiter clock request context routeName tenantId handler).1 =
          handler resolved := by
  unfold limited
  cases resolves : tenantFromContextOrRequest context tenantId with
  | error error =>
      refine .inl ⟨.badRequest, ?_⟩
      unfold tenantFromContextOrRequest at resolves
      split at resolves
      · cases resolves
      · split at resolves
        · cases resolves
          rfl
        · cases resolves
  | ok resolved =>
      dsimp only
      generalize checks : checkRateLimit settings limiter clock request.origin routeName
        (some resolved) = checked
      obtain ⟨outcome, after⟩ := checked
      cases outcome with
      | error error =>
          obtain rfl := checkRateLimit_error (congrArg Prod.fst checks)
          exact .inl ⟨_, rfl⟩
      | ok _ => exact .inr ⟨resolved, rfl, rfl⟩

end Limits

/-! ## Answers -/

/-- The identifier and the clock readings that `submit` draws. -/
structure Draw where
  jobId : UUID
  createdAt : DateTime
  updatedAt : DateTime
  now : DateTime

def Draw.submission (draw : Draw) (request : EvaluationRequest) : Submission :=
  ⟨request, draw.jobId, draw.createdAt, draw.updatedAt, draw.now⟩

namespace Awaited

def call (draw : Draw) : Awaited → RepositoryCall
  | submit request => .create (draw.submission request).job
  | listRecent tenantId projectId limit => .listRecent tenantId projectId limit
  | details jobId tenantId => .getForTenant jobId tenantId
  | get jobId tenantId => .getForTenant jobId tenantId

/-- The answer to a request, from the reply of the repository. -/
def answer (requestId : String) (draw : Draw) : Awaited → RepositoryReply → Option (Except Exn Body)
  | submit request, .job outcome =>
      let job := (draw.submission request).job
      some ((afterCreate draw.now job outcome).1.map fun job =>
        .submitted ⟨job.jobId, job.status, requestId⟩)
  | listRecent _ _ _, .jobs outcome =>
      some (outcome.map fun jobs => .listed ⟨jobs.map EvaluationJob.toSummary, requestId⟩)
  | details _ _, .job outcome =>
      some (outcome.map fun job => .details (job.toDetailResponse requestId))
  | get _ _, .job outcome => some (outcome.map fun job => .found (job.toResponse requestId))
  | _, _ => none

/-- The identifier of a new job is in use nowhere. -/
def Fresh (store : Lookup) (draw : Draw) (awaited : Awaited) : Prop :=
  ∀ request, awaited = .submit request → store draw.jobId = none

def submissions (draw : Draw) : Awaited → List Submission
  | submit request => [draw.submission request]
  | _ => []

def emissions (draw : Draw) : Awaited → RepositoryReply → List Emission
  | submit request, .job outcome => (afterCreate draw.now (draw.submission request).job outcome).2
  | _, _ => []

end Awaited

/-- The answers that a store may give. -/
def Answers (repository : JobRepository) (store : repository.State) (requestId : String)
    (draw : Draw) (awaited : Awaited) (answer : Except Exn Body) : Prop :=
  awaited.Fresh (repository.job? store) draw ∧
    ∃ reply next, repository.Step store ⟨draw.now, awaited.call draw, reply⟩ next ∧
      awaited.answer requestId draw reply = some answer

namespace Body

/-- The jobs that appear in a response. -/
def jobIds : Body → List UUID
  | submitted response => [response.jobId]
  | listed response => response.jobs.map (·.jobId)
  | details response => [response.jobId]
  | found response => [response.jobId]

end Body

end EvaluationService
