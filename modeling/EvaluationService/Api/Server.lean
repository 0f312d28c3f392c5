import EvaluationService.Api.Routes

/-!
The API as it runs: requests come in at any time, each is received and later answered by
one repository call, and workers and calls of `process` go on between them.
-/

set_option autoImplicit false

namespace EvaluationService

open Foundation

structure HttpRequest where
  endpoint : Endpoint
  authorization : Option String
  state : RequestState

/-- Where a request stands, with the context that its token was validated to. -/
inductive RequestThread where
  | waiting (request : HttpRequest) (context : Option RequestContext) (awaited : Awaited)
  | answered (request : HttpRequest) (context : Option RequestContext) (answer : Except Exn Body)

inductive ApiThread where
  | background (thread : Thread)
  | request (thread : RequestThread)

inductive ApiAction where
  | signal (signal : Signal)
  | respond (draw : Draw)

/-- What the requests and the background threads share, with the context that each job was
submitted under. -/
structure ApiWorld (repository : JobRepository) where
  service : World repository
  limiter : InMemoryRateLimiter
  issued : List (Option RequestContext × Submission)

def ApiWorld.respond {repository : JobRepository} (world : ApiWorld repository)
    (context : Option RequestContext) (awaited : Awaited) (draw : Draw) (reply : RepositoryReply)
    (store : repository.State) : ApiWorld repository where
  service := {
    store := store
    submissions := world.service.submissions ++ awaited.submissions draw
    telemetry := world.service.telemetry ++ awaited.emissions draw reply }
  limiter := world.limiter
  issued := world.issued ++ (awaited.submissions draw).map (context, ·)

section Receiving

variable (loads : Bytes → Except Exn Json) (mac : Mac) (settings : Settings)

/-- A request up to its call of the job service, or to its end if it is refused before. -/
def receive (limiter : InMemoryRateLimiter) (now : DateTime) (clock : ℚ) (request : HttpRequest) :
    RequestThread × InMemoryRateLimiter :=
  match getRequestContext loads mac settings now request.authorization with
  | .error error => (.answered request none (.error error.exn), limiter)
  | .ok context =>
      match request.endpoint.handle settings limiter clock request.state context with
      | (.error error, limiter) => (.answered request context (.error error), limiter)
      | (.ok awaited, limiter) => (.waiting request context awaited, limiter)

variable (repository : JobRepository) (evaluator : EvaluatorBehavior) (staleJobSeconds : Int)

inductive ApiWorld.Starts (world : ApiWorld repository) : ApiWorld repository → ApiThread → Prop where
  | background {thread : Thread} {service : World repository} :
      World.Starts repository world.service service thread →
      Starts world { world with service := service } (.background thread)
  | request {now : DateTime} {clock : ℚ} {request : HttpRequest} :
      Starts world { world with
        limiter := (receive loads mac settings world.limiter now clock request).2 }
        (.request (receive loads mac settings world.limiter now clock request).1)

inductive ApiWorld.Acts (world : ApiWorld repository) :
    ApiThread → ApiAction → ApiWorld repository → ApiThread → Prop where
  | background {thread following : Thread} {signal : Signal} {service : World repository} :
      World.Acts repository evaluator staleJobSeconds world.service thread signal service following →
      Acts world (.background thread) (.signal signal) { world with service := service }
        (.background following)
  | respond {request : HttpRequest} {context : Option RequestContext} {awaited : Awaited}
      {draw : Draw} {reply : RepositoryReply} {answer : Except Exn Body} {store : repository.State} :
      awaited.Fresh (repository.job? world.service.store) draw →
      repository.Step world.service.store ⟨draw.now, awaited.call draw, reply⟩ store →
      awaited.answer request.state.requestId draw reply = some answer →
      Acts world (.request (.waiting request context awaited)) (.respond draw)
        (world.respond context awaited draw reply store) (.request (.answered request context answer))

def api : Program (ApiWorld repository) ApiThread Empty ApiAction where
  arrives _ input _ := input.elim
  starts := ApiWorld.Starts loads mac settings repository
  acts := ApiWorld.Acts repository evaluator staleJobSeconds

abbrev ApiTrace : Type :=
  List (Transition (Pool (ApiWorld repository) ApiThread) (PoolEvent Empty ApiAction))

def ApiWorld.initial : ApiWorld repository := ⟨.initial repository, {}, []⟩

def ApiReaches (trace : ApiTrace repository) (pool : Pool (ApiWorld repository) ApiThread) : Prop :=
  Run (api loads mac settings repository evaluator staleJobSeconds).Step
    (.idle (.initial repository)) trace pool

end Receiving

end EvaluationService
