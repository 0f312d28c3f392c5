import Mathlib.Data.Rat.Defs
import Mathlib.Algebra.Order.Ring.Rat
import EvaluationService.Core.Config
import EvaluationService.Core.Errors
import EvaluationService.Foundation.Text

/-!
The rate limiter (`app/core/rate_limit.py`) and its use by the routes
(`check_rate_limit` of `app/api/routes.py`). Readings of the monotonic clock are exact
numbers of seconds.
-/

set_option autoImplicit false

namespace EvaluationService

open Foundation

structure WindowCounter where
  windowStart : ℚ
  count : Int := 0
deriving DecidableEq

structure InMemoryRateLimiter where
  windowSeconds : Int := 60
  counters : String → Option WindowCounter := fun _ => none

namespace InMemoryRateLimiter

def store (limiter : InMemoryRateLimiter) (key : String) (counter : WindowCounter) :
    InMemoryRateLimiter :=
  { limiter with counters := Function.update limiter.counters key (some counter) }

def check (limiter : InMemoryRateLimiter) (now : ℚ) (key : String) (limit : Int) :
    Except Exn Unit × InMemoryRateLimiter :=
  match limiter.counters key with
  | none => (.ok (), limiter.store key { windowStart := now, count := 1 })
  | some counter =>
      if limiter.windowSeconds ≤ now - counter.windowStart then
        (.ok (), limiter.store key { windowStart := now, count := 1 })
      else if limit ≤ counter.count then (.error (.app .rateLimitExceeded), limiter)
      else (.ok (), limiter.store key { counter with count := counter.count + 1 })

end InMemoryRateLimiter

/-- What the limiter reads of a request: its `x-forwarded-for` header and its peer address. -/
structure Origin where
  forwardedFor : Option String
  clientHost : Option String
deriving DecidableEq, Repr

/-- The peer address stands in for a header that is missing or empty. -/
def Origin.clientIp (origin : Origin) : String :=
  match origin.forwardedFor.filter (· ≠ "") with
  | some forwardedFor => Text.strip ((Text.splitOn ',' forwardedFor).headD "")
  | none => origin.clientHost.getD "unknown"

def clientKey (origin : Origin) (routeName : String) (tenantId : Option String) : String :=
  routeName ++ ":" ++ (tenantId.filter (· ≠ "")).getD "unknown-tenant" ++ ":" ++ origin.clientIp

/-- The rate-limited routes. -/
inductive RouteName where
  | submitEvaluation
  | listEvaluations
  | getEvaluationDetails
  | getEvaluation
deriving DecidableEq, Repr

namespace RouteName

def value : RouteName → String
  | submitEvaluation => "submit_evaluation"
  | listEvaluations => "list_evaluations"
  | getEvaluationDetails => "get_evaluation_details"
  | getEvaluation => "get_evaluation"

def limit (settings : Settings) : RouteName → Int
  | submitEvaluation => settings.rateLimitSubmitPerMinute
  | listEvaluations => settings.rateLimitListPerMinute
  | getEvaluationDetails => settings.rateLimitReadPerMinute
  | getEvaluation => settings.rateLimitReadPerMinute

end RouteName

def checkRateLimit (settings : Settings) (limiter : InMemoryRateLimiter) (now : ℚ) (origin : Origin)
    (routeName : RouteName) (tenantId : Option String) : Except Exn Unit × InMemoryRateLimiter :=
  if !settings.rateLimitEnabled then (.ok (), limiter)
  else limiter.check now (clientKey origin routeName.value tenantId) (routeName.limit settings)

end EvaluationService
