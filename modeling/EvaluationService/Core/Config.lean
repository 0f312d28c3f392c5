import Mathlib.Data.Int.Order.Basic

/-! The settings that the modelled functions read (`app/core/config.py`), with their defaults. -/

set_option autoImplicit false

namespace EvaluationService

structure Settings where
  rateLimitEnabled : Bool := true
  rateLimitSubmitPerMinute : Int := 30
  rateLimitReadPerMinute : Int := 120
  rateLimitListPerMinute : Int := 60
  authEnabled : Bool := false
  authIssuer : String := "llm-evaluation-service"
  authAudience : String := "llm-evaluation-service"
  authDemoSecret : String := "local-demo-secret"
deriving DecidableEq, Repr

end EvaluationService
