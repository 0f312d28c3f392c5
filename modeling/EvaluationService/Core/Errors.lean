import Mathlib.Data.List.Basic

/-!
Exceptions raised by the service (`app/core/errors.py`) and by the code it calls.
-/

set_option autoImplicit false

namespace EvaluationService

/-- The subclasses of `AppError`. -/
inductive AppError where
  | notFound
  | badRequest
  | unauthorized
  | invalidStateTransition
  | rateLimitExceeded
deriving DecidableEq, Repr

namespace AppError

def statusCode : AppError → Nat
  | notFound => 404
  | badRequest => 400
  | unauthorized => 401
  | invalidStateTransition => 409
  | rateLimitExceeded => 429

def code : AppError → String
  | notFound => "not_found"
  | badRequest => "bad_request"
  | unauthorized => "unauthorized"
  | invalidStateTransition => "invalid_state_transition"
  | rateLimitExceeded => "rate_limit_exceeded"

def publicMessage : AppError → String
  | notFound => "The requested resource was not found."
  | badRequest => "The request is invalid."
  | unauthorized => "Authentication is required."
  | invalidStateTransition => "The requested state transition is not allowed."
  | rateLimitExceeded => "Too many requests. Please try again later."

end AppError

/-- An ordinary `Exception`: an application error, or any other one by its class name. -/
inductive Exn where
  | app (error : AppError)
  | other (className : String)
deriving DecidableEq, Repr

namespace Exn

abbrev notFoundError : Exn := .app .notFound

abbrev invalidStateTransitionError : Exn := .app .invalidStateTransition

/-- The database's refusal to insert a second row under one primary key. -/
abbrev integrityError : Exn := .other "IntegrityError"

/-- The database's refusal of a value that its column cannot hold. -/
abbrev dataError : Exn := .other "DataError"

/-- A value rejected by a model's own validation or by an enumeration's constructor. -/
abbrev valueError : Exn := .other "ValueError"

abbrev timeoutError : Exn := .other "TimeoutError"

abbrev recursionError : Exn := .other "RecursionError"

abbrev assertionError : Exn := .other "AssertionError"

/-- An `int` that is too large to become a `float`. -/
abbrev overflowError : Exn := .other "OverflowError"

end Exn

section Sequencing

variable {Error Value Result : Type}

@[simp] theorem ok_bind (value : Value) (continuation : Value → Except Error Result) :
    (.ok value >>= continuation) = continuation value := rfl

@[simp] theorem error_bind (error : Error) (continuation : Value → Except Error Result) :
    (.error error >>= continuation) = .error error := rfl

@[simp] theorem throw_eq (error : Error) : (throw error : Except Error Value) = .error error := rfl

@[simp] theorem pure_eq (value : Value) : (pure value : Except Error Value) = .ok value := rfl

theorem bind_ok {source : Except Error Value} {continuation : Value → Except Error Result} {result : Result}
    (success : (source >>= continuation) = .ok result) :
    ∃ value, source = .ok value ∧ continuation value = .ok result := by
  cases source with
  | error error => cases success
  | ok value => exact ⟨value, rfl, success⟩

theorem bind_error {source : Except Error Value} {continuation : Value → Except Error Result}
    {error : Error} (failure : (source >>= continuation) = .error error) :
    source = .error error ∨ ∃ value, source = .ok value ∧ continuation value = .error error := by
  cases source with
  | error raised =>
      cases failure
      exact .inl rfl
  | ok value => exact .inr ⟨value, rfl, failure⟩

end Sequencing

end EvaluationService
