import Mathlib.Data.Rat.Defs
import Mathlib.Tactic.Ring
import EvaluationService.Core.Errors
import EvaluationService.Foundation.Double

/-!
Retries and deadlines (`app/core/resilience.py`). The awaited operation is a source of
outcomes, one for each call of it; a run records its calls and the sleeps between them
beside its outcome. A delay is a `float`, and so is each duration that is slept, as it is
given to `asyncio.sleep`.
-/

set_option autoImplicit false

namespace EvaluationService

open Foundation

/-- `asyncio.wait_for`: the outcome of the operation, unless its deadline passes first. -/
def withTimeout {Value : Type} (expired : Bool) (outcome : Except Exn Value) : Except Exn Value :=
  if expired then .error .timeoutError else outcome

inductive RetryEvent where
  | call
  | sleep (seconds : Double.Extended)
deriving DecidableEq

structure RetryRun (Value : Type) where
  outcome : Except Exn Value
  events : List RetryEvent

def RetryRun.calls {Value : Type} (run : RetryRun Value) : Nat := run.events.count .call

/-- `initial_delay_seconds * (2**attempt)`: the power is an `int`, which has to become a `float`
first. -/
def backoff (initialDelaySeconds : ℚ) (attempt : Nat) : Except Exn Double.Extended :=
  if 1024 ≤ attempt then .error .overflowError
  else .ok (Double.ofExact (initialDelaySeconds * 2 ^ attempt))

/-- The iterations of the loop that are left, from number `attempt` on. -/
def retryFrom {Value : Type} (operation : Nat → Except Exn Value) (attempts : Int)
    (initialDelaySeconds : ℚ) : Nat → Nat → Option Exn → RetryRun Value
  -- `assert last_error is not None` and `raise last_error`, after the last iteration
  | 0, _, none => ⟨.error .assertionError, []⟩
  | 0, _, some lastError => ⟨.error lastError, []⟩
  | remaining + 1, attempt, _ =>
      match operation attempt with
      | .ok value => ⟨.ok value, [.call]⟩
      | .error error =>
          let rest := retryFrom operation attempts initialDelaySeconds remaining (attempt + 1)
            (some error)
          if (attempt : Int) < attempts - 1 then
            match backoff initialDelaySeconds attempt with
            -- raised in the `except` block, and so by the function
            | .error overflow => ⟨.error overflow, [.call]⟩
            | .ok seconds => ⟨rest.outcome, .call :: .sleep seconds :: rest.events⟩
          else ⟨rest.outcome, .call :: rest.events⟩

/-- The `float` that `0.05` is. -/
def defaultInitialDelay : ℚ := Double.nearest (1 / 20)

def retryAsync {Value : Type} (operation : Nat → Except Exn Value) (attempts : Int)
    (initialDelaySeconds : ℚ) : RetryRun Value :=
  retryFrom operation attempts initialDelaySeconds attempts.toNat 0 none

section Retries

variable {Value : Type} {operation : Nat → Except Exn Value} {delay : ℚ}

theorem exists_ok_of_retryFrom {attempts : Int} {remaining attempt : Nat} {lastError : Option Exn}
    {value : Value}
    (success : (retryFrom operation attempts delay remaining attempt lastError).outcome = .ok value) :
    ∃ call, operation call = .ok value := by
  induction remaining generalizing attempt lastError with
  | zero => cases lastError <;> cases success
  | succ remaining ih =>
      unfold retryFrom at success
      cases called : operation attempt with
      | ok result =>
          rw [called] at success
          cases success
          exact ⟨attempt, called⟩
      | error error =>
          rw [called] at success
          dsimp only at success
          split at success
          · cases slept : backoff delay attempt with
            | error overflow =>
                rw [slept] at success
                cases success
            | ok seconds =>
                rw [slept] at success
                exact ih success
          · exact ih success

/-! ## Calls and sleeps -/

/-- Failed calls, each with a sleep after it that is twice as long as the one before. -/
def retried (delay : ℚ) (failures : Nat) : List RetryEvent :=
  (List.range failures).flatMap fun index => [.call, .sleep (.finite (delay * 2 ^ index))]

/-- Calls with one sleep between any two, which doubles from one to the next. -/
def retrySchedule (delay : ℚ) (calls : Nat) : List RetryEvent :=
  retried delay (calls - 1) ++ [.call]

theorem retried_succ (delay : ℚ) (failures : Nat) :
    retried delay (failures + 1) =
      retried delay failures ++ [.call, .sleep (.finite (delay * 2 ^ failures))] := by
  simp [retried, List.range_succ]

theorem count_call_retried (delay : ℚ) (failures : Nat) :
    (retried delay failures).count .call = failures := by
  induction failures with
  | zero => rfl
  | succ failures ih => simp [retried_succ, ih]

theorem count_call_retrySchedule (delay : ℚ) {calls : Nat} (positive : 0 < calls) :
    (retrySchedule delay calls).count .call = calls := by
  rw [retrySchedule, List.count_append, count_call_retried, List.count_singleton_self]
  omega

theorem infinite_notMem_retrySchedule (delay : ℚ) (calls : Nat) (negative : Bool) :
    .sleep (.infinite negative) ∉ retrySchedule delay calls := by
  simp [retrySchedule, retried]

/-- The sleep after a failed call is as long as it is meant to be. -/
def ExactDelay (delay : ℚ) (index : Nat) : Prop :=
  backoff delay index = .ok (.finite (delay * 2 ^ index))

/-- A failed call with another attempt after it. -/
theorem retryFrom_failed {attempts attempt remaining : Nat} {lastError : Option Exn} {error : Exn}
    (left : attempt + 1 < attempts) (raised : operation attempt = .error error) :
    retryFrom operation attempts delay (remaining + 1) attempt lastError =
      match backoff delay attempt with
      | .error overflow => ⟨.error overflow, [.call]⟩
      | .ok seconds =>
          let rest := retryFrom operation attempts delay remaining (attempt + 1) (some error)
          ⟨rest.outcome, .call :: .sleep seconds :: rest.events⟩ := by
  have sleeps : (attempt : Int) < (attempts : Int) - 1 := by omega
  rw [retryFrom, raised]
  dsimp only
  rw [if_pos sleeps]

/-- After some failed calls with the sleeps that they are meant to have, the rest of the loop is
left. -/
theorem retryAsync_after {attempts failures : Nat} (within : failures < attempts)
    (failed : ∀ earlier < failures, ∃ error, operation earlier = .error error)
    (exactly : ∀ earlier < failures, ExactDelay delay earlier) :
    ∃ lastError, retryAsync operation attempts delay =
      let rest := retryFrom operation attempts delay (attempts - failures) failures lastError
      ⟨rest.outcome, retried delay failures ++ rest.events⟩ := by
  induction failures with
  | zero => exact ⟨none, rfl⟩
  | succ failures ih =>
      obtain ⟨lastError, before⟩ := ih (by omega) (fun earlier below => failed earlier (by omega))
        (fun earlier below => exactly earlier (by omega))
      obtain ⟨error, raised⟩ := failed failures (Nat.lt_succ_self _)
      have slept : backoff delay failures = .ok _ := exactly failures (Nat.lt_succ_self _)
      have left : attempts - failures = attempts - (failures + 1) + 1 := by omega
      refine ⟨some error, ?_⟩
      rw [before, left, retryFrom_failed within raised, slept, retried_succ]
      simp only [List.append_assoc, List.cons_append, List.nil_append]

/-- The run ends with a value at the first success. -/
theorem retryAsync_ok {attempts failures : Nat} {value : Value} (within : failures < attempts)
    (failed : ∀ earlier < failures, ∃ error, operation earlier = .error error)
    (exactly : ∀ earlier < failures, ExactDelay delay earlier)
    (success : operation failures = .ok value) :
    retryAsync operation attempts delay = ⟨.ok value, retrySchedule delay (failures + 1)⟩ := by
  obtain ⟨lastError, run⟩ := retryAsync_after within failed exactly
  obtain ⟨others, left⟩ := Nat.exists_eq_succ_of_ne_zero (Nat.sub_ne_zero_of_lt within)
  rw [run, left, retryFrom, success]
  rfl

/-- The run ends with the last exception when every call fails. -/
theorem retryAsync_error {failures : Nat} {error : Exn}
    (failed : ∀ earlier < failures, ∃ error, operation earlier = .error error)
    (exactly : ∀ earlier < failures, ExactDelay delay earlier)
    (final : operation failures = .error error) :
    retryAsync operation (failures + 1 : Nat) delay =
      ⟨.error error, retrySchedule delay (failures + 1)⟩ := by
  obtain ⟨lastError, run⟩ := retryAsync_after (Nat.lt_succ_self failures) failed exactly
  have noSleep : ¬ (failures : Int) < ((failures + 1 : Nat) : Int) - 1 := by omega
  have left : failures + 1 - failures = 0 + 1 := by omega
  rw [run, Nat.succ_eq_add_one, left, retryFrom, final]
  simp only [if_neg noSleep, retryFrom]
  rfl

/-- The run ends with another exception when the power of two is too large for a `float`. -/
theorem retryAsync_overflow {attempts failures : Nat} {error overflow : Exn}
    (within : failures + 1 < attempts)
    (failed : ∀ earlier < failures, ∃ error, operation earlier = .error error)
    (exactly : ∀ earlier < failures, ExactDelay delay earlier)
    (raised : operation failures = .error error)
    (overflows : backoff delay failures = .error overflow) :
    retryAsync operation attempts delay = ⟨.error overflow, retrySchedule delay (failures + 1)⟩ := by
  obtain ⟨lastError, run⟩ := retryAsync_after (Nat.lt_of_succ_lt within) failed exactly
  have left : attempts - failures = attempts - (failures + 1) + 1 := by omega
  rw [run, left, retryFrom_failed within raised, overflows]
  rfl

/-- The run comes to a sleep without end when a duration is too long for a `float`. -/
theorem retryAsync_infinite {attempts failures : Nat} {error : Exn} {negative : Bool}
    (within : failures + 1 < attempts)
    (failed : ∀ earlier < failures, ∃ error, operation earlier = .error error)
    (exactly : ∀ earlier < failures, ExactDelay delay earlier)
    (raised : operation failures = .error error)
    (infinite : backoff delay failures = .ok (.infinite negative)) :
    .sleep (.infinite negative) ∈ (retryAsync operation attempts delay).events := by
  obtain ⟨lastError, run⟩ := retryAsync_after (Nat.lt_of_succ_lt within) failed exactly
  have left : attempts - failures = attempts - (failures + 1) + 1 := by omega
  rw [run, left, retryFrom_failed within raised, infinite]
  exact List.mem_append_right _ (List.mem_cons_of_mem _ List.mem_cons_self)

/-! ## What the durations allow -/

/-- The first success within the attempts is returned at once; without one the last call's
exception is raised. -/
structure RetriesUntilSuccess (operation : Nat → Except Exn Value) (attempts : Nat) (delay : ℚ)
    (run : RetryRun Value) : Prop where
  returns : ∀ failures value, failures < attempts →
    (∀ earlier < failures, ∃ error, operation earlier = .error error) →
    operation failures = .ok value →
    run.outcome = .ok value ∧ run.calls = failures + 1 ∧
      run.events = retrySchedule delay (failures + 1)
  raises : (∀ earlier < attempts, ∃ error, operation earlier = .error error) →
    run.outcome = operation (attempts - 1) ∧ run.calls = attempts ∧
      run.events = retrySchedule delay attempts

/-- A power of two that is a `float`, and a product that is one. -/
def InRange (delay : ℚ) (index : Nat) : Prop :=
  index < 1024 ∧ |delay| * 2 ^ index ≤ Double.greatest

/-- Every sleep that falls due is in range: there is one after each failed call that no success
came before and another attempt follows. -/
def SleepsInRange (operation : Nat → Except Exn Value) (attempts : Nat) (delay : ℚ) : Prop :=
  ∀ index, index + 1 < attempts →
    (∀ earlier ≤ index, ∃ error, operation earlier = .error error) → InRange delay index

theorem backoff_eq (isDouble : Double.IsDouble delay) (index : Nat) :
    InRange delay index ∧ ExactDelay delay index ∨ ¬ InRange delay index ∧
      ((∃ overflow, backoff delay index = .error overflow) ∨
        ∃ negative, backoff delay index = .ok (.infinite negative)) := by
  unfold ExactDelay InRange backoff
  rw [Double.ofExact_mul_two_pow isDouble]
  by_cases large : 1024 ≤ index
  · rw [if_pos large]
    exact .inr ⟨fun inRange => absurd inRange.1 (Nat.not_lt.mpr large), .inl ⟨_, rfl⟩⟩
  · rw [if_neg large]
    by_cases fits : |delay| * 2 ^ index ≤ Double.greatest
    · rw [if_pos fits]
      exact .inl ⟨⟨Nat.not_le.mp large, fits⟩, rfl⟩
    · rw [if_neg fits]
      exact .inr ⟨fun inRange => absurd inRange.2 fits, .inr ⟨_, rfl⟩⟩

/-- By the semantics above, a run with a failed call has more calls than that one if another
attempt follows. -/
theorem RetriesUntilSuccess.goesOn {attempts failures : Nat} {run : RetryRun Value}
    (retries : RetriesUntilSuccess operation attempts delay run) (within : failures + 1 < attempts)
    (failed : ∀ earlier ≤ failures, ∃ error, operation earlier = .error error) :
    ∃ calls, failures + 1 < calls ∧ run.events = retrySchedule delay calls := by
  classical
  by_cases some : ∃ call value, operation call = .ok value
  · obtain ⟨value, success⟩ := Nat.find_spec some
    have before : ∀ earlier < Nat.find some, ∃ error, operation earlier = .error error := by
      intro earlier below
      cases called : operation earlier with
      | error error => exact ⟨error, rfl⟩
      | ok value => exact absurd ⟨value, called⟩ (Nat.find_min some below)
    have later : failures < Nat.find some := by
      by_contra notLater
      obtain ⟨error, raised⟩ := failed (Nat.find some) (Nat.not_lt.mp notLater)
      rw [success] at raised
      cases raised
    by_cases inTime : Nat.find some < attempts
    · obtain ⟨-, -, events⟩ := retries.returns _ _ inTime before success
      exact ⟨_, by omega, events⟩
    · obtain ⟨-, -, events⟩ := retries.raises fun earlier below => before earlier (by omega)
      exact ⟨_, within, events⟩
  · have all : ∀ call, ∃ error, operation call = .error error := by
      intro call
      cases called : operation call with
      | error error => exact ⟨error, rfl⟩
      | ok value => exact absurd ⟨call, value, called⟩ some
    obtain ⟨-, -, events⟩ := retries.raises fun earlier _ => all earlier
    exact ⟨_, within, events⟩

/-- The retries are as they are meant to be exactly if every sleep that falls due is in range. -/
theorem retries_until_success_iff (operation : Nat → Except Exn Value) (attempts : Nat)
    (positive : 1 ≤ attempts) (delay : ℚ) (isDouble : Double.IsDouble delay) :
    RetriesUntilSuccess operation attempts delay (retryAsync operation attempts delay) ↔
      SleepsInRange operation attempts delay := by
  constructor
  · intro retries
    by_contra outOfRange
    -- the first sleep that is out of range, after which the run is not what it should be
    have some : ∃ index, index + 1 < attempts ∧
        (∀ earlier ≤ index, ∃ error, operation earlier = .error error) ∧ ¬ InRange delay index := by
      simpa only [SleepsInRange, not_forall, exists_prop] using outOfRange
    classical
    obtain ⟨within, failed, tooLarge⟩ := Nat.find_spec some
    have exactly : ∀ earlier < Nat.find some, ExactDelay delay earlier := by
      intro earlier below
      rcases backoff_eq isDouble earlier with ⟨-, exactly⟩ | ⟨large, -⟩
      · exact exactly
      · exact absurd ⟨by omega, fun before within => failed before (by omega), large⟩
          (Nat.find_min some below)
    have before : ∀ earlier < Nat.find some, ∃ error, operation earlier = .error error :=
      fun earlier below => failed earlier below.le
    obtain ⟨error, raised⟩ := failed _ le_rfl
    obtain ⟨calls, more, events⟩ := retries.goesOn within failed
    rcases backoff_eq isDouble (Nat.find some) with
      ⟨inRange, -⟩ | ⟨-, ⟨overflow, overflows⟩ | ⟨negative, infinite⟩⟩
    · exact tooLarge inRange
    · rw [retryAsync_overflow within before exactly raised overflows] at events
      have counts := congrArg (List.count .call) events
      rw [count_call_retrySchedule delay (Nat.succ_pos _),
        count_call_retrySchedule delay (by omega)] at counts
      omega
    · have slept := retryAsync_infinite within before exactly raised infinite
      rw [events] at slept
      exact infinite_notMem_retrySchedule delay calls negative slept
  · intro inRange
    have exactly : ∀ index, index + 1 < attempts →
        (∀ earlier ≤ index, ∃ error, operation earlier = .error error) → ExactDelay delay index := by
      intro index within failed
      rcases backoff_eq isDouble index with ⟨-, exactly⟩ | ⟨large, -⟩
      · exact exactly
      · exact absurd (inRange index within failed) large
    constructor
    · intro failures value within failed success
      rw [retryAsync_ok within failed (fun index below => exactly index (by omega)
        fun earlier inFront => failed earlier (by omega)) success]
      exact ⟨rfl, count_call_retrySchedule delay (Nat.succ_pos _), rfl⟩
    · intro failed
      obtain ⟨before, rfl⟩ := Nat.exists_eq_add_of_le' positive
      obtain ⟨last, raised⟩ := failed before (Nat.lt_succ_self _)
      rw [retryAsync_error (fun earlier below => failed earlier (by omega))
        (fun index below => exactly index (by omega)
          fun earlier inFront => failed earlier (by omega)) raised,
        Nat.add_sub_cancel, raised]
      exact ⟨rfl, count_call_retrySchedule delay (Nat.succ_pos _), rfl⟩

end Retries

/-- The loop retries as it is meant to, whatever the operation, the attempts and the delay. -/
def AlwaysRetriesUntilSuccess : Prop :=
  ∀ (operation : Nat → Except Exn Nat) (attempts : Nat) (delay : ℚ), 1 ≤ attempts →
    Double.IsDouble delay →
    RetriesUntilSuccess operation attempts delay (retryAsync operation attempts delay)

theorem isDouble_zero : Double.IsDouble 0 :=
  ⟨0, 0, by decide, by decide, by norm_num, by norm_num [Double.greatest]⟩

/-- An operation that always fails, with 1026 attempts and no delay: the 1025th call is the last
one, and what is raised is no exception of the operation. -/
theorem not_alwaysRetriesUntilSuccess : ¬ AlwaysRetriesUntilSuccess := by
  intro always
  have retries := always (fun _ => .error .timeoutError) 1026 0 (by decide) isDouble_zero
  have exactly : ∀ earlier < 1024, ExactDelay 0 earlier := by
    intro earlier below
    rcases backoff_eq isDouble_zero earlier with ⟨-, exactly⟩ | ⟨large, -⟩
    · exact exactly
    · exact absurd ⟨below, by norm_num [Double.greatest]⟩ large
  have run := @retryAsync_overflow Nat (fun _ => .error .timeoutError) 0 1026 1024 .timeoutError
    .overflowError (by decide) (fun _ _ => ⟨_, rfl⟩) exactly rfl rfl
  obtain ⟨outcome, -, -⟩ := retries.raises fun _ _ => ⟨_, rfl⟩
  have raised := congrArg RetryRun.outcome run
  rw [outcome] at raised
  revert raised
  decide

theorem isDouble_defaultInitialDelay : Double.IsDouble defaultInitialDelay := by
  refine ⟨3602879701896397, -56, by decide, by decide, ?_, by decide +kernel⟩
  have value : defaultInitialDelay = 3602879701896397 / 72057594037927936 := by decide +kernel
  rw [value]
  norm_num

/-- Two failures, then a value at the last attempt, after the two sleeps. -/
theorem retries_until_success_iff_third :
    let operation : Nat → Except Exn Nat := fun call =>
      if call < 2 then .error .timeoutError else .ok call
    (retryAsync operation 3 defaultInitialDelay).outcome = .ok 2 ∧
      (retryAsync operation 3 defaultInitialDelay).events =
        [.call, .sleep (.finite defaultInitialDelay), .call,
          .sleep (.finite (defaultInitialDelay * 2)), .call] := by
  intro operation
  have inRange : SleepsInRange operation 3 defaultInitialDelay := by
    intro index within _
    have fits : |defaultInitialDelay| * 2 ^ 1 ≤ Double.greatest := by decide +kernel
    refine ⟨by omega, le_trans ?_ fits⟩
    exact mul_le_mul_of_nonneg_left (pow_le_pow_right₀ (by decide) (by omega)) (abs_nonneg _)
  have retries := (retries_until_success_iff operation 3 (by decide) defaultInitialDelay
    isDouble_defaultInitialDelay).mpr inRange
  have failed : ∀ earlier < 2, ∃ error, operation earlier = .error error :=
    fun _ below => ⟨_, if_pos below⟩
  obtain ⟨outcome, _, events⟩ := retries.returns 2 2 (by decide) failed rfl
  refine ⟨outcome, events.trans ?_⟩
  simp [retrySchedule, retried, List.range_succ]

end EvaluationService
