import EvaluationService.Core.RateLimitBounds

/-!
How many checks one window admits. The check that opens a window is admitted without a look
at the limit; the ones after it are compared with the limit.
-/

set_option autoImplicit false

namespace EvaluationService

namespace InMemoryRateLimiter

/-- A check of the key at this time starts a new window. -/
def opens (limiter : InMemoryRateLimiter) (now : ℚ) (key : String) : Bool :=
  match limiter.counters key with
  | none => true
  | some counter => limiter.windowSeconds ≤ now - counter.windowStart

/-- The admitted checks of a key, one list for each window from the one that is open on. -/
def windows (limiter : InMemoryRateLimiter) (key : String) (admitted : List LimitCheck) :
    List LimitCheck → List (List LimitCheck)
  | [] => [admitted]
  | check :: rest =>
      let (decision, next) := limiter.check check.now check.key check.limit
      if check.key ≠ key then next.windows key admitted rest
      else if limiter.opens check.now key then
        admitted :: next.windows key (if decision.isOk then [check] else []) rest
      else next.windows key (if decision.isOk then admitted ++ [check] else admitted) rest

variable {limiter : InMemoryRateLimiter} {now : ℚ} {key : String} {limit : Int}
variable {admitted checks : List LimitCheck}

/-! ## One check -/

theorem check_of_opens (opening : limiter.opens now key = true) (limit : Int) :
    limiter.check now key limit = (.ok (), limiter.store key { windowStart := now, count := 1 }) := by
  rw [opens] at opening
  rw [InMemoryRateLimiter.check]
  cases found : limiter.counters key with
  | none => rfl
  | some counter =>
      rw [found] at opening
      exact if_pos (of_decide_eq_true opening)

theorem check_of_not_opens (within : limiter.opens now key = false) (limit : Int) :
    ∃ counter, limiter.counters key = some counter ∧
      limiter.check now key limit =
        if limit ≤ counter.count then (.error (.app .rateLimitExceeded), limiter)
        else (.ok (), limiter.store key { counter with count := counter.count + 1 }) := by
  rw [opens] at within
  rw [InMemoryRateLimiter.check]
  cases found : limiter.counters key with
  | none =>
      rw [found] at within
      cases within
  | some counter =>
      rw [found] at within
      exact ⟨counter, rfl, if_neg (of_decide_eq_false within)⟩

theorem counters_store (limiter : InMemoryRateLimiter) (key : String) (counter : WindowCounter) :
    (limiter.store key counter).counters key = some counter :=
  Function.update_self _ _ _

theorem counters_check_of_ne {other : String} (different : key ≠ other) (now : ℚ) (limit : Int) :
    (limiter.check now other limit).2.counters key = limiter.counters key := by
  rw [check_eq]
  exact Function.update_of_ne different _ _

/-! ## Windows -/

/-- The counter of an open window counts what the window admitted, up to the limit. -/
def CountsWindow (limit : Int) (admitted : List LimitCheck) : Option WindowCounter → Prop
  | none => admitted = []
  | some counter => (admitted.length : Int) = counter.count ∧ counter.count ≤ limit

theorem CountsWindow.length_le {cell : Option WindowCounter} (least : 1 ≤ limit)
    (counts : CountsWindow limit admitted cell) : (admitted.length : Int) ≤ limit := by
  cases cell with
  | none =>
      obtain rfl : admitted = [] := counts
      exact Int.le_of_lt least
  | some counter => exact counts.1.trans_le counts.2

theorem windows_other {check : LimitCheck} (other : check.key ≠ key) (rest : List LimitCheck) :
    limiter.windows key admitted (check :: rest) =
      (limiter.check check.now check.key check.limit).2.windows key admitted rest := by
  rw [windows]
  exact if_pos other

theorem windows_opens {check : LimitCheck} (opening : limiter.opens check.now check.key = true)
    (rest : List LimitCheck) :
    limiter.windows check.key admitted (check :: rest) =
      admitted :: (limiter.store check.key { windowStart := check.now, count := 1 }).windows check.key
        [check] rest := by
  rw [windows, check_of_opens opening]
  exact (if_neg (not_not_intro rfl)).trans (if_pos opening)

theorem windows_within {check : LimitCheck} (within : limiter.opens check.now check.key = false)
    (rest : List LimitCheck) :
    limiter.windows check.key admitted (check :: rest) =
      (limiter.check check.now check.key check.limit).2.windows check.key
        (if (limiter.check check.now check.key check.limit).1.isOk then admitted ++ [check]
        else admitted) rest := by
  rw [windows]
  refine (if_neg (not_not_intro rfl)).trans (if_neg ?_)
  rw [within]
  exact Bool.false_ne_true

theorem windows_length_le (least : 1 ≤ limit)
    (own : ∀ check ∈ checks, check.key = key → check.limit = limit)
    (counts : CountsWindow limit admitted (limiter.counters key)) :
    ∀ window ∈ limiter.windows key admitted checks, (window.length : Int) ≤ limit := by
  induction checks generalizing limiter admitted with
  | nil =>
      intro window member
      rw [List.mem_singleton.mp member]
      exact counts.length_le least
  | cons check rest ih =>
      have ownRest : ∀ other ∈ rest, other.key = key → other.limit = limit :=
        fun other member => own other (List.mem_cons_of_mem _ member)
      by_cases isOwn : check.key = key
      swap
      · rw [windows_other isOwn]
        refine ih ownRest ?_
        rwa [counters_check_of_ne (Ne.symm isOwn)]
      obtain rfl := own check List.mem_cons_self isOwn
      subst isOwn
      cases opening : limiter.opens check.now check.key with
      | true =>
          have opened : CountsWindow check.limit [check]
              ((limiter.store check.key ⟨check.now, 1⟩).counters check.key) := by
            rw [counters_store]
            exact ⟨rfl, least⟩
          rw [windows_opens opening]
          intro window member
          rcases List.mem_cons.mp member with rfl | later
          · exact counts.length_le least
          · exact ih ownRest opened window later
      | false =>
          obtain ⟨counter, found, checked⟩ := check_of_not_opens opening check.limit
          have counted := counts
          rw [found] at counted
          rw [windows_within opening, checked]
          by_cases full : check.limit ≤ counter.count
          · rw [if_pos full]
            exact ih ownRest counts
          · rw [if_neg full]
            refine ih ownRest ?_
            rw [counters_store]
            refine ⟨?_, not_le.mp full⟩
            rw [← counted.1]
            exact congrArg Int.ofNat List.length_append

/-- What an open window has admitted stays admitted. -/
theorem exists_window_ge :
    ∃ window ∈ limiter.windows key admitted checks, admitted.length ≤ window.length := by
  induction checks generalizing limiter admitted with
  | nil => exact ⟨admitted, List.mem_singleton_self _, le_rfl⟩
  | cons check rest ih =>
      by_cases isOwn : check.key = key
      swap
      · rw [windows_other isOwn]
        exact ih
      subst isOwn
      cases opening : limiter.opens check.now check.key with
      | true =>
          rw [windows_opens opening]
          exact ⟨admitted, List.mem_cons_self, le_rfl⟩
      | false =>
          rw [windows_within opening]
          obtain ⟨window, member, longer⟩ := @ih (limiter.check check.now check.key check.limit).2
            (if (limiter.check check.now check.key check.limit).1.isOk then admitted ++ [check]
            else admitted)
          refine ⟨window, member, Nat.le_trans ?_ longer⟩
          split
          · rw [List.length_append]
            exact Nat.le_add_right _ _
          · exact le_rfl

/-- The first check of a key is admitted. -/
theorem exists_window_pos (fresh : limiter.counters key = none)
    (checked : ∃ check ∈ checks, check.key = key) :
    ∃ window ∈ limiter.windows key admitted checks, 0 < window.length := by
  induction checks generalizing limiter with
  | nil =>
      obtain ⟨_, member, _⟩ := checked
      cases member
  | cons check rest ih =>
      by_cases isOwn : check.key = key
      · subst isOwn
        have opening : limiter.opens check.now check.key = true := by rw [opens, fresh]
        rw [windows_opens opening]
        obtain ⟨window, member, longer⟩ := @exists_window_ge
          (limiter.store check.key ⟨check.now, 1⟩) check.key [check] rest
        exact ⟨window, List.mem_cons_of_mem _ member, longer⟩
      · rw [windows_other isOwn]
        refine ih ?_ ?_
        · rw [counters_check_of_ne (Ne.symm isOwn), fresh]
        · obtain ⟨other, member, otherOwn⟩ := checked
          rcases List.mem_cons.mp member with rfl | later
          · exact absurd otherOwn isOwn
          · exact ⟨other, later, otherOwn⟩

theorem windows_of_unchecked (unchecked : ∀ check ∈ checks, check.key ≠ key) :
    limiter.windows key admitted checks = [admitted] := by
  induction checks generalizing limiter with
  | nil => rfl
  | cons check rest ih =>
      rw [windows_other (unchecked check List.mem_cons_self)]
      exact ih fun other member => unchecked other (List.mem_cons_of_mem _ member)

end InMemoryRateLimiter

/-- No window of the key admits more checks than a limit, or any at all under a limit below one. -/
def LimitsWindows (windowSeconds limit : Int) (key : String) (checks : List LimitCheck) : Prop :=
  ∀ window ∈ InMemoryRateLimiter.windows { windowSeconds := windowSeconds } key [] checks,
    (window.length : Int) ≤ max limit 0

/-- Windows keep within a limit that is positive, and within another one only where the key is
never checked. -/
theorem limits_windows_iff (windowSeconds limit : Int) (key : String) (checks : List LimitCheck)
    (own : ∀ check ∈ checks, check.key = key → check.limit = limit) :
    LimitsWindows windowSeconds limit key checks ↔
      1 ≤ limit ∨ ∀ check ∈ checks, check.key ≠ key := by
  constructor
  · intro limits
    by_contra neither
    push Not at neither
    obtain ⟨below, checked⟩ := neither
    obtain ⟨window, member, positive⟩ :=
      @InMemoryRateLimiter.exists_window_pos { windowSeconds := windowSeconds } key [] checks rfl
        checked
    have bound := limits window member
    omega
  · rintro (least | unchecked) window member
    · have bound := @InMemoryRateLimiter.windows_length_le { windowSeconds := windowSeconds } key limit
        [] checks least own rfl window member
      omega
    · rw [InMemoryRateLimiter.windows_of_unchecked unchecked] at member
      rw [List.mem_singleton.mp member]
      exact le_max_right limit 0

/-- Two checks in the first window, of which the second is refused, and one in the next. -/
theorem limits_windows_iff_two_windows :
    let checks : List LimitCheck := [⟨0, "acme", 1⟩, ⟨30, "acme", 1⟩, ⟨60, "acme", 1⟩]
    LimitsWindows 60 1 "acme" checks ∧
      (InMemoryRateLimiter.windows { } "acme" [] checks).map List.length = [0, 1, 1] := by
  intro checks
  exact ⟨(limits_windows_iff 60 1 "acme" checks (by decide)).mpr (.inl le_rfl), by decide +kernel⟩

/-- Under a limit of zero the check that opens a window is admitted. -/
theorem not_limitsWindows :
    ¬ ∀ windowSeconds limit key checks, 0 < windowSeconds →
      (∀ check ∈ checks, check.key = key → check.limit = limit) →
      (checkedAt key checks).Pairwise (· ≤ ·) → LimitsWindows windowSeconds limit key checks := by
  intro always
  have limits := always 60 0 "acme" [⟨0, "acme", 0⟩] (by decide) (by decide) (by decide)
  have windows : InMemoryRateLimiter.windows { windowSeconds := 60 } "acme" [] [⟨0, "acme", 0⟩] =
      [[], [⟨0, "acme", 0⟩]] := rfl
  rw [LimitsWindows, windows] at limits
  have admitted := limits [⟨0, "acme", 0⟩] (by simp)
  revert admitted
  decide

end EvaluationService
