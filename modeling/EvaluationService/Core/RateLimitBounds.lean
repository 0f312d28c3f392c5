import Mathlib.Tactic.Linarith
import EvaluationService.Core.RateLimitProperties

/-!
How many checks of one key a limiter admits. A window opens at the first check after the
last one has expired, so an interval of the window's length can meet two windows: of the
first one it misses at least the check that opened it.
-/

set_option autoImplicit false

namespace EvaluationService

structure LimitCheck where
  now : ℚ
  key : String
  limit : Int

/-- The checks of a sequence with the decisions on them. -/
def InMemoryRateLimiter.checks (limiter : InMemoryRateLimiter) :
    List LimitCheck → List (LimitCheck × Except Exn Unit)
  | [] => []
  | check :: rest =>
      let (decision, next) := limiter.check check.now check.key check.limit
      (check, decision) :: next.checks rest

/-- The times at which a key is checked. -/
def checkedAt (key : String) (checks : List LimitCheck) : List ℚ :=
  (checks.filter (·.key = key)).map (·.now)

/-- The times at which a key is checked and admitted. -/
def admittedAt (key : String) (log : List (LimitCheck × Except Exn Unit)) : List ℚ :=
  (log.filter fun entry => entry.1.key = key ∧ entry.2.isOk).map (·.1.now)

/-- How many of the times are in the half-open interval of some length from `start` on. -/
def countWithin (length start : ℚ) (times : List ℚ) : Nat :=
  times.countP fun time => start ≤ time ∧ time < start + length

/-! ## One counter -/

section Counter

variable {length now : ℚ} {limit : Int} {checked admitted : List ℚ} {counter : WindowCounter}

/-- What a counter stands for, by the times at which its key was checked and admitted. -/
structure WindowCounter.Sound (length : ℚ) (limit : Int) (checked admitted : List ℚ)
    (counter : WindowCounter) : Prop where
  sublist : admitted.Sublist checked
  opened : counter.windowStart ∈ admitted
  limited : counter.count ≤ limit
  counted : (admitted.countP (counter.windowStart ≤ ·) : Int) = counter.count
  within : ∀ time ∈ admitted, time < counter.windowStart + length
  /-- Of the window before it, an interval that meets both misses the check that opened it. -/
  before : ∀ start, counter.windowStart - length < start →
    (admitted.countP (fun time => start ≤ time ∧ time < counter.windowStart) : Int) ≤ limit - 1
  spread : ∀ start, (countWithin length start admitted : Int) ≤ 2 * limit - 1

theorem countWithin_concat (length start : ℚ) (times : List ℚ) (time : ℚ) :
    countWithin length start (times ++ [time]) =
      countWithin length start times + if start ≤ time ∧ time < start + length then 1 else 0 := by
  unfold countWithin
  rw [List.countP_append, List.countP_singleton]
  simp

/-- An interval splits the admitted times at the opening of the window. -/
theorem countWithin_le (length start opening : ℚ) (times : List ℚ) :
    countWithin length start times ≤
      times.countP (fun time => start ≤ time ∧ time < opening) + times.countP (opening ≤ ·) := by
  unfold countWithin
  induction times with
  | nil => simp
  | cons time rest ih =>
      simp only [List.countP_cons, decide_eq_true_eq]
      by_cases early : time < opening
      · have late : ¬ opening ≤ time := not_le.mpr early
        by_cases inside : start ≤ time
        · simp only [inside, early, late, true_and, if_true, if_false]
          split <;> omega
        · simp only [inside, false_and, if_false, Nat.add_zero, late]
          exact ih
      · have late : opening ≤ time := not_lt.mp early
        simp only [late, early, and_false, if_true, if_false]
        split <;> omega

/-- The check that opened the window is in none of the intervals that start after it. -/
theorem countP_lt_of_opened {opening start : ℚ} {times : List ℚ} (opened : opening ∈ times)
    (later : opening < start) (finish : ℚ) :
    times.countP (fun time => start ≤ time ∧ time < finish) < times.countP (opening ≤ ·) := by
  induction times with
  | nil => cases opened
  | cons time rest ih =>
      simp only [List.countP_cons, decide_eq_true_eq]
      have fewer : rest.countP (fun time => start ≤ time ∧ time < finish) ≤
          rest.countP (opening ≤ ·) := by
        apply List.countP_mono_left
        intro other _ inside
        simp only [decide_eq_true_eq] at inside ⊢
        exact later.le.trans inside.1
      rcases List.mem_cons.mp opened with rfl | inRest
      · simp only [not_le.mpr later, false_and, if_false, le_refl, if_true]
        omega
      · have less := ih inRest
        by_cases inside : start ≤ time ∧ time < finish
        · rw [if_pos inside, if_pos (later.le.trans inside.1)]
          omega
        · rw [if_neg inside]
          split <;> omega

namespace WindowCounter.Sound

theorem rejects (sound : counter.Sound length limit checked admitted) :
    counter.Sound length limit (checked ++ [now]) admitted :=
  { sound with sublist := sound.sublist.trans (List.sublist_append_left checked [now]) }

theorem opens (positive : 0 < length) (least : 1 ≤ limit) (now : ℚ) :
    Sound length limit [now] [now] ⟨now, 1⟩ := by
  refine ⟨List.Sublist.refl _, List.mem_singleton_self _, least, by simp, ?_, ?_, ?_⟩
  · intro time member
    rw [List.mem_singleton.mp member]
    dsimp only
    linarith
  · intro start _
    simpa using least
  · intro start
    have few : countWithin length start [now] ≤ 1 := List.countP_le_length
    omega

theorem admits (sound : counter.Sound length limit checked admitted)
    (latest : ∀ time ∈ checked, time ≤ now) (unexpired : now - counter.windowStart < length)
    (below : counter.count < limit) :
    Sound length limit (checked ++ [now]) (admitted ++ [now])
      { counter with count := counter.count + 1 } := by
  have opening : counter.windowStart ≤ now := latest _ (sound.sublist.subset sound.opened)
  have counted := sound.counted
  refine ⟨sound.sublist.append (List.Sublist.refl _), List.mem_append_left _ sound.opened, ?_, ?_, ?_,
    ?_, ?_⟩
  · dsimp only
    omega
  · dsimp only
    rw [List.countP_append, List.countP_singleton]
    simp [opening, counted]
  · intro time member
    rcases List.mem_append.mp member with earlier | last
    · exact sound.within time earlier
    · rw [List.mem_singleton.mp last]
      dsimp only
      linarith
  · intro start later
    dsimp only at later ⊢
    rw [List.countP_append, List.countP_singleton]
    simpa [not_lt.mpr opening] using sound.before start later
  · intro start
    rw [countWithin_concat]
    split
    · rename_i inside
      have split := countWithin_le length start counter.windowStart admitted
      have before := sound.before start (by linarith [inside.2])
      omega
    · simpa using sound.spread start

theorem reopens (positive : 0 < length) (least : 1 ≤ limit)
    (sound : counter.Sound length limit checked admitted)
    (expired : length ≤ now - counter.windowStart) :
    Sound length limit (checked ++ [now]) (admitted ++ [now]) ⟨now, 1⟩ := by
  have earlier : ∀ time ∈ admitted, time < now := by
    intro time member
    have within := sound.within time member
    linarith
  have before : ∀ start, now - length < start →
      (admitted.countP (fun time => start ≤ time ∧ time < now) : Int) ≤ limit - 1 := by
    intro start later
    have less := countP_lt_of_opened sound.opened (by linarith : counter.windowStart < start) now
    have counted := sound.counted
    have limited := sound.limited
    omega
  refine ⟨sound.sublist.append (List.Sublist.refl _), List.mem_append_right _ (by simp), least, ?_,
    ?_, ?_, ?_⟩
  · have none : admitted.countP (now ≤ ·) = 0 := by
      rw [List.countP_eq_zero]
      intro time member
      simpa using earlier time member
    rw [List.countP_append, List.countP_singleton, none]
    simp
  · intro time member
    dsimp only
    rcases List.mem_append.mp member with old | last
    · linarith [earlier time old]
    · rw [List.mem_singleton.mp last]
      linarith
  · intro start later
    dsimp only at later ⊢
    rw [List.countP_append, List.countP_singleton]
    simpa using before start later
  · intro start
    rw [countWithin_concat]
    split
    · rename_i inside
      have all : countWithin length start admitted ≤
          admitted.countP fun time => start ≤ time ∧ time < now := by
        apply List.countP_mono_left
        intro time member within
        simp only [decide_eq_true_eq] at within ⊢
        exact ⟨within.1, earlier time member⟩
      have few := before start (by linarith [inside.2])
      omega
    · simpa using sound.spread start

end WindowCounter.Sound

end Counter

/-! ## Whole sequences -/

section Sequences

variable {limiter : InMemoryRateLimiter} {limit : Int} {key : String} {checked admitted : List ℚ}

/-- The counter of a key stands for the checks of the key so far. -/
def SoundCounter (length : ℚ) (limit : Int) (checked admitted : List ℚ) :
    Option WindowCounter → Prop
  | none => checked = [] ∧ admitted = []
  | some counter => counter.Sound length limit checked admitted

theorem touch_sound {windowSeconds : Int} (positive : 0 < windowSeconds) (least : 1 ≤ limit)
    {cell : Option WindowCounter} (sound : SoundCounter windowSeconds limit checked admitted cell)
    {now : ℚ} (latest : ∀ time ∈ checked, time ≤ now) :
    SoundCounter windowSeconds limit (checked ++ [now])
      (admitted ++ if (touch windowSeconds now limit cell).1.isOk then [now] else [])
      (touch windowSeconds now limit cell).2 := by
  have longer : (0 : ℚ) < windowSeconds := by exact_mod_cast positive
  cases cell with
  | none =>
      obtain ⟨rfl, rfl⟩ := sound
      exact .opens longer least now
  | some counter =>
      dsimp only [touch]
      split
      · rename_i expired
        exact WindowCounter.Sound.reopens longer least sound expired
      · rename_i unexpired
        split
        · rw [if_neg (by simp [Except.isOk, Except.toBool]), List.append_nil]
          exact WindowCounter.Sound.rejects sound
        · rename_i below
          exact WindowCounter.Sound.admits sound latest (not_le.mp unexpired) (not_le.mp below)

/-- A rejected check is one more than the limit in the window that is open. -/
theorem rejected_crowded {windowSeconds : Int} {cell : Option WindowCounter}
    (sound : SoundCounter windowSeconds limit checked admitted cell) {now : ℚ}
    (latest : ∀ time ∈ checked, time ≤ now) {error : Exn}
    (rejected : (touch windowSeconds now limit cell).1 = .error error) :
    ∃ start, limit < countWithin windowSeconds start (checked ++ [now]) := by
  cases cell with
  | none => cases rejected
  | some counter =>
      dsimp only [touch] at rejected
      split at rejected
      · cases rejected
      · rename_i unexpired
        split at rejected
        · rename_i full
          obtain ⟨sublist, opened, _, counted, within, _, _⟩ := sound
          have opening : counter.windowStart ≤ now := latest _ (sublist.subset opened)
          have inside : now < counter.windowStart + windowSeconds := by linarith
          have fewer : countWithin windowSeconds counter.windowStart admitted ≤
              countWithin windowSeconds counter.windowStart checked := sublist.countP_le
          have all : countWithin windowSeconds counter.windowStart admitted =
              admitted.countP (counter.windowStart ≤ ·) := by
            apply List.countP_congr
            intro time member
            simp [within time member]
          refine ⟨counter.windowStart, ?_⟩
          rw [countWithin_concat, if_pos ⟨opening, inside⟩]
          omega
        · cases rejected

theorem SoundCounter.spread {windowSeconds : Int} (least : 1 ≤ limit) {cell : Option WindowCounter}
    (sound : SoundCounter windowSeconds limit checked admitted cell) (start : ℚ) :
    (countWithin windowSeconds start admitted : Int) ≤ 2 * limit - 1 := by
  cases cell with
  | none =>
      rw [sound.2]
      have none : countWithin windowSeconds start [] = 0 := rfl
      omega
  | some counter => exact WindowCounter.Sound.spread sound start

variable {checks : List LimitCheck}

theorem checkedAt_cons (key : String) (check : LimitCheck) (rest : List LimitCheck) :
    checkedAt key (check :: rest) =
      (if check.key = key then [check.now] else []) ++ checkedAt key rest := by
  unfold checkedAt
  by_cases own : check.key = key <;> simp [own]

theorem admittedAt_cons (key : String) (check : LimitCheck) (decision : Except Exn Unit)
    (rest : List (LimitCheck × Except Exn Unit)) :
    admittedAt key ((check, decision) :: rest) =
      (if check.key = key ∧ decision.isOk then [check.now] else []) ++ admittedAt key rest := by
  unfold admittedAt
  by_cases own : check.key = key ∧ decision.isOk
  · rw [List.filter_cons_of_pos (by simpa using own), if_pos own]
    rfl
  · rw [List.filter_cons_of_neg (by simpa using own), if_neg own]
    rfl

theorem checks_cons (limiter : InMemoryRateLimiter) (check : LimitCheck) (rest : List LimitCheck) :
    limiter.checks (check :: rest) =
      (check, (touch limiter.windowSeconds check.now check.limit (limiter.counters check.key)).1) ::
        InMemoryRateLimiter.checks { limiter with
          counters := Function.update limiter.counters check.key
            (touch limiter.windowSeconds check.now check.limit (limiter.counters check.key)).2 }
          rest := by
  rw [InMemoryRateLimiter.checks, limiter.check_eq]

/-- The counter of the key goes on standing for the checks of the key, and as long as these are
sparse every one of them is admitted. -/
theorem checks_sound (positive : 0 < limiter.windowSeconds) (least : 1 ≤ limit)
    (own : ∀ check ∈ checks, check.key = key → check.limit = limit)
    (ordered : (checked ++ checkedAt key checks).Pairwise (· ≤ ·))
    (sound : SoundCounter limiter.windowSeconds limit checked admitted (limiter.counters key)) :
    (∃ cell, SoundCounter limiter.windowSeconds limit (checked ++ checkedAt key checks)
      (admitted ++ admittedAt key (limiter.checks checks)) cell) ∧
    ((∀ start, countWithin limiter.windowSeconds start (checked ++ checkedAt key checks) ≤ limit) →
      ∀ entry ∈ limiter.checks checks, entry.1.key = key → entry.2 = .ok ()) := by
  induction checks generalizing limiter checked admitted with
  | nil =>
      refine ⟨⟨limiter.counters key, ?_⟩, by intro _ _ member; cases member⟩
      rw [show checkedAt key [] = [] from rfl, List.append_nil]
      simpa [InMemoryRateLimiter.checks, admittedAt] using sound
  | cons check rest ih =>
      have ownRest : ∀ other ∈ rest, other.key = key → other.limit = limit :=
        fun other member => own other (List.mem_cons_of_mem _ member)
      rw [checkedAt_cons, ← List.append_assoc] at ordered ⊢
      rw [checks_cons, admittedAt_cons, ← List.append_assoc]
      by_cases isOwn : check.key = key
      · rw [if_pos isOwn] at ordered ⊢
        have latest : ∀ time ∈ checked, time ≤ check.now := by
          intro time member
          have upTo := (List.pairwise_append.mp ordered).1
          exact (List.pairwise_append.mp upTo).2.2 time member check.now (List.mem_singleton_self _)
        obtain rfl := own check List.mem_cons_self isOwn
        subst isOwn
        have kept := touch_sound positive least sound latest
        have crowded := @rejected_crowded _ _ _ _ _ sound _ latest
        generalize touch limiter.windowSeconds check.now check.limit (limiter.counters check.key) =
          touched at kept crowded ⊢
        obtain ⟨decision, cell⟩ := touched
        dsimp only at kept crowded ⊢
        rw [← Function.update_self check.key cell limiter.counters] at kept
        obtain ⟨soundLater, admittedLater⟩ := @ih ⟨limiter.windowSeconds,
          Function.update limiter.counters check.key cell⟩ _ _ positive ownRest ordered kept
        simp only [true_and]
        refine ⟨soundLater, ?_⟩
        intro sparse entry member entryOwn
        rcases List.mem_cons.mp member with rfl | later
        · cases decision with
          | ok _ => rfl
          | error error =>
              obtain ⟨start, many⟩ := crowded rfl
              have fewer : countWithin limiter.windowSeconds start (checked ++ [check.now]) ≤
                  countWithin limiter.windowSeconds start
                    (checked ++ [check.now] ++ checkedAt check.key rest) :=
                (List.sublist_append_left _ _).countP_le
              have few := sparse start
              omega
        · exact admittedLater sparse entry later entryOwn
      · rw [if_neg isOwn, List.append_nil] at ordered ⊢
        rw [if_neg fun both => isOwn both.1, List.append_nil]
        generalize touch limiter.windowSeconds check.now check.limit (limiter.counters check.key) =
          touched
        rw [← Function.update_of_ne (Ne.symm isOwn) touched.2 limiter.counters] at sound
        obtain ⟨soundLater, admittedLater⟩ := @ih ⟨limiter.windowSeconds,
          Function.update limiter.counters check.key touched.2⟩ _ _ positive ownRest ordered sound
        refine ⟨soundLater, ?_⟩
        intro sparse entry member entryOwn
        rcases List.mem_cons.mp member with rfl | later
        · exact absurd entryOwn isOwn
        · exact admittedLater sparse entry later entryOwn

end Sequences

/-- A limiter admits less than twice the limit in any interval of the window's length, rejects
nothing of a key that stays within the limit in all of them, and forgets what it rejects. -/
structure BoundsChecks (windowSeconds limit : Int) (key : String) (checks : List LimitCheck) :
    Prop where
  admits : ∀ start : ℚ, (countWithin windowSeconds start
    (admittedAt key (InMemoryRateLimiter.checks { windowSeconds := windowSeconds } checks)) : Int) ≤
      2 * limit - 1
  accepts : (∀ start : ℚ, (countWithin windowSeconds start (checkedAt key checks) : Int) ≤ limit) →
    ∀ entry ∈ InMemoryRateLimiter.checks { windowSeconds := windowSeconds } checks,
      entry.1.key = key → entry.2 = .ok ()
  forgets : ∀ (limiter : InMemoryRateLimiter) now checkKey checkLimit error,
    (limiter.check now checkKey checkLimit).1 = .error error →
      (limiter.check now checkKey checkLimit).2 = limiter

theorem InMemoryRateLimiter.check_forgets {limiter : InMemoryRateLimiter} {now : ℚ} {key : String}
    {limit : Int} {error : Exn} (rejected : (limiter.check now key limit).1 = .error error) :
    (limiter.check now key limit).2 = limiter := by
  unfold check at rejected ⊢
  split at rejected
  · cases rejected
  · rename_i counter found
    split at rejected
    · cases rejected
    · rename_i unexpired
      split at rejected
      · rename_i full
        simp only [if_neg unexpired, if_pos full]
      · cases rejected

theorem rate_limiter_bounds (windowSeconds : Int) (positive : 0 < windowSeconds) (limit : Int)
    (least : 1 ≤ limit) (key : String) (checks : List LimitCheck)
    (own : ∀ check ∈ checks, check.key = key → check.limit = limit)
    (ordered : (checkedAt key checks).Pairwise (· ≤ ·)) :
    BoundsChecks windowSeconds limit key checks := by
  have initial : SoundCounter windowSeconds limit [] [] none := ⟨rfl, rfl⟩
  obtain ⟨⟨cell, sound⟩, accepted⟩ :=
    @checks_sound { windowSeconds := windowSeconds } limit key [] [] checks positive least own ordered
      initial
  exact ⟨sound.spread least, accepted, fun _ _ _ _ _ => InMemoryRateLimiter.check_forgets⟩

/-- A window that closes late and one that opens early, with a check of another key between. -/
def straddlingChecks : List LimitCheck :=
  [⟨0, "acme", 2⟩, ⟨59, "acme", 2⟩, ⟨59, "acme", 2⟩, ⟨59, "other", 1⟩, ⟨60, "acme", 2⟩,
    ⟨61, "acme", 2⟩]

/-- The bound is reached: three checks of a key with limit two are admitted within one minute. -/
theorem rate_limiter_bounds_straddling :
    BoundsChecks 60 2 "acme" straddlingChecks ∧
      countWithin (60 : Int) 59
        (admittedAt "acme" (InMemoryRateLimiter.checks { windowSeconds := 60 } straddlingChecks)) =
          3 :=
  ⟨rate_limiter_bounds 60 (by decide) 2 (by decide) "acme" straddlingChecks (by decide) (by decide),
    by decide +kernel⟩

end EvaluationService
