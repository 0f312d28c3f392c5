import Mathlib.Algebra.Group.Nat.Defs
import Mathlib.Data.Int.Log
import Mathlib.Data.Nat.Log
import Mathlib.Data.Rat.Floor

/-!
Numbers in double precision. A quotient of integers is rounded once, to the nearest double,
ties to even; near the next integer it may be rounded up to it, and so its integer part. A
natural number below `2 ^ 53` is a double itself.
-/

set_option autoImplicit false

namespace Foundation.Double

def roundHalfEven (numerator denominator : Nat) : Nat :=
  let quotient := numerator / denominator
  let double := 2 * (numerator % denominator)
  if double < denominator then quotient
  else if denominator < double then quotient + 1
  else quotient + quotient % 2

/-- The doubles next to a quotient of at least one and less than `2 ^ 53` are the multiples of
`1 / spacing`. -/
def spacing (numerator denominator : Nat) : Nat :=
  2 ^ (52 - (numerator / denominator).log2)

def floorQuotient (numerator denominator : Nat) : Nat :=
  roundHalfEven (numerator * spacing numerator denominator) denominator /
    spacing numerator denominator

variable {numerator denominator bound : Nat}

theorem le_roundHalfEven (least : bound ≤ numerator / denominator) :
    bound ≤ roundHalfEven numerator denominator := by
  unfold roundHalfEven
  dsimp only
  split
  · exact least
  · split <;> omega

theorem roundHalfEven_lt (positive : 0 < denominator)
    (below : 2 * numerator + denominator < 2 * (bound * denominator)) :
    roundHalfEven numerator denominator < bound := by
  have divided := Nat.div_add_mod numerator denominator
  have quotientBelow : denominator * (numerator / denominator) < denominator * bound := by
    rw [Nat.mul_comm denominator bound]
    omega
  have less := Nat.lt_of_mul_lt_mul_left quotientBelow
  unfold roundHalfEven
  dsimp only
  split
  · exact less
  · -- rounding up reaches `bound` only from the last half below it
    rename_i half
    have nextBelow : numerator / denominator + 1 < bound := by
      by_contra reaches
      have last : bound = numerator / denominator + 1 := by omega
      rw [last, Nat.add_mul, Nat.one_mul, Nat.mul_comm _ denominator] at below
      omega
    split <;> omega

theorem roundHalfEven_le (positive : 0 < denominator)
    (above : numerator ≤ bound * denominator) : roundHalfEven numerator denominator ≤ bound := by
  rcases Nat.lt_or_ge numerator (bound * denominator) with below | least
  · have less : numerator / denominator < bound := (Nat.div_lt_iff_lt_mul positive).mpr below
    unfold roundHalfEven
    dsimp only
    split
    · omega
    · split <;> omega
  · have exactly : numerator = bound * denominator := by omega
    rw [roundHalfEven, exactly, Nat.mul_div_cancel _ positive, Nat.mul_mod_left]
    simp [positive]

theorem roundHalfEven_of_dvd (positive : 0 < denominator) (divides : denominator ∣ numerator) :
    roundHalfEven numerator denominator = numerator / denominator := by
  rw [roundHalfEven, Nat.mod_eq_zero_of_dvd divides]
  simp [positive]

/-- Rounding to multiples keeps exactly the multiples. -/
theorem roundHalfEven_mul_eq_iff (positive : 0 < denominator) :
    roundHalfEven numerator denominator * denominator = numerator ↔ denominator ∣ numerator := by
  constructor
  · intro exactly
    exact ⟨_, exactly.symm.trans (Nat.mul_comm _ _)⟩
  · intro divides
    rw [roundHalfEven_of_dvd positive divides, Nat.div_mul_cancel divides]

theorem spacing_pos : 0 < spacing numerator denominator :=
  Nat.two_pow_pos _

/-- The rounding never leaves the interval between two neighbouring integers. -/
theorem floorQuotient_bounds (positive : 0 < denominator) :
    numerator / denominator ≤ floorQuotient numerator denominator ∧
      floorQuotient numerator denominator ≤ (numerator + denominator - 1) / denominator := by
  constructor
  · rw [floorQuotient, Nat.le_div_iff_mul_le spacing_pos]
    apply le_roundHalfEven
    rw [Nat.le_div_iff_mul_le positive]
    calc numerator / denominator * spacing numerator denominator * denominator
        = numerator / denominator * denominator * spacing numerator denominator := by
          rw [Nat.mul_right_comm]
      _ ≤ numerator * spacing numerator denominator :=
          Nat.mul_le_mul_right _ (Nat.div_mul_le_self _ _)
  · rw [floorQuotient]
    apply Nat.div_le_of_le_mul
    apply roundHalfEven_le positive
    have rounded : numerator ≤ (numerator + denominator - 1) / denominator * denominator := by
      have divided := Nat.div_add_mod (numerator + denominator - 1) denominator
      have remainder := Nat.mod_lt (numerator + denominator - 1) positive
      rw [Nat.mul_comm] at divided
      omega
    calc numerator * spacing numerator denominator
        ≤ (numerator + denominator - 1) / denominator * denominator *
            spacing numerator denominator := Nat.mul_le_mul_right _ rounded
      _ = spacing numerator denominator * ((numerator + denominator - 1) / denominator) *
            denominator := by rw [Nat.mul_right_comm, Nat.mul_comm (spacing _ _)]

/-- Where the doubles are closer together than the quotients by one denominator, the rounding
does not reach the next integer. -/
theorem floorQuotient_eq (positive : 0 < denominator)
    (dense : denominator < 2 * spacing numerator denominator) :
    floorQuotient numerator denominator = numerator / denominator := by
  apply le_antisymm
  · rw [← Nat.lt_add_one_iff, floorQuotient, Nat.div_lt_iff_lt_mul spacing_pos]
    apply roundHalfEven_lt positive
    have short : numerator + 1 ≤ (numerator / denominator + 1) * denominator := by
      have divided := Nat.div_add_mod numerator denominator
      have remainder := Nat.mod_lt numerator positive
      rw [Nat.add_mul, Nat.one_mul, Nat.mul_comm]
      omega
    have scaled := Nat.mul_le_mul_right (spacing numerator denominator) short
    rw [Nat.add_mul, Nat.one_mul, Nat.mul_right_comm] at scaled
    omega
  · exact (floorQuotient_bounds positive).1

theorem lt_two_mul_spacing {exponent : Nat} (small : numerator / denominator < 2 ^ (exponent + 1))
    (fits : denominator < 2 ^ (53 - exponent)) (representable : exponent ≤ 52) :
    denominator < 2 * spacing numerator denominator := by
  have bounded : (numerator / denominator).log2 ≤ exponent := by
    by_cases zero : numerator / denominator = 0
    · rw [zero]
      exact Nat.zero_le _
    · exact Nat.lt_succ_iff.mp ((Nat.log2_lt zero).mpr small)
  calc denominator < 2 ^ (53 - exponent) := fits
    _ = 2 ^ (52 - exponent + 1) := by rw [show 53 - exponent = 52 - exponent + 1 by omega]
    _ ≤ 2 ^ (52 - (numerator / denominator).log2 + 1) :=
        Nat.pow_le_pow_right (by decide) (by omega)
    _ = 2 * spacing numerator denominator := by rw [spacing, Nat.pow_succ, Nat.mul_comm]

/-! ## The nearest double -/

/-- The double nearest to a value, ties to even. Exponents are not bounded above. -/
def nearest (value : ℚ) : ℚ :=
  let unit : ℚ := 2 ^ max (Int.log 2 |value| - 52) (-1074)
  let scaled := |value| / unit
  let magnitude := roundHalfEven scaled.num.natAbs scaled.den * unit
  if value < 0 then -magnitude else magnitude

/-- A value of at most 53 binary digits, at an exponent that is not too small, is its own nearest
double. -/
theorem nearest_of_digits {digits exponent : Int} (short : |digits| < 2 ^ 53)
    (least : -1074 ≤ exponent) :
    nearest ((digits : ℚ) * 2 ^ exponent) = (digits : ℚ) * 2 ^ exponent := by
  have base : (0 : ℚ) < 2 ^ exponent := zpow_pos (by decide) exponent
  by_cases zero : digits = 0
  · subst zero
    simp [nearest, roundHalfEven]
  have magnitude : |(digits : ℚ) * 2 ^ exponent| = (digits.natAbs : ℚ) * 2 ^ exponent := by
    rw [abs_mul, abs_of_pos base, Nat.cast_natAbs, Int.cast_abs]
  have positive : 0 < |(digits : ℚ) * 2 ^ exponent| := by
    rw [abs_pos]
    exact mul_ne_zero (Int.cast_ne_zero.mpr zero) base.ne'
  -- the digits leave the last place of the value at their exponent or below it
  have below : Int.log 2 |(digits : ℚ) * 2 ^ exponent| < 53 + exponent := by
    rw [← Int.lt_zpow_iff_log_lt (by decide) positive, magnitude, Nat.cast_ofNat,
      zpow_add₀ (by decide)]
    refine mul_lt_mul_of_pos_right ?_ base
    rw [Nat.cast_natAbs]
    exact_mod_cast short
  obtain ⟨shift, isShift⟩ := Int.eq_ofNat_of_zero_le
    (show 0 ≤ exponent - max (Int.log 2 |(digits : ℚ) * 2 ^ exponent| - 52) (-1074) by omega)
  generalize last : max (Int.log 2 |(digits : ℚ) * 2 ^ exponent| - 52) (-1074) = place at isShift
  have places : exponent = place + shift := by omega
  have unit : (0 : ℚ) < 2 ^ place := zpow_pos (by decide) place
  have scaled : |(digits : ℚ) * 2 ^ exponent| / 2 ^ place =
      ((digits.natAbs * 2 ^ shift : Nat) : ℚ) := by
    rw [magnitude, places, zpow_add₀ (by decide), zpow_natCast]
    push_cast
    field_simp
  unfold nearest
  dsimp only
  rw [last, scaled, Rat.num_natCast, Rat.den_natCast, Int.natAbs_natCast,
    roundHalfEven_of_dvd (by decide) (one_dvd _), Nat.div_one, ← scaled,
    div_mul_cancel₀ _ unit.ne']
  split
  · rename_i negative
    rw [abs_of_neg negative, neg_neg]
  · rename_i nonnegative
    exact abs_of_nonneg (not_lt.mp nonnegative)

/-- A natural number of at most 53 binary digits is a double. -/
theorem nearest_natCast {number : Nat} (small : number < 2 ^ 53) :
    nearest (number : ℚ) = number := by
  have digits := @nearest_of_digits number 0 (by simpa using Int.ofNat_lt.mpr small) (by decide)
  simpa using digits

/-! ## Overflow -/

/-- The largest double. -/
def greatest : ℚ := (2 ^ 53 - 1) * 2 ^ 971

inductive Extended where
  | finite (value : ℚ)
  | infinite (negative : Bool)
deriving DecidableEq

/-- What an operation returns for its exact result: the nearest double, or an infinity past the
largest one. -/
def ofExact (value : ℚ) : Extended :=
  if |nearest value| ≤ greatest then .finite (nearest value) else .infinite (decide (value < 0))

def IsDouble (value : ℚ) : Prop :=
  ∃ digits exponent : Int, |digits| < 2 ^ 53 ∧ -1074 ≤ exponent ∧
    value = (digits : ℚ) * 2 ^ exponent ∧ |value| ≤ greatest

/-- A double times a power of two is exact as long as it is in range. -/
theorem ofExact_mul_two_pow {value : ℚ} (isDouble : IsDouble value) (count : Nat) :
    ofExact (value * 2 ^ count) =
      if |value| * 2 ^ count ≤ greatest then .finite (value * 2 ^ count)
      else .infinite (decide (value * 2 ^ count < 0)) := by
  obtain ⟨digits, exponent, short, least, rfl, -⟩ := isDouble
  have moved : (digits : ℚ) * 2 ^ exponent * 2 ^ count =
      (digits : ℚ) * 2 ^ (exponent + (count : Int)) := by
    rw [zpow_add₀ (by decide), zpow_natCast, mul_assoc]
  have exactly : nearest ((digits : ℚ) * 2 ^ exponent * 2 ^ count) =
      (digits : ℚ) * 2 ^ exponent * 2 ^ count := by
    rw [moved]
    exact nearest_of_digits short (by omega)
  have magnitude : |(digits : ℚ) * 2 ^ exponent * 2 ^ count| =
      |(digits : ℚ) * 2 ^ exponent| * 2 ^ count := by
    rw [abs_mul, abs_of_pos (pow_pos (by decide) count : (0 : ℚ) < 2 ^ count)]
  rw [ofExact, exactly, magnitude]

end Foundation.Double
