import Mathlib.Algebra.Field.Rat
import Mathlib.Data.List.DropRight
import Mathlib.Data.Nat.Digits.Lemmas
import Mathlib.Data.Nat.Log
import EvaluationService.Foundation.Double

/-!
Numbers in decimal notation: the general format of C and Python with its six significant
digits, and what a printed numeral denotes. A value is rounded to six digits, half to even,
and printed in fixed notation if its exponent is at least `-4` and below six.
-/

set_option autoImplicit false

namespace Foundation.Decimal

/-- The number that digits denote, the most significant one first. -/
def ofDigits (digits : List Nat) : Nat := Nat.ofDigits 10 digits.reverse

structure Numeral where
  negative : Bool
  whole : List Nat
  fraction : List Nat
  exponent : Option Int
deriving DecidableEq, Repr

def Numeral.value (numeral : Numeral) : ℚ :=
  let magnitude := ofDigits (numeral.whole ++ numeral.fraction) *
    (10 : ℚ) ^ (numeral.exponent.getD 0 - numeral.fraction.length)
  if numeral.negative then -magnitude else magnitude

/-! ## Text -/

def digitsText (digits : List Nat) : List Char := digits.map Nat.digitChar

def naturalDigits (number : Nat) : List Nat :=
  if number = 0 then [0] else (Nat.digits 10 number).reverse

/-- The exponent has a sign and at least two digits. -/
def exponentText (exponent : Int) : List Char :=
  let digits := digitsText (naturalDigits exponent.natAbs)
  ['e', if exponent < 0 then '-' else '+'] ++ List.replicate (2 - digits.length) '0' ++ digits

def Numeral.characters (numeral : Numeral) : List Char :=
  (if numeral.negative then ['-'] else []) ++ digitsText numeral.whole ++
    (if numeral.fraction = [] then [] else '.' :: digitsText numeral.fraction) ++
    (numeral.exponent.map exponentText).getD []

/-! ## The general format -/

/-- The exponent of the leading digit of a positive quotient. -/
def leadingExponent (numerator denominator : Nat) : Int :=
  if denominator ≤ numerator then (Nat.log 10 (numerator / denominator) : Int)
  else -(Nat.clog 10 ((denominator + numerator - 1) / numerator) : Int)

/-- Six significant digits of a positive quotient and the exponent of the first of them. -/
def significant (numerator denominator : Nat) : Nat × Int :=
  let exponent := leadingExponent numerator denominator
  let digits := if exponent ≤ 5 then
      Double.roundHalfEven (numerator * 10 ^ (5 - exponent).toNat) denominator
    else Double.roundHalfEven numerator (denominator * 10 ^ (exponent - 5).toNat)
  if digits = 1000000 then (100000, exponent + 1) else (digits, exponent)

def withoutTrailingZeros (digits : List Nat) : List Nat := digits.rdropWhile (· = 0)

def layOut (digits : Nat) (exponent : Int) : Numeral :=
  let digits := (Nat.digits 10 digits).reverse
  if exponent < -4 ∨ 6 ≤ exponent then
    ⟨false, digits.take 1, withoutTrailingZeros (digits.drop 1), some exponent⟩
  else if exponent < 0 then
    ⟨false, [0], List.replicate (-exponent - 1).toNat 0 ++ withoutTrailingZeros digits, none⟩
  else
    ⟨false, digits.take (exponent.toNat + 1), withoutTrailingZeros (digits.drop (exponent.toNat + 1)),
      none⟩

def general (value : ℚ) : Numeral :=
  if value = 0 then ⟨false, [0], [], none⟩
  else
    let (digits, exponent) := significant value.num.natAbs value.den
    { layOut digits exponent with negative := value < 0 }

/-- `format(value, "g")` -/
def formatGeneral (value : ℚ) : String := String.ofList (general value).characters

/-! ## Reading -/

def digit? (character : Char) : Option Nat :=
  if '0' ≤ character ∧ character ≤ '9' then some (character.toNat - 48) else none

def digits? (characters : List Char) : Option (List Nat) := characters.mapM digit?

/-- At least one digit. -/
def someDigits? (characters : List Char) : Option (List Nat) :=
  if characters = [] then none else digits? characters

def exponent? : List Char → Option Int
  | [] => some 0
  | 'e' :: '-' :: rest => (someDigits? rest).map fun digits => -(ofDigits digits : Int)
  | 'e' :: '+' :: rest => (someDigits? rest).map fun digits => (ofDigits digits : Int)
  | 'e' :: rest => (someDigits? rest).map fun digits => (ofDigits digits : Int)
  | _ => none

def magnitude? (characters : List Char) : Option ℚ := do
  let mantissa := characters.takeWhile (· ≠ 'e')
  let whole ← someDigits? (mantissa.takeWhile (· ≠ '.'))
  let fraction ← digits? ((mantissa.dropWhile (· ≠ '.')).drop 1)
  let exponent ← exponent? (characters.dropWhile (· ≠ 'e'))
  return ofDigits (whole ++ fraction) * (10 : ℚ) ^ (exponent - fraction.length)

/-- The number that a numeral denotes. -/
def denoted? (text : String) : Option ℚ :=
  if text.toList.head? = some '-' then (magnitude? (text.toList.drop 1)).map (-·)
  else magnitude? text.toList

/-! ## What is read is what was printed -/

theorem ofDigits_append (front back : List Nat) :
    ofDigits (front ++ back) = ofDigits front * 10 ^ back.length + ofDigits back := by
  rw [ofDigits, List.reverse_append, Nat.ofDigits_append, List.length_reverse, Nat.add_comm,
    Nat.mul_comm]
  rfl

theorem ofDigits_replicate_zero (count : Nat) : ofDigits (List.replicate count 0) = 0 := by
  rw [ofDigits, List.reverse_replicate, Nat.ofDigits_replicate_zero]

theorem digitChar_cases {digit : Nat} (below : digit < 10) :
    digit? digit.digitChar = some digit ∧ digit.digitChar ≠ 'e' ∧ digit.digitChar ≠ '.' ∧
      digit.digitChar ≠ '-' ∧ digit.digitChar ≠ '+' := by
  revert digit
  decide

theorem digits?_digitsText {digits : List Nat} (below : ∀ digit ∈ digits, digit < 10) :
    digits? (digitsText digits) = some digits := by
  induction digits with
  | nil => rfl
  | cons digit rest ih =>
      have first := (digitChar_cases (below digit List.mem_cons_self)).1
      have others := ih fun other member => below other (List.mem_cons_of_mem _ member)
      rw [digits?, digitsText] at others
      rw [digits?, digitsText, List.map_cons, List.mapM_cons, first, others]
      rfl

theorem someDigits?_digitsText {digits : List Nat} (nonempty : digits ≠ [])
    (below : ∀ digit ∈ digits, digit < 10) : someDigits? (digitsText digits) = some digits := by
  have written : digitsText digits ≠ [] := by simpa [digitsText] using nonempty
  rw [someDigits?, if_neg written, digits?_digitsText below]

theorem mem_digitsText {digits : List Nat} (below : ∀ digit ∈ digits, digit < 10)
    {character : Char} (member : character ∈ digitsText digits) :
    character ≠ 'e' ∧ character ≠ '.' ∧ character ≠ '-' ∧ character ≠ '+' := by
  obtain ⟨digit, isDigit, rfl⟩ := List.mem_map.mp member
  exact (digitChar_cases (below digit isDigit)).2

theorem naturalDigits_lt {number digit : Nat} (member : digit ∈ naturalDigits number) :
    digit < 10 := by
  unfold naturalDigits at member
  split at member
  · rw [List.mem_singleton.mp member]
    decide
  · exact Nat.digits_lt_base (by decide) (List.mem_reverse.mp member)

theorem naturalDigits_ne_nil (number : Nat) : naturalDigits number ≠ [] := by
  unfold naturalDigits
  split
  · simp
  · rename_i positive
    simpa [Nat.digits_eq_nil_iff_eq_zero] using positive

theorem ofDigits_naturalDigits (number : Nat) : ofDigits (naturalDigits number) = number := by
  unfold naturalDigits
  split
  · rename_i zero
    rw [zero]
    rfl
  · rw [ofDigits, List.reverse_reverse, Nat.ofDigits_digits]

theorem exponentText_eq (exponent : Int) : ∃ zeros,
    exponentText exponent = 'e' :: (if exponent < 0 then '-' else '+') ::
      digitsText (List.replicate zeros 0 ++ naturalDigits exponent.natAbs) := by
  refine ⟨2 - (digitsText (naturalDigits exponent.natAbs)).length, ?_⟩
  rw [digitsText, List.map_append, List.map_replicate]
  rfl

theorem exponent?_exponentText (exponent : Int) :
    exponent? (exponentText exponent) = some exponent := by
  obtain ⟨zeros, written⟩ := exponentText_eq exponent
  have below : ∀ digit ∈ List.replicate zeros 0 ++ naturalDigits exponent.natAbs, digit < 10 := by
    intro digit member
    rcases List.mem_append.mp member with zero | isDigit
    · rw [List.eq_of_mem_replicate zero]
      decide
    · exact naturalDigits_lt isDigit
  have read : ofDigits (List.replicate zeros 0 ++ naturalDigits exponent.natAbs) =
      exponent.natAbs := by
    rw [ofDigits_append, ofDigits_replicate_zero, Nat.zero_mul, Nat.zero_add,
      ofDigits_naturalDigits]
  have digits := someDigits?_digitsText (by simp [naturalDigits_ne_nil]) below
  rw [written]
  by_cases negative : exponent < 0
  · rw [if_pos negative, exponent?, digits, Option.map_some, read]
    congr 1
    omega
  · rw [if_neg negative, exponent?, digits, Option.map_some, read]
    congr 1
    omega

/-- A text without the stop character, followed by nothing or by the stop character, ends
there. -/
theorem span_at {stop : Char} {front back : List Char} (absent : stop ∉ front)
    (stops : back = [] ∨ ∃ rest, back = stop :: rest) :
    (front ++ back).takeWhile (· ≠ stop) = front ∧
      (front ++ back).dropWhile (· ≠ stop) = back := by
  have goesOn : ∀ character ∈ front, decide (character ≠ stop) = true := by
    intro character member
    exact decide_eq_true fun same => absent (same ▸ member)
  rw [List.takeWhile_append_of_pos goesOn, List.dropWhile_append_of_pos goesOn]
  rcases stops with rfl | ⟨rest, rfl⟩ <;> simp

structure Numeral.Sound (numeral : Numeral) : Prop where
  nonempty : numeral.whole ≠ []
  whole : ∀ digit ∈ numeral.whole, digit < 10
  fraction : ∀ digit ∈ numeral.fraction, digit < 10

def fractionText (fraction : List Nat) : List Char :=
  if fraction = [] then [] else '.' :: digitsText fraction

theorem magnitude?_characters {numeral : Numeral} (sound : numeral.Sound) :
    magnitude? (digitsText numeral.whole ++ fractionText numeral.fraction ++
        (numeral.exponent.map exponentText).getD []) =
      some (ofDigits (numeral.whole ++ numeral.fraction) *
        (10 : ℚ) ^ (numeral.exponent.getD 0 - numeral.fraction.length)) := by
  have fractionStops : fractionText numeral.fraction = [] ∨
      ∃ rest, fractionText numeral.fraction = '.' :: rest := by
    unfold fractionText
    split
    · exact .inl rfl
    · exact .inr ⟨_, rfl⟩
  have fractionRead : digits? ((fractionText numeral.fraction).drop 1) = some numeral.fraction := by
    unfold fractionText
    split
    · rename_i none
      rw [none]
      rfl
    · exact digits?_digitsText sound.fraction
  have exponentStops : (numeral.exponent.map exponentText).getD [] = [] ∨
      ∃ rest, (numeral.exponent.map exponentText).getD [] = 'e' :: rest := by
    cases numeral.exponent with
    | none => exact .inl rfl
    | some exponent =>
        obtain ⟨zeros, written⟩ := exponentText_eq exponent
        exact .inr ⟨_, written⟩
  have exponentRead : exponent? ((numeral.exponent.map exponentText).getD []) =
      some (numeral.exponent.getD 0) := by
    cases numeral.exponent with
    | none => rfl
    | some exponent => exact exponent?_exponentText exponent
  have noPoint : '.' ∉ digitsText numeral.whole := fun member =>
    (mem_digitsText sound.whole member).2.1 rfl
  have noExponent : 'e' ∉ digitsText numeral.whole ++ fractionText numeral.fraction := by
    intro member
    rcases List.mem_append.mp member with inWhole | inFraction
    · exact (mem_digitsText sound.whole inWhole).1 rfl
    · unfold fractionText at inFraction
      split at inFraction
      · cases inFraction
      · rcases List.mem_cons.mp inFraction with isPoint | isDigit
        · cases isPoint
        · exact (mem_digitsText sound.fraction isDigit).1 rfl
  obtain ⟨mantissa, scale⟩ := span_at noExponent exponentStops
  obtain ⟨whole, fraction⟩ := span_at noPoint fractionStops
  simp only [magnitude?]
  rw [mantissa, scale, whole, fraction, someDigits?_digitsText sound.nonempty sound.whole,
    fractionRead, exponentRead]
  rfl

theorem denoted?_characters {numeral : Numeral} (sound : numeral.Sound) :
    denoted? (String.ofList numeral.characters) = some numeral.value := by
  have read := magnitude?_characters sound
  obtain ⟨first, rest, whole⟩ := List.exists_cons_of_ne_nil sound.nonempty
  have isDigit : first < 10 := sound.whole first (by rw [whole]; exact List.mem_cons_self)
  have unsigned : (digitsText numeral.whole ++ fractionText numeral.fraction ++
      (numeral.exponent.map exponentText).getD []).head? ≠ some '-' := by
    rw [whole, digitsText, List.map_cons, List.cons_append, List.cons_append, List.head?_cons]
    intro same
    exact (digitChar_cases isDigit).2.2.2.1 (Option.some.inj same)
  unfold denoted? Numeral.characters Numeral.value
  rw [String.toList_ofList]
  cases numeral.negative with
  | false =>
      rw [if_neg Bool.false_ne_true, if_neg Bool.false_ne_true, List.nil_append]
      exact (if_neg unsigned).trans read
  | true =>
      rw [if_pos rfl, if_pos rfl]
      exact congrArg (Option.map fun value : ℚ => -value) read

/-! ## The value of the general format -/

theorem exists_trailing_zeros (digits : List Nat) :
    ∃ zeros, digits = withoutTrailingZeros digits ++ List.replicate zeros 0 := by
  induction digits using List.reverseRecOn with
  | nil => exact ⟨0, rfl⟩
  | append_singleton front last ih =>
      by_cases zero : last = 0
      · obtain ⟨zeros, split⟩ := ih
        refine ⟨zeros + 1, ?_⟩
        have dropped : withoutTrailingZeros (front ++ [last]) = withoutTrailingZeros front :=
          List.rdropWhile_concat_pos _ _ _ (by simpa using zero)
        rw [dropped, List.replicate_succ', ← List.append_assoc, ← split, zero]
      · have kept : withoutTrailingZeros (front ++ [last]) = front ++ [last] :=
          List.rdropWhile_concat_neg _ _ _ (by simpa using zero)
        exact ⟨0, by rw [kept, List.replicate_zero, List.append_nil]⟩

/-- Trailing zeros of a fraction do not count. -/
theorem value_withoutTrailingZeros (front back : List Nat) (exponent : Int) :
    (ofDigits (front ++ withoutTrailingZeros back) : ℚ) *
        (10 : ℚ) ^ (exponent - (withoutTrailingZeros back).length) =
      ofDigits (front ++ back) * (10 : ℚ) ^ (exponent - back.length) := by
  obtain ⟨zeros, split⟩ := exists_trailing_zeros back
  generalize withoutTrailingZeros back = kept at split ⊢
  subst split
  rw [← List.append_assoc, ofDigits_append (front ++ kept), ofDigits_replicate_zero, Nat.add_zero,
    List.length_append, List.length_replicate, Nat.cast_mul, Nat.cast_pow, Nat.cast_ofNat, mul_assoc,
    ← zpow_natCast (10 : ℚ) zeros, ← zpow_add₀ (by norm_num : (10 : ℚ) ≠ 0)]
  congr 2
  push_cast
  ring

variable {digits : Nat}

theorem length_digits_of_six (least : 100000 ≤ digits) (most : digits < 1000000) :
    (Nat.digits 10 digits).reverse.length = 6 := by
  have leading : Nat.log 10 digits = 5 :=
    Nat.log_eq_of_pow_le_of_lt_pow (by simpa using least) (by simpa using most)
  rw [List.length_reverse, Nat.length_digits 10 digits (by decide) (by omega), leading]

theorem layOut_value (least : 100000 ≤ digits) (most : digits < 1000000) (exponent : Int) :
    (layOut digits exponent).value = digits * (10 : ℚ) ^ (exponent - 5) := by
  have six := length_digits_of_six least most
  have whole : ofDigits (Nat.digits 10 digits).reverse = digits := by
    rw [ofDigits, List.reverse_reverse, Nat.ofDigits_digits]
  unfold layOut
  dsimp only
  generalize (Nat.digits 10 digits).reverse = written at six whole ⊢
  split
  · have read := value_withoutTrailingZeros (written.take 1) (written.drop 1) exponent
    rw [List.take_append_drop, List.length_drop, six, whole] at read
    exact read
  · split
    · have read := value_withoutTrailingZeros
        ([0] ++ List.replicate (-exponent - 1).toNat 0) written (-((-exponent - 1).toNat : Int))
      have zeros : ofDigits ([0] ++ List.replicate (-exponent - 1).toNat 0 ++ written) = digits := by
        rw [ofDigits_append, ofDigits_append, ofDigits_replicate_zero, whole]
        simp [ofDigits]
      rw [zeros, six, List.append_assoc] at read
      have places : -((-exponent - 1).toNat : Int) - 6 = exponent - 5 := by omega
      rw [Nat.cast_ofNat, places] at read
      have lengths : (0 : Int) -
          (List.replicate (-exponent - 1).toNat 0 ++ withoutTrailingZeros written).length =
          -((-exponent - 1).toNat : Int) - (withoutTrailingZeros written).length := by
        rw [List.length_append, List.length_replicate]
        omega
      rw [← lengths] at read
      exact read
    · have read := value_withoutTrailingZeros (written.take (exponent.toNat + 1))
        (written.drop (exponent.toNat + 1)) 0
      have places : (0 : Int) - (6 - (exponent.toNat + 1) : Nat) = exponent - 5 := by omega
      rw [List.take_append_drop, List.length_drop, six, whole, places] at read
      exact read

theorem layOut_negative (digits : Nat) (exponent : Int) :
    (layOut digits exponent).negative = false := by
  unfold layOut
  dsimp only
  split
  · rfl
  · split <;> rfl

theorem layOut_sound (positive : 0 < digits) (exponent : Int) : (layOut digits exponent).Sound := by
  have some : (Nat.digits 10 digits).reverse ≠ [] := by
    simpa [Nat.digits_eq_nil_iff_eq_zero] using Nat.ne_of_gt positive
  have below : ∀ digit ∈ (Nat.digits 10 digits).reverse, digit < 10 := fun digit member =>
    Nat.digits_lt_base (by decide) (List.mem_reverse.mp member)
  have kept : ∀ list : List Nat, (∀ digit ∈ list, digit < 10) →
      ∀ digit ∈ withoutTrailingZeros list, digit < 10 := fun list all digit member =>
    all digit ((List.rdropWhile_prefix _ list).subset member)
  unfold layOut
  dsimp only
  generalize (Nat.digits 10 digits).reverse = written at some below ⊢
  have nonempty : ∀ count, written.take (count + 1) ≠ [] := by
    intro count
    simpa [List.take_eq_nil_iff] using some
  have taken : ∀ count, ∀ digit ∈ written.take count, digit < 10 := fun count digit member =>
    below digit (List.mem_of_mem_take member)
  have dropped : ∀ count, ∀ digit ∈ written.drop count, digit < 10 := fun count digit member =>
    below digit (List.mem_of_mem_drop member)
  split
  · exact ⟨nonempty 0, taken 1, kept _ (dropped 1)⟩
  · split
    · refine ⟨by simp, by simp, ?_⟩
      intro digit member
      rcases List.mem_append.mp member with zero | isDigit
      · rw [List.eq_of_mem_replicate zero]
        decide
      · exact kept _ below digit isDigit
    · exact ⟨nonempty _, taken _, kept _ (dropped _)⟩

section LeadingDigit

variable {numerator denominator : Nat}

/-- A quotient, scaled up where its exponent is at most five. -/
theorem le_mul_pow_leadingExponent (positive : 0 < numerator) (denominator : Nat) :
    denominator ≤ numerator * 10 ^ (5 - leadingExponent numerator denominator).toNat := by
  unfold leadingExponent
  split
  · rename_i atLeastOne
    exact atLeastOne.trans (Nat.le_mul_of_pos_right _ (Nat.pow_pos (by decide)))
  · have covered : denominator ≤ numerator * ((denominator + numerator - 1) / numerator) := by
      have division := Nat.div_add_mod (denominator + numerator - 1) numerator
      have rest := Nat.mod_lt (denominator + numerator - 1) positive
      omega
    refine covered.trans (Nat.mul_le_mul_left _ ?_)
    refine (Nat.le_pow_clog (by decide : 1 < 10) _).trans (Nat.pow_le_pow_right (by decide) ?_)
    omega

/-- A quotient of six digits and more, scaled down by its exponent. -/
theorem mul_pow_leadingExponent_le (positive : 0 < denominator)
    (large : 5 < leadingExponent numerator denominator) :
    denominator * 10 ^ (leadingExponent numerator denominator - 5).toNat ≤ numerator := by
  unfold leadingExponent at large ⊢
  split
  · rename_i atLeastOne
    have some : numerator / denominator ≠ 0 := Nat.ne_of_gt (Nat.div_pos atLeastOne positive)
    have least := Nat.pow_log_le_self 10 some
    rw [Nat.le_div_iff_mul_le positive, Nat.mul_comm] at least
    refine (Nat.mul_le_mul_left _ (Nat.pow_le_pow_right (by decide) ?_)).trans least
    omega
  · rename_i belowOne
    rw [if_neg belowOne] at large
    omega

/-- The six digits of a positive quotient are not all zero. -/
theorem significant_pos (some : 0 < numerator) (divides : 0 < denominator) :
    0 < (significant numerator denominator).1 := by
  unfold significant
  dsimp only
  by_cases small : leadingExponent numerator denominator ≤ 5
  · have scaled := le_mul_pow_leadingExponent some denominator
    have digits : 1 ≤ Double.roundHalfEven
        (numerator * 10 ^ (5 - leadingExponent numerator denominator).toNat) denominator :=
      Double.le_roundHalfEven (Nat.div_pos scaled divides)
    rw [if_pos small]
    split
    · exact Nat.zero_lt_succ _
    · exact digits
  · have scaled := mul_pow_leadingExponent_le divides (lt_of_not_ge small)
    have digits : 1 ≤ Double.roundHalfEven numerator
        (denominator * 10 ^ (leadingExponent numerator denominator - 5).toNat) :=
      Double.le_roundHalfEven (Nat.div_pos scaled
        (Nat.mul_pos divides (Nat.pow_pos (by decide))))
    rw [if_neg small]
    split
    · exact Nat.zero_lt_succ _
    · exact digits

end LeadingDigit

theorem general_sound (value : ℚ) : (general value).Sound := by
  unfold general
  split
  · exact ⟨by simp, by simp, by simp⟩
  · rename_i nonzero
    have numerator : 0 < value.num.natAbs := Int.natAbs_pos.mpr (Rat.num_ne_zero.mpr nonzero)
    obtain ⟨nonempty, whole, fraction⟩ := layOut_sound (significant_pos numerator value.den_pos)
      (significant value.num.natAbs value.den).2
    exact ⟨nonempty, whole, fraction⟩

/-- What is printed of a number denotes a number. -/
theorem denoted?_formatGeneral_isSome (value : ℚ) : (denoted? (formatGeneral value)).isSome := by
  rw [formatGeneral, denoted?_characters (general_sound value)]
  rfl

/-! ## Natural numbers -/

variable {number : Nat}

/-- What the six significant digits of a natural number leave of it. -/
def sixDigits (number : Nat) : Nat :=
  Double.roundHalfEven number (10 ^ (Nat.log 10 number - 5)) * 10 ^ (Nat.log 10 number - 5)

theorem leadingExponent_one (positive : 0 < number) :
    leadingExponent number 1 = (Nat.log 10 number : Int) := by
  have atLeastOne : 1 ≤ number := positive
  rw [leadingExponent, if_pos atLeastOne, Nat.div_one]

/-- A number of at most six digits keeps them all. -/
theorem significant_one_of_small (positive : 0 < number) (small : Nat.log 10 number ≤ 5) :
    significant number 1 = (number * 10 ^ (5 - Nat.log 10 number), (Nat.log 10 number : Int)) ∧
      100000 ≤ number * 10 ^ (5 - Nat.log 10 number) ∧
      number * 10 ^ (5 - Nat.log 10 number) < 1000000 := by
  have least := Nat.pow_log_le_self 10 (Nat.ne_of_gt positive)
  have most := Nat.lt_pow_succ_log_self (by decide : 1 < 10) number
  have scaledLeast : 100000 ≤ number * 10 ^ (5 - Nat.log 10 number) := by
    calc 100000 = 10 ^ Nat.log 10 number * 10 ^ (5 - Nat.log 10 number) := by
          rw [← Nat.pow_add, Nat.add_sub_cancel' small]
      _ ≤ number * 10 ^ (5 - Nat.log 10 number) := Nat.mul_le_mul_right _ least
  have scaledMost : number * 10 ^ (5 - Nat.log 10 number) < 1000000 := by
    calc number * 10 ^ (5 - Nat.log 10 number)
        < 10 ^ (Nat.log 10 number + 1) * 10 ^ (5 - Nat.log 10 number) :=
          Nat.mul_lt_mul_of_pos_right most (Nat.pow_pos (by decide))
      _ = 1000000 := by
          rw [← Nat.pow_add, show Nat.log 10 number + 1 + (5 - Nat.log 10 number) = 6 by omega]
  refine ⟨?_, scaledLeast, scaledMost⟩
  have places : (5 - (Nat.log 10 number : Int)).toNat = 5 - Nat.log 10 number := by omega
  simp only [significant]
  rw [leadingExponent_one positive, if_pos (show (Nat.log 10 number : Int) ≤ 5 by omega), places,
    Double.roundHalfEven_of_dvd (by decide) (one_dvd _), Nat.div_one, if_neg (Nat.ne_of_lt scaledMost)]

/-- A longer number is rounded to six digits, which may carry into a seventh. -/
theorem significant_one_of_large (positive : 0 < number) (large : 5 < Nat.log 10 number) :
    100000 ≤ Double.roundHalfEven number (10 ^ (Nat.log 10 number - 5)) ∧
      Double.roundHalfEven number (10 ^ (Nat.log 10 number - 5)) ≤ 1000000 ∧
      significant number 1 =
        if Double.roundHalfEven number (10 ^ (Nat.log 10 number - 5)) = 1000000 then
          (100000, (Nat.log 10 number : Int) + 1)
        else (Double.roundHalfEven number (10 ^ (Nat.log 10 number - 5)), (Nat.log 10 number : Int)) := by
  have least := Nat.pow_log_le_self 10 (Nat.ne_of_gt positive)
  have most := Nat.lt_pow_succ_log_self (by decide : 1 < 10) number
  have unit : 0 < 10 ^ (Nat.log 10 number - 5) := Nat.pow_pos (by decide)
  refine ⟨?_, ?_, ?_⟩
  · apply Double.le_roundHalfEven
    rw [Nat.le_div_iff_mul_le unit]
    calc 100000 * 10 ^ (Nat.log 10 number - 5)
        = 10 ^ (5 + (Nat.log 10 number - 5)) := by rw [Nat.pow_add]
      _ = 10 ^ Nat.log 10 number := by rw [Nat.add_sub_cancel' (Nat.le_of_lt large)]
      _ ≤ number := least
  · apply Double.roundHalfEven_le unit
    calc number ≤ 10 ^ (Nat.log 10 number + 1) := Nat.le_of_lt most
      _ = 10 ^ (6 + (Nat.log 10 number - 5)) := by
          rw [show 6 + (Nat.log 10 number - 5) = Nat.log 10 number + 1 by omega]
      _ = 1000000 * 10 ^ (Nat.log 10 number - 5) := by rw [Nat.pow_add]
  · have places : ((Nat.log 10 number : Int) - 5).toNat = Nat.log 10 number - 5 := by omega
    simp only [significant]
    rw [leadingExponent_one positive, if_neg (show ¬ (Nat.log 10 number : Int) ≤ 5 by omega), places,
      Nat.one_mul]

/-- Six digits, and the number they stand for. -/
theorem significant_one (positive : 0 < number) :
    100000 ≤ (significant number 1).1 ∧ (significant number 1).1 < 1000000 ∧
      ((significant number 1).1 : ℚ) * (10 : ℚ) ^ ((significant number 1).2 - 5) =
        sixDigits number := by
  have ten : (10 : ℚ) ≠ 0 := by norm_num
  rcases Nat.lt_or_ge 5 (Nat.log 10 number) with large | small
  · obtain ⟨least, most, rounded⟩ := significant_one_of_large positive large
    have places : ((Nat.log 10 number - 5 : Nat) : Int) = (Nat.log 10 number : Int) - 5 := by omega
    unfold sixDigits
    generalize Double.roundHalfEven number (10 ^ (Nat.log 10 number - 5)) = digits at *
    rw [rounded, Nat.cast_mul, Nat.cast_pow, Nat.cast_ofNat, ← zpow_natCast (10 : ℚ), places]
    split
    · rename_i carried
      refine ⟨le_refl _, by norm_num, ?_⟩
      rw [carried, show (Nat.log 10 number : Int) + 1 - 5 = Nat.log 10 number - 5 + 1 by ring,
        zpow_add_one₀ ten]
      norm_num
      ring
    · exact ⟨least, by omega, rfl⟩
  · obtain ⟨kept, least, most⟩ := significant_one_of_small positive small
    rw [kept]
    refine ⟨least, most, ?_⟩
    have none : Nat.log 10 number - 5 = 0 := by omega
    have places : ((5 - Nat.log 10 number : Nat) : Int) + ((Nat.log 10 number : Int) - 5) = 0 := by
      omega
    rw [sixDigits, none, Nat.pow_zero, Double.roundHalfEven_of_dvd (by decide) (one_dvd _), Nat.div_one,
      Nat.mul_one, Nat.cast_mul, Nat.cast_pow, Nat.cast_ofNat, ← zpow_natCast (10 : ℚ), mul_assoc,
      ← zpow_add₀ ten, places, zpow_zero, mul_one]

theorem denoted?_formatGeneral (number : Nat) :
    denoted? (formatGeneral number) = some (sixDigits number : ℚ) := by
  rcases Nat.eq_zero_or_pos number with rfl | positive
  · have zero : formatGeneral ((0 : Nat) : ℚ) = String.ofList ['0'] := rfl
    rw [zero]
    simp [denoted?, magnitude?, sixDigits, someDigits?, digits?, digit?, ofDigits, exponent?,
      Double.roundHalfEven]
  · obtain ⟨least, most, value⟩ := significant_one positive
    have nonzero : (number : ℚ) ≠ 0 := Nat.cast_ne_zero.mpr (Nat.ne_of_gt positive)
    have nonnegative : decide ((number : ℚ) < 0) = false :=
      decide_eq_false (not_lt.mpr (Nat.cast_nonneg number))
    have laidOut : general (number : ℚ) = layOut (significant number 1).1 (significant number 1).2 := by
      rw [general, if_neg nonzero, Rat.num_natCast, Rat.den_natCast, Int.natAbs_natCast, nonnegative,
        ← layOut_negative (significant number 1).1 (significant number 1).2]
    rw [formatGeneral, laidOut, denoted?_characters (layOut_sound (by omega) _),
      layOut_value least most, value]

/-- A natural number is printed exactly if it has no nonzero digit after the sixth. -/
theorem denoted?_formatGeneral_eq_iff (number : Nat) :
    denoted? (formatGeneral number) = some (number : ℚ) ↔
      10 ^ (Nat.log 10 number - 5) ∣ number := by
  rw [denoted?_formatGeneral, Option.some_inj, Nat.cast_inj]
  exact Double.roundHalfEven_mul_eq_iff (Nat.pow_pos (by decide))

/-! ## Characters -/

theorem digitChar_plain (digit : Nat) : digit.digitChar ≠ ' ' ∧ digit.digitChar ≠ '\n' := by
  rcases Nat.lt_or_ge digit 16 with small | large
  · revert digit
    decide
  · rw [Nat.digitChar_eq_star.mpr large]
    decide

/-- A number is printed without blanks and line ends. -/
theorem formatGeneral_plain {value : ℚ} {character : Char}
    (member : character ∈ (formatGeneral value).toList) : character ≠ ' ' ∧ character ≠ '\n' := by
  have digitsPlain : ∀ digits, character ∈ digitsText digits → character ≠ ' ' ∧ character ≠ '\n' := by
    intro digits isDigit
    obtain ⟨digit, _, rfl⟩ := List.mem_map.mp isDigit
    exact digitChar_plain digit
  rw [formatGeneral, String.toList_ofList] at member
  generalize general value = numeral at member
  unfold Numeral.characters at member
  rcases List.mem_append.mp member with member | inExponent
  · rcases List.mem_append.mp member with member | inFraction
    · rcases List.mem_append.mp member with isSign | inWhole
      · split at isSign
        · rw [List.mem_singleton.mp isSign]
          decide
        · cases isSign
      · exact digitsPlain _ inWhole
    · split at inFraction
      · cases inFraction
      · rcases List.mem_cons.mp inFraction with rfl | isDigit
        · decide
        · exact digitsPlain _ isDigit
  · cases exponent : numeral.exponent with
    | none =>
        rw [exponent] at inExponent
        cases inExponent
    | some power =>
        obtain ⟨zeros, written⟩ := exponentText_eq power
        rw [exponent, Option.map_some, Option.getD_some, written] at inExponent
        rcases List.mem_cons.mp inExponent with rfl | inExponent
        · decide
        · rcases List.mem_cons.mp inExponent with rfl | isDigit
          · split <;> decide
          · exact digitsPlain _ isDigit

end Foundation.Decimal
