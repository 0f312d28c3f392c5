import EvaluationService.Foundation.JsonText
import Mathlib.Data.List.Basic

/-!
The strings and the numbers that `json.dumps` writes, read back as `json.loads` reads them.
-/

set_option autoImplicit false

namespace Foundation

namespace Json

/-! ## Strings read back -/

theorem hexValue?_hexDigit {value : Nat} (below : value < 16) :
    hexValue? (hexDigit value) = some value := by
  have all : ∀ digit, digit < 16 → hexValue? (hexDigit digit) = some digit := by decide
  exact all value below

theorem readUnit_unicodeEscape {unit : Nat} (below : unit < 0x10000) (rest : List Char) :
    readUnit ((unicodeEscape unit).toList.drop 2 ++ rest) = some (unit, rest) := by
  rw [unicodeEscape, String.toList_ofList, List.drop_succ_cons, List.drop_succ_cons, List.drop_zero]
  simp only [List.cons_append, List.nil_append, readUnit]
  rw [hexValue?_hexDigit (Nat.mod_lt _ (by decide)), hexValue?_hexDigit (Nat.mod_lt _ (by decide)),
    hexValue?_hexDigit (Nat.mod_lt _ (by decide)), hexValue?_hexDigit (Nat.mod_lt _ (by decide))]
  have digits : unit / 4096 % 16 * 4096 + unit / 256 % 16 * 256 + unit / 16 % 16 * 16 + unit % 16 =
      unit := by
    omega
  simp only [Option.bind_eq_bind, Option.bind_some, Option.pure_def, digits]

theorem unicodeEscape_toList (unit : Nat) :
    (unicodeEscape unit).toList = '\\' :: 'u' :: (unicodeEscape unit).toList.drop 2 := by
  rw [unicodeEscape, String.toList_ofList]
  rfl

theorem readCharacter_unicodeEscape (unit : Nat) (rest : List Char) :
    readCharacter ((unicodeEscape unit).toList ++ rest) =
      readUnicode ((unicodeEscape unit).toList.drop 2 ++ rest) := by
  rw [unicodeEscape_toList, List.cons_append, List.cons_append, readCharacter, if_pos rfl]
  rfl

/-- A scalar value is no surrogate. -/
theorem toNat_scalar (character : Char) :
    character.toNat < 0xD800 ∨ 0xDFFF < character.toNat ∧ character.toNat < 0x110000 := by
  rcases character.valid with low | ⟨above, below⟩
  · exact .inl low
  · exact .inr ⟨above, below⟩

theorem readUnicode_basic {character : Char} (basic : character.toNat < 0x10000)
    (rest : List Char) :
    readUnicode ((unicodeEscape character.toNat).toList.drop 2 ++ rest) =
      some (character, rest) := by
  have notHigh : isHighSurrogate character.toNat = false := by
    have scalar := toNat_scalar character
    simp only [isHighSurrogate, Bool.and_eq_false_iff, decide_eq_false_iff_not]
    omega
  have notLow : isLowSurrogate character.toNat = false := by
    have scalar := toNat_scalar character
    simp only [isLowSurrogate, Bool.and_eq_false_iff, decide_eq_false_iff_not]
    omega
  rw [readUnicode, readUnit_unicodeEscape basic]
  simp only [Option.bind_eq_bind, Option.bind_some, notHigh, notLow, Char.ofNat_toNat]
  rfl

theorem readUnicode_surrogates {high low : Nat} (isHigh : isHighSurrogate high = true)
    (isLow : isLowSurrogate low = true) (rest : List Char) :
    readUnicode ((unicodeEscape high).toList.drop 2 ++ ((unicodeEscape low).toList ++ rest)) =
      some (Char.ofNat (0x10000 + (high - 0xD800) * 0x400 + (low - 0xDC00)), rest) := by
  have below : high < 0x10000 ∧ low < 0x10000 := by
    simp only [isHighSurrogate, isLowSurrogate, Bool.and_eq_true, decide_eq_true_eq] at isHigh isLow
    omega
  rw [readUnicode, readUnit_unicodeEscape below.1, unicodeEscape_toList low]
  simp only [Option.bind_eq_bind, Option.bind_some]
  rw [if_pos isHigh, if_neg (by simp), List.cons_append, List.cons_append, List.drop_succ_cons,
    List.drop_succ_cons, List.drop_zero, readUnit_unicodeEscape below.2]
  simp only [Option.bind_some]
  rw [if_pos isLow]

theorem surrogates_spec {code high low : Nat} (beyond : 0x10000 ≤ code) (below : code < 0x110000)
    (isFirst : high = 0xD800 + (code - 0x10000) / 0x400)
    (isSecond : low = 0xDC00 + (code - 0x10000) % 0x400) :
    isHighSurrogate high = true ∧ isLowSurrogate low = true ∧
      0x10000 + (high - 0xD800) * 0x400 + (low - 0xDC00) = code := by
  simp only [isHighSurrogate, isLowSurrogate, Bool.and_eq_true, decide_eq_true_eq]
  omega

theorem readUnicode_pair {character : Char} {high low : Nat} (beyond : 0x10000 ≤ character.toNat)
    (isFirst : high = 0xD800 + (character.toNat - 0x10000) / 0x400)
    (isSecond : low = 0xDC00 + (character.toNat - 0x10000) % 0x400) (rest : List Char) :
    readUnicode ((unicodeEscape high).toList.drop 2 ++ ((unicodeEscape low).toList ++ rest)) =
      some (character, rest) := by
  have scalar := toNat_scalar character
  obtain ⟨isHigh, isLow, joined⟩ := surrogates_spec beyond (by omega) isFirst isSecond
  rw [readUnicode_surrogates isHigh isLow, joined, Char.ofNat_toNat]

theorem eq_ofNat {character : Char} {code : Nat} (equal : character.toNat = code) :
    character = Char.ofNat code := by
  rw [← equal, Char.ofNat_toNat]

theorem readCharacter_escape (character : Char) (rest : List Char) :
    readCharacter ((escape character).toList ++ rest) = some (character, rest) := by
  unfold escape
  dsimp only
  split_ifs with quoted backslash newline carriage tab formFeed backspace printable basic
  · rw [quoted]
    rfl
  · rw [backslash]
    rfl
  · rw [newline]
    rfl
  · rw [carriage]
    rfl
  · rw [tab]
    rfl
  · rw [eq_ofNat formFeed]
    rfl
  · rw [eq_ofNat backspace]
    rfl
  · rw [String.toList_singleton, List.singleton_append, readCharacter.eq_def]
    dsimp only
    rw [if_neg backslash, if_neg (by omega)]
  · rw [readCharacter_unicodeEscape, readUnicode_basic basic]
  · rw [String.toList_append, List.append_assoc, readCharacter_unicodeEscape,
      readUnicode_pair (by omega) rfl rfl]

/-- No escaped character starts as the end of a string does. -/
theorem head?_escape (character : Char) (rest : List Char) :
    ∃ first, ((escape character).toList ++ rest).head? = some first ∧ first ≠ '"' := by
  unfold escape
  dsimp only
  split_ifs with quoted
  any_goals exact ⟨'\\', rfl, by decide⟩
  · refine ⟨character, ?_, quoted⟩
    rw [String.toList_singleton]
    rfl
  · rw [unicodeEscape_toList]
    exact ⟨'\\', rfl, by decide⟩
  · rw [String.toList_append, unicodeEscape_toList]
    exact ⟨'\\', rfl, by decide⟩

def escaped (characters : List Char) : List Char :=
  characters.flatMap fun character => (escape character).toList

theorem toList_quote (text : String) :
    (quote text).toList = '"' :: (escaped text.toList ++ ['"']) := by
  rw [quote, String.toList_append, String.toList_append, String.toList_join, List.flatMap_map]
  rfl

theorem readString_escaped (characters : List Char) {fuel : Nat} {rest : List Char}
    (enough : (escaped characters).length < fuel) :
    readString fuel (escaped characters ++ '"' :: rest) = some (characters, rest) := by
  induction characters generalizing fuel with
  | nil =>
      obtain _ | fuel := fuel
      · exact absurd enough (by simp)
      · rfl
  | cons character others ih =>
      obtain ⟨first, starts, notQuote⟩ := head?_escape character (escaped others ++ '"' :: rest)
      have nonempty : 0 < (escape character).toList.length := by
        obtain ⟨other, startsAlone, -⟩ := head?_escape character []
        rw [List.append_nil] at startsAlone
        exact List.length_pos_of_mem (List.mem_of_head? startsAlone)
      have text : escaped (character :: others) ++ '"' :: rest =
          (escape character).toList ++ (escaped others ++ '"' :: rest) := by
        rw [escaped, List.flatMap_cons, List.append_assoc]
        rfl
      have shorter : (escaped (character :: others)).length =
          (escape character).toList.length + (escaped others).length := by
        rw [escaped, List.flatMap_cons, List.length_append]
        rfl
      obtain _ | fuel := fuel
      · exact absurd enough (Nat.not_lt_zero _)
      · rw [text, readString, starts, if_neg (by simpa using notQuote), readCharacter_escape]
        simp only [Option.bind_eq_bind, Option.bind_some]
        rw [ih (by omega)]
        rfl

/-! ## Numbers read back -/

def NoDigit (rest : List Char) : Prop := ∀ first ∈ rest.head?, first.isDigit = false

theorem takeWhile_digits {digits rest : List Char} (all : ∀ digit ∈ digits, digit.isDigit = true)
    (ends : NoDigit rest) : (digits ++ rest).takeWhile Char.isDigit = digits := by
  rw [List.takeWhile_append_of_pos all]
  cases rest with
  | nil => simp
  | cons first others =>
      have notDigit := ends first (by simp)
      rw [List.takeWhile_cons_of_neg (by simp [notDigit]), List.append_nil]

theorem dropWhile_digits {digits rest : List Char} (all : ∀ digit ∈ digits, digit.isDigit = true)
    (ends : NoDigit rest) : (digits ++ rest).dropWhile Char.isDigit = rest := by
  rw [List.dropWhile_append_of_pos all]
  cases rest with
  | nil => rfl
  | cons first others =>
      have notDigit := ends first (by simp)
      rw [List.dropWhile_cons_of_neg (by simp [notDigit])]

def IsNatural (digits : List Char) : Prop :=
  (∀ digit ∈ digits, digit.isDigit = true) ∧ digits ≠ [] ∧
    (digits.head? = some '0' → digits = ['0'])

def IsInteger (literal : List Char) : Prop :=
  ∃ sign digits, literal = sign ++ digits ∧ (sign = [] ∨ sign = ['-']) ∧ IsNatural digits

def IsFraction (literal : List Char) : Prop :=
  literal = [] ∨ ∃ digits, literal = '.' :: digits ∧ digits ≠ [] ∧
    ∀ digit ∈ digits, digit.isDigit = true

def IsExponent (literal : List Char) : Prop :=
  literal = [] ∨ ∃ letter sign digits, literal = letter :: sign ++ digits ∧
    (letter = 'e' ∨ letter = 'E') ∧ (sign = [] ∨ sign = ['-'] ∨ sign = ['+']) ∧
    digits ≠ [] ∧ ∀ digit ∈ digits, digit.isDigit = true

/-- The spellings of a float: with a fraction or an exponent, or one of the three constants. -/
def IsFloatLiteral (literal : List Char) : Prop :=
  literal ∈ ["NaN".toList, "Infinity".toList, "-Infinity".toList] ∨
    ∃ integer fraction exponent, literal = integer ++ fraction ++ exponent ∧ IsInteger integer ∧
      IsFraction fraction ∧ IsExponent exponent ∧ ¬ (fraction = [] ∧ exponent = [])

theorem exists_digit {digits : List Char} (all : ∀ digit ∈ digits, digit.isDigit = true)
    (nonempty : digits ≠ []) : ∃ first others, digits = first :: others ∧ first.isDigit = true := by
  obtain ⟨first, others, parts⟩ := List.exists_cons_of_ne_nil nonempty
  exact ⟨first, others, parts, all first (by rw [parts]; exact List.mem_cons_self)⟩

theorem readInteger_append {literal rest : List Char} (isInteger : IsInteger literal)
    (ends : NoDigit rest) : readInteger (literal ++ rest) = some (literal, rest) := by
  obtain ⟨sign, digits, rfl, signed, all, nonempty, leading⟩ := isInteger
  obtain ⟨first, others, parts, isDigit⟩ := exists_digit all nonempty
  have notMinus : first ≠ '-' := by
    intro minus
    rw [minus] at isDigit
    exact absurd isDigit (by decide)
  have signRead : (if (sign ++ digits ++ rest).head? = some '-' then ['-'] else []) = sign := by
    rcases signed with rfl | rfl
    · rw [parts, if_neg (by simpa using notMinus)]
    · rfl
  unfold readInteger
  simp only [signRead]
  rw [List.append_assoc, List.drop_left, takeWhile_digits all ends, dropWhile_digits all ends,
    if_neg nonempty]
  split_ifs with zero
  · rw [leading zero]
    rfl
  · rfl

theorem readFraction_append {literal rest : List Char} (isFraction : IsFraction literal)
    (ends : NoDigit rest) (noPoint : rest.head? ≠ some '.') :
    readFraction (literal ++ rest) = (literal, rest) := by
  rcases isFraction with rfl | ⟨digits, rfl, nonempty, all⟩
  · unfold readFraction
    rw [List.nil_append]
    dsimp only
    rw [if_neg fun fraction => noPoint fraction.1]
  · unfold readFraction
    rw [List.cons_append, List.drop_succ_cons, List.drop_zero, takeWhile_digits all ends,
      dropWhile_digits all ends]
    rw [if_pos ⟨rfl, nonempty⟩]

theorem readExponent_append {literal rest : List Char} (isExponent : IsExponent literal)
    (ends : NoDigit rest) (noLetter : rest.head? ≠ some 'e' ∧ rest.head? ≠ some 'E') :
    readExponent (literal ++ rest) = (literal, rest) := by
  rcases isExponent with rfl | ⟨letter, sign, digits, rfl, isLetter, signed, nonempty, all⟩
  · cases rest with
    | nil => rfl
    | cons first others =>
        have other : ¬ (first = 'e' ∨ first = 'E') := by
          simpa using noLetter
        rw [List.nil_append, readExponent, if_neg fun exponent => other exponent.1]
  · obtain ⟨first, others, parts, isDigit⟩ := exists_digit all nonempty
    have unsigned : first ≠ '-' ∧ first ≠ '+' := by
      constructor <;>
      · intro equal
        rw [equal] at isDigit
        exact absurd isDigit (by decide)
    have signRead : (if (sign ++ (digits ++ rest)).head? = some '-' ∨
        (sign ++ (digits ++ rest)).head? = some '+' then (sign ++ (digits ++ rest)).take 1
        else []) = sign := by
      rcases signed with rfl | rfl | rfl
      · rw [parts, if_neg (by simpa using unsigned)]
      · rfl
      · rfl
    rw [List.append_assoc, List.cons_append, readExponent]
    simp only [signRead]
    rw [List.drop_left, takeWhile_digits all ends, dropWhile_digits all ends,
      if_pos ⟨isLetter, nonempty⟩]

/-- What may follow a number: nothing that would lengthen it. -/
def Delimited (rest : List Char) : Prop :=
  NoDigit rest ∧ rest.head? ≠ some '.' ∧ rest.head? ≠ some 'e' ∧ rest.head? ≠ some 'E'

theorem readNumber_float {integer fraction exponent rest : List Char}
    (isInteger : IsInteger integer) (isFraction : IsFraction fraction)
    (isExponent : IsExponent exponent) (isFloat : ¬ (fraction = [] ∧ exponent = []))
    (delimited : Delimited rest) :
    readNumber (integer ++ fraction ++ exponent ++ rest) =
      some (float (String.ofList (integer ++ fraction ++ exponent)), rest) := by
  obtain ⟨noDigit, noPoint, noLetter⟩ := delimited
  have exponentStarts : NoDigit (exponent ++ rest) ∧ (exponent ++ rest).head? ≠ some '.' := by
    rcases isExponent with rfl | ⟨letter, sign, digits, rfl, rfl | rfl, -, -⟩
    · exact ⟨noDigit, noPoint⟩
    · exact ⟨by simp [NoDigit], by simp⟩
    · exact ⟨by simp [NoDigit], by simp⟩
  have fractionStarts : NoDigit (fraction ++ (exponent ++ rest)) := by
    rcases isFraction with rfl | ⟨digits, rfl, -, -⟩
    · exact exponentStarts.1
    · simp [NoDigit]
  rw [List.append_assoc, List.append_assoc, readNumber,
    readInteger_append isInteger fractionStarts]
  simp only [Option.bind_eq_bind, Option.bind_some]
  rw [readFraction_append isFraction exponentStarts.1 exponentStarts.2]
  dsimp only
  rw [readExponent_append isExponent noDigit noLetter]
  dsimp only
  rw [if_neg isFloat]

theorem isNatural_toDigits (value : Nat) : IsNatural (Nat.toDigits 10 value) := by
  refine ⟨fun digit member => Nat.isDigit_of_mem_toDigits (by decide) (by decide) member,
    Nat.toDigits_ne_nil, ?_⟩
  induction value using Nat.strongRecOn with
  | ind value ih =>
    intro leading
    by_cases small : value < 10
    · rw [Nat.toDigits_of_lt_base small] at leading ⊢
      have zero : value.digitChar = '0' := by simpa using leading
      rw [zero]
    · rw [Nat.toDigits_of_base_le (by decide) (by omega)] at leading ⊢
      have front : (Nat.toDigits 10 (value / 10)).head? = some '0' := by
        rwa [List.head?_append_of_ne_nil _ Nat.toDigits_ne_nil] at leading
      have read := Nat.ofDigitChars_toDigits (b := 10) (n := value / 10) (by decide) (by decide)
      rw [ih (value / 10) (by omega) front] at read
      have zero : value / 10 = 0 := by
        rw [← read]
        rfl
      omega

theorem toList_toString (value : Int) :
    (toString value).toList =
      (if value < 0 then ['-'] else []) ++ Nat.toDigits 10 value.natAbs := by
  rw [Int.toString_eq_repr]
  cases value with
  | ofNat natural =>
      rw [if_neg (by simp)]
      exact Nat.toList_repr
  | negSucc natural =>
      rw [if_pos (Int.negSucc_lt_zero natural)]
      rw [Int.repr, String.toList_append, Nat.toList_repr]
      rfl

theorem intOf?_toString {value : Int}
    (short : (Nat.toDigits 10 value.natAbs).length ≤ maxStrDigits) :
    intOf? (toString value).toList = some value := by
  have natural := Nat.ofDigitChars_toDigits (b := 10) (n := value.natAbs) (by decide) (by decide)
  rw [toList_toString, intOf?]
  by_cases negative : value < 0
  · rw [if_pos negative]
    simp only [List.singleton_append, List.head?_cons, List.drop_succ_cons, List.drop_zero,
      if_true, natural]
    rw [if_pos short]
    congr 1
    omega
  · obtain ⟨first, others, parts, isDigit⟩ :=
      exists_digit (isNatural_toDigits value.natAbs).1 (isNatural_toDigits value.natAbs).2.1
    have unsigned : (Nat.toDigits 10 value.natAbs).head? ≠ some '-' := by
      rw [parts]
      rintro ⟨⟩
      exact absurd isDigit (by decide)
    rw [if_neg negative, List.nil_append]
    simp only [if_neg unsigned, natural]
    rw [if_pos short]
    congr 1
    omega

theorem isInteger_toString (value : Int) : IsInteger (toString value).toList := by
  refine ⟨if value < 0 then ['-'] else [], _, toList_toString value, ?_, isNatural_toDigits _⟩
  split
  · exact .inr rfl
  · exact .inl rfl

theorem readNumber_int {value : Int} {rest : List Char}
    (short : (Nat.toDigits 10 value.natAbs).length ≤ maxStrDigits) (delimited : Delimited rest) :
    readNumber ((toString value).toList ++ rest) = some (int value, rest) := by
  obtain ⟨noDigit, noPoint, noLetter⟩ := delimited
  have noFraction := readFraction_append (.inl rfl) noDigit noPoint
  have noExponent := readExponent_append (.inl rfl) noDigit noLetter
  rw [List.nil_append] at noFraction noExponent
  rw [readNumber, readInteger_append (isInteger_toString value) noDigit]
  simp only [Option.bind_eq_bind, Option.bind_some]
  rw [noFraction]
  dsimp only
  rw [noExponent]
  dsimp only
  rw [if_pos ⟨rfl, rfl⟩, intOf?_toString short]
  rfl

end Json

end Foundation
