import Mathlib.Data.List.DropRight

/-!
Base64 as Python's `base64` and `binascii` compute it. The decoder is the lenient one:
it skips characters outside the alphabet, and stops at the padding that completes a
group of four.
-/

set_option autoImplicit false

namespace Foundation.Base64

def alphabet : List Char :=
  "ABCDEFGHIJKLMNOPQRSTUVWXYZabcdefghijklmnopqrstuvwxyz0123456789+/".toList

def letter (value : Nat) : Char :=
  alphabet.getD value 'A'

def sextet? (character : Char) : Option Nat :=
  alphabet.idxOf? character

theorem sextet?_letter : ∀ value < 64, sextet? (letter value) = some value := by
  decide +kernel

theorem letter_mem (value : Nat) : letter value ∈ alphabet := by
  rw [letter, List.getD_eq_getElem?_getD]
  cases found : alphabet[value]? with
  | none => decide
  | some character => exact List.mem_of_getElem? found

theorem alphabet_plain : ∀ character ∈ alphabet, character.toNat < 128 ∧ character ≠ '=' ∧
    character ≠ '.' ∧ character ≠ '-' ∧ character ≠ '_' := by
  -- The letters are tried through the list: the type of characters is enumerable as well.
  have checked : (alphabet.all fun character => character.toNat < 128 ∧ character ≠ '=' ∧
      character ≠ '.' ∧ character ≠ '-' ∧ character ≠ '_') = true := by
    decide
  intro character member
  exact of_decide_eq_true (List.all_eq_true.mp checked character member)

/-- `b64encode`: three bytes become four letters, the last group is padded. -/
def encode : List UInt8 → List Char
  | [] => []
  | [first] => [letter (first.toNat / 4), letter (first.toNat % 4 * 16), '=', '=']
  | [first, second] =>
      [letter (first.toNat / 4), letter (first.toNat % 4 * 16 + second.toNat / 16),
        letter (second.toNat % 16 * 4), '=']
  | first :: second :: third :: rest =>
      letter (first.toNat / 4) :: letter (first.toNat % 4 * 16 + second.toNat / 16) ::
        letter (second.toNat % 16 * 4 + third.toNat / 64) :: letter (third.toNat % 64) ::
        encode rest

/-- What one more letter of a group of four outputs, the position after it and the bits of it
that no byte holds yet. -/
def absorb (quadPos leftchar value : Nat) : List UInt8 × Nat × Nat :=
  match quadPos with
  | 0 => ([], 1, value)
  | 1 => ([UInt8.ofNat (leftchar * 4 + value / 16)], 2, value % 16)
  | 2 => ([UInt8.ofNat (leftchar * 16 + value / 4)], 3, value % 4)
  | _ => ([UInt8.ofNat (leftchar * 64 + value)], 0, 0)

/-- `a2b_base64` without strict mode, from a position in a group of four on; `pads` counts the
padding seen since the last letter. -/
def decodeFrom (quadPos leftchar pads : Nat) : List Char → Option (List UInt8)
  -- a group that is left open is `binascii.Error`
  | [] => if quadPos = 0 then some [] else none
  | character :: rest =>
      if character = '=' then
        if 2 ≤ quadPos then
          if 4 ≤ quadPos + (pads + 1) then some [] else decodeFrom quadPos leftchar (pads + 1) rest
        else decodeFrom quadPos leftchar pads rest
      else
        match sextet? character with
        | none => decodeFrom quadPos leftchar pads rest
        | some value =>
            (decodeFrom (absorb quadPos leftchar value).2.1 (absorb quadPos leftchar value).2.2 0
              rest).map ((absorb quadPos leftchar value).1 ++ ·)

def decode? (text : List Char) : Option (List UInt8) :=
  decodeFrom 0 0 0 text

theorem decodeFrom_letter {value : Nat} (small : value < 64) (quadPos leftchar pads : Nat)
    (rest : List Char) :
    decodeFrom quadPos leftchar pads (letter value :: rest) =
      (decodeFrom (absorb quadPos leftchar value).2.1 (absorb quadPos leftchar value).2.2 0
        rest).map ((absorb quadPos leftchar value).1 ++ ·) := by
  have notPad := (alphabet_plain _ (letter_mem value)).2.1
  rw [decodeFrom.eq_2, if_neg notPad, sextet?_letter value small]

private theorem ofNat_of_eq {byte : UInt8} {number : Nat} (same : number = byte.toNat) :
    UInt8.ofNat number = byte := by
  rw [same, UInt8.ofNat_toNat]

theorem decode?_encode (bytes : List UInt8) : decode? (encode bytes) = some bytes := by
  unfold decode?
  fun_induction encode bytes with
  | case1 => rfl
  | case2 first =>
      have bound := first.toNat_lt
      have joined : UInt8.ofNat (first.toNat / 4 * 4 + first.toNat % 4 * 16 / 16) = first :=
        ofNat_of_eq (by omega)
      simp (disch := omega) only [decodeFrom_letter, absorb, joined]
      rfl
  | case3 first second =>
      have bound := first.toNat_lt
      have bound' := second.toNat_lt
      have joined : UInt8.ofNat (first.toNat / 4 * 4 +
          (first.toNat % 4 * 16 + second.toNat / 16) / 16) = first := ofNat_of_eq (by omega)
      have joined' : UInt8.ofNat ((first.toNat % 4 * 16 + second.toNat / 16) % 16 * 16 +
          second.toNat % 16 * 4 / 4) = second := ofNat_of_eq (by omega)
      simp (disch := omega) only [decodeFrom_letter, absorb, joined, joined']
      rfl
  | case4 first second third rest ih =>
      have bound := first.toNat_lt
      have bound' := second.toNat_lt
      have bound'' := third.toNat_lt
      have joined : UInt8.ofNat (first.toNat / 4 * 4 +
          (first.toNat % 4 * 16 + second.toNat / 16) / 16) = first := ofNat_of_eq (by omega)
      have joined' : UInt8.ofNat ((first.toNat % 4 * 16 + second.toNat / 16) % 16 * 16 +
          (second.toNat % 16 * 4 + third.toNat / 64) / 4) = second := ofNat_of_eq (by omega)
      have joined'' : UInt8.ofNat ((second.toNat % 16 * 4 + third.toNat / 64) % 4 * 64 +
          third.toNat % 64) = third := ofNat_of_eq (by omega)
      simp (disch := omega) only [decodeFrom_letter, absorb, joined, joined', joined'', ih]
      rfl

theorem exists_letter {character : Char} (member : character ∈ alphabet) :
    ∃ value < 64, character = letter value := by
  obtain ⟨value, bound, rfl⟩ := List.getElem_of_mem member
  have size : alphabet.length = 64 := by decide
  refine ⟨value, size ▸ bound, ?_⟩
  rw [letter, List.getD_eq_getElem?_getD, List.getElem?_eq_getElem bound, Option.getD_some]

def sextet (character : Char) : Nat := (sextet? character).getD 0

theorem sextet_letter {value : Nat} (small : value < 64) : sextet (letter value) = value := by
  rw [sextet, sextet?_letter value small, Option.getD_some]

/-- The bits of the last letter that no byte holds. -/
def spareBits : List Char → Nat
  | _ :: _ :: _ :: _ :: rest => spareBits rest
  | [_, _, third] => sextet third % 4
  | [_, second] => sextet second % 16
  | _ => 0

/-- The letters of an encoding, which leave no bits over, and its padding, which completes the
last group of four. -/
theorem encode_eq_append (bytes : List UInt8) :
    ∃ letters pads, encode bytes = letters ++ List.replicate pads '=' ∧
      (∀ character ∈ letters, character ∈ alphabet) ∧ pads < 3 ∧ (letters.length + pads) % 4 = 0 ∧
      spareBits letters = 0 := by
  fun_induction encode bytes with
  | case1 => exact ⟨[], 0, by simp [spareBits]⟩
  | case2 first =>
      refine ⟨[letter (first.toNat / 4), letter (first.toNat % 4 * 16)], 2, rfl, ?_, by simp,
        by simp, ?_⟩
      · simp [letter_mem]
      · rw [spareBits, sextet_letter (by omega)]
        omega
  | case3 first second =>
      refine ⟨[letter (first.toNat / 4), letter (first.toNat % 4 * 16 + second.toNat / 16),
        letter (second.toNat % 16 * 4)], 1, rfl, ?_, by simp, by simp, ?_⟩
      · simp [letter_mem]
      · rw [spareBits, sextet_letter (by omega)]
        omega
  | case4 first second third rest ih =>
      obtain ⟨letters, pads, encoded, within, few, whole, spare⟩ := ih
      refine ⟨letter (first.toNat / 4) :: letter (first.toNat % 4 * 16 + second.toNat / 16) ::
        letter (second.toNat % 16 * 4 + third.toNat / 64) :: letter (third.toNat % 64) :: letters,
        pads, ?_, ?_, few, ?_, spare⟩
      · rw [encoded]
        rfl
      · simpa [letter_mem] using within
      · simp only [List.length_cons]
        omega

/-- The first letter of a group, read back from the byte that holds it. -/
theorem first_letter {a b : Nat} (aSmall : a < 64) (bSmall : b < 64) :
    (a * 4 + b / 16) % 256 / 4 = a := by
  omega

/-- The second letter of a group, read back from the two bytes that share it. -/
theorem second_letter (a : Nat) {b c : Nat} (bSmall : b < 64) (cSmall : c < 64) :
    (a * 4 + b / 16) % 256 % 4 * 16 + (b % 16 * 16 + c / 4) % 256 / 16 = b := by
  omega

/-- Letters without spare bits are what their bytes are encoded as. -/
theorem encode_of_decode {letters : List Char} {bytes : List UInt8}
    (within : ∀ character ∈ letters, character ∈ alphabet) (spare : spareBits letters = 0)
    (decoded : decode? (letters ++ List.replicate ((4 - letters.length % 4) % 4) '=') = some bytes) :
    encode bytes = letters ++ List.replicate ((4 - letters.length % 4) % 4) '=' := by
  unfold decode? at decoded
  fun_induction spareBits letters generalizing bytes with
  | case1 first second third fourth rest ih =>
      simp only [List.mem_cons, forall_eq_or_imp] at within
      obtain ⟨inFirst, inSecond, inThird, inFourth, inRest⟩ := within
      obtain ⟨a, aSmall, rfl⟩ := exists_letter inFirst
      obtain ⟨b, bSmall, rfl⟩ := exists_letter inSecond
      obtain ⟨c, cSmall, rfl⟩ := exists_letter inThird
      obtain ⟨d, dSmall, rfl⟩ := exists_letter inFourth
      have padding : (4 - (rest.length + 1 + 1 + 1 + 1) % 4) % 4 = (4 - rest.length % 4) % 4 := by
        omega
      simp only [List.length_cons, padding, List.cons_append] at decoded ⊢
      simp (disch := omega) only [decodeFrom_letter, absorb, Option.map_map] at decoded
      obtain ⟨tail, tailDecoded, rfl⟩ := Option.map_eq_some_iff.mp decoded
      have encoded := ih inRest spare tailDecoded
      have first := first_letter aSmall bSmall
      have second := second_letter a bSmall cSmall
      have third : (b % 16 * 16 + c / 4) % 256 % 16 * 4 + (c % 4 * 64 + d) % 256 / 64 = c := by omega
      have fourth : (c % 4 * 64 + d) % 256 % 64 = d := by omega
      simp only [Function.comp_apply, List.nil_append, List.cons_append, encode, encoded,
        UInt8.toNat_ofNat', Nat.reducePow, first, second, third, fourth]
  | case2 first second third =>
      simp only [List.mem_cons, List.not_mem_nil, or_false, forall_eq_or_imp, forall_eq] at within
      obtain ⟨inFirst, inSecond, inThird⟩ := within
      obtain ⟨a, aSmall, rfl⟩ := exists_letter inFirst
      obtain ⟨b, bSmall, rfl⟩ := exists_letter inSecond
      obtain ⟨c, cSmall, rfl⟩ := exists_letter inThird
      rw [sextet_letter cSmall] at spare
      simp only [List.length_cons, List.length_nil, List.cons_append, List.nil_append] at decoded ⊢
      simp (disch := omega) only [decodeFrom_letter, absorb, Option.map_map] at decoded
      obtain ⟨tail, tailDecoded, rfl⟩ := Option.map_eq_some_iff.mp decoded
      cases tailDecoded
      have first := first_letter aSmall bSmall
      have second := second_letter a bSmall cSmall
      have third : (b % 16 * 16 + c / 4) % 256 % 16 * 4 = c := by omega
      simp only [Function.comp_apply, List.nil_append, List.cons_append, encode,
        UInt8.toNat_ofNat', Nat.reducePow, first, second, third]
      rfl
  | case3 first second =>
      simp only [List.mem_cons, List.not_mem_nil, or_false, forall_eq_or_imp, forall_eq] at within
      obtain ⟨inFirst, inSecond⟩ := within
      obtain ⟨a, aSmall, rfl⟩ := exists_letter inFirst
      obtain ⟨b, bSmall, rfl⟩ := exists_letter inSecond
      rw [sextet_letter bSmall] at spare
      simp only [List.length_cons, List.length_nil, List.cons_append, List.nil_append] at decoded ⊢
      simp (disch := omega) only [decodeFrom_letter, absorb, Option.map_map] at decoded
      obtain ⟨tail, tailDecoded, rfl⟩ := Option.map_eq_some_iff.mp decoded
      cases tailDecoded
      have first := first_letter aSmall bSmall
      have second : (a * 4 + b / 16) % 256 % 4 * 16 = b := by omega
      simp only [Function.comp_apply, List.nil_append, List.cons_append, encode,
        UInt8.toNat_ofNat', Nat.reducePow, first, second]
      rfl
  | case4 letters notFour notThree notTwo =>
      rcases letters with _ | ⟨only, _ | ⟨second, _ | ⟨third, _ | ⟨fourth, rest⟩⟩⟩⟩
      · cases decoded
        rfl
      · obtain ⟨value, small, rfl⟩ := exists_letter (within only List.mem_cons_self)
        -- one letter of a group is less than a byte
        have rejected : decodeFrom 0 0 0 (letter value :: List.replicate 3 '=') = none := by
          rw [decodeFrom_letter small]
          rfl
        simp only [List.length_cons, List.length_nil, List.cons_append, List.nil_append] at decoded
        exact absurd (rejected.symm.trans decoded) (by simp)
      · exact absurd rfl (notTwo only second)
      · exact absurd rfl (notThree only second third)
      · exact absurd rfl (notFour only second third fourth rest)

/-- A character outside the alphabet changes nothing, wherever it stands. -/
theorem decodeFrom_skip {skipped : Char} (notPad : skipped ≠ '=') (foreign : sextet? skipped = none)
    (quadPos leftchar pads : Nat) (before after : List Char) :
    decodeFrom quadPos leftchar pads (before ++ skipped :: after) =
      decodeFrom quadPos leftchar pads (before ++ after) := by
  induction before generalizing quadPos leftchar pads with
  | nil => rw [List.nil_append, decodeFrom.eq_2, if_neg notPad, foreign, List.nil_append]
  | cons character rest ih =>
      rw [List.cons_append, List.cons_append, decodeFrom.eq_2, decodeFrom.eq_2]
      simp only [ih]

/-! ## The alphabet for URLs -/

def toUrlsafe (character : Char) : Char :=
  if character = '+' then '-' else if character = '/' then '_' else character

def ofUrlsafe (character : Char) : Char :=
  if character = '-' then '+' else if character = '_' then '/' else character

def urlsafeEncode (bytes : List UInt8) : List Char :=
  (encode bytes).map toUrlsafe

/-- `urlsafe_b64decode`, `none` where it raises: text outside ASCII is a `ValueError`, and so is
`binascii.Error`. -/
def urlsafeDecode? (text : List Char) : Option (List UInt8) :=
  if text.all (·.toNat < 128) then decode? (text.map ofUrlsafe) else none

theorem ofUrlsafe_toUrlsafe : ∀ character ∈ alphabet, ofUrlsafe (toUrlsafe character) = character := by
  intro character member
  obtain ⟨_, _, _, notDash, notUnderscore⟩ := alphabet_plain character member
  unfold toUrlsafe
  split
  · subst character
    rfl
  · split
    · subst character
      rfl
    · rw [ofUrlsafe, if_neg notDash, if_neg notUnderscore]

theorem map_ofUrlsafe_toUrlsafe {letters : List Char}
    (within : ∀ character ∈ letters, character ∈ alphabet) :
    (letters.map toUrlsafe).map ofUrlsafe = letters := by
  rw [List.map_map]
  refine (List.map_congr_left fun character member => ?_).trans (List.map_id' letters)
  exact ofUrlsafe_toUrlsafe character (within character member)

theorem toUrlsafe_plain : ∀ character ∈ alphabet, (toUrlsafe character).toNat < 128 ∧
    toUrlsafe character ≠ '.' ∧ toUrlsafe character ≠ '=' := by
  intro character member
  obtain ⟨ascii, notPad, notDot, _⟩ := alphabet_plain character member
  unfold toUrlsafe
  split
  · decide
  · split
    · decide
    · exact ⟨ascii, notDot, notPad⟩

/-- `rstrip(b"=")` -/
def withoutPadding (text : List Char) : List Char :=
  text.rdropWhile (· = '=')

/-- Text followed by the padding that makes its length a multiple of four. -/
def withPadding (text : List Char) : List Char :=
  text ++ List.replicate ((4 - text.length % 4) % 4) '='

theorem withoutPadding_append (text : List Char) (pads : Nat) :
    withoutPadding (text ++ List.replicate pads '=') = withoutPadding text := by
  induction pads with
  | zero => simp
  | succ pads ih =>
      rw [List.replicate_succ', ← List.append_assoc, withoutPadding,
        List.rdropWhile_concat_pos _ _ _ (by simp)]
      exact ih

theorem withoutPadding_of_unpadded {text : List Char}
    (unpadded : ∀ character ∈ text, character ≠ '=') : withoutPadding text = text := by
  rw [withoutPadding, List.rdropWhile_eq_self_iff]
  intro nonempty isPad
  exact unpadded _ (List.getLast_mem nonempty) (of_decide_eq_true isPad)

theorem withoutPadding_urlsafeEncode (bytes : List UInt8) :
    ∃ letters pads, encode bytes = letters ++ List.replicate pads '=' ∧
      withoutPadding (urlsafeEncode bytes) = letters.map toUrlsafe ∧
      (∀ character ∈ letters, character ∈ alphabet) ∧ pads < 3 ∧ (letters.length + pads) % 4 = 0 ∧
      spareBits letters = 0 := by
  obtain ⟨letters, pads, encoded, within, few, whole, spare⟩ := encode_eq_append bytes
  refine ⟨letters, pads, encoded, ?_, within, few, whole, spare⟩
  have safe : ∀ character ∈ letters.map toUrlsafe, character ≠ '=' := by
    intro character member
    obtain ⟨original, originalMember, rfl⟩ := List.mem_map.mp member
    exact (toUrlsafe_plain original (within original originalMember)).2.2
  have padding : (List.replicate pads '=').map toUrlsafe = List.replicate pads '=' := by
    rw [List.map_replicate]
    rfl
  rw [urlsafeEncode, encoded, List.map_append, padding, withoutPadding_append]
  exact withoutPadding_of_unpadded safe

theorem mem_withoutPadding {bytes : List UInt8} {character : Char}
    (member : character ∈ withoutPadding (urlsafeEncode bytes)) :
    character.toNat < 128 ∧ character ≠ '.' := by
  obtain ⟨letters, pads, _, stripped, within, _⟩ := withoutPadding_urlsafeEncode bytes
  rw [stripped] at member
  obtain ⟨original, originalMember, rfl⟩ := List.mem_map.mp member
  obtain ⟨ascii, notDot, _⟩ := toUrlsafe_plain original (within original originalMember)
  exact ⟨ascii, notDot⟩

theorem urlsafeDecode?_withPadding (bytes : List UInt8) :
    urlsafeDecode? (withPadding (withoutPadding (urlsafeEncode bytes))) = some bytes := by
  obtain ⟨letters, pads, encoded, stripped, within, few, whole, _⟩ :=
    withoutPadding_urlsafeEncode bytes
  have padding : (4 - letters.length % 4) % 4 = pads := by omega
  have restored := map_ofUrlsafe_toUrlsafe within
  have ascii : ∀ character ∈ letters.map toUrlsafe ++ List.replicate pads '=',
      character.toNat < 128 := by
    intro character member
    rcases List.mem_append.mp member with isLetter | isPad
    · exact (mem_withoutPadding (stripped ▸ isLetter)).1
    · rw [List.eq_of_mem_replicate isPad]
      decide
  have allAscii : (letters.map toUrlsafe ++ List.replicate pads '=').all (·.toNat < 128) = true := by
    rw [List.all_eq_true]
    intro character member
    exact decide_eq_true (ascii character member)
  rw [stripped, withPadding, List.length_map, padding, urlsafeDecode?, if_pos allAscii,
    List.map_append, restored, List.map_replicate]
  have padKept : ofUrlsafe '=' = '=' := by decide
  rw [padKept, ← encoded, decode?_encode]

/-! ## Canonical spellings -/

/-- Letters, digits, `-` and `_`. -/
def isUrlsafe (character : Char) : Bool :=
  character.isAlphanum || character = '-' || character = '_'

theorem isUrlsafe_toUrlsafe : ∀ character ∈ alphabet, isUrlsafe (toUrlsafe character) = true := by
  have checked : (alphabet.all fun character => isUrlsafe (toUrlsafe character)) = true := by decide
  exact List.all_eq_true.mp checked

theorem lt_of_isAlphanum {character : Char} (plain : character.isAlphanum = true) :
    character.toNat < 128 := by
  have atMost : ∀ {last : Char}, character.val ≤ last.val → character.toNat ≤ last.toNat :=
    UInt32.le_iff_toNat_le.mp
  rcases Bool.or_eq_true_iff.mp plain with letter | digit
  · rcases Bool.or_eq_true_iff.mp letter with upper | lower
    · exact Nat.lt_of_le_of_lt (atMost (of_decide_eq_true upper).2) (by decide)
    · have bound := of_decide_eq_true (Bool.and_eq_true_iff.mp lower).2
      exact Nat.lt_of_le_of_lt (atMost bound) (by decide)
  · have bound := of_decide_eq_true (Bool.and_eq_true_iff.mp digit).2
    exact Nat.lt_of_le_of_lt (atMost bound) (by decide)

theorem ofUrlsafe_mem {character : Char} (plain : isUrlsafe character = true) :
    ofUrlsafe character ∈ alphabet ∧ toUrlsafe (ofUrlsafe character) = character := by
  have checked : ∀ code < 128, isUrlsafe (Char.ofNat code) = true →
      ofUrlsafe (Char.ofNat code) ∈ alphabet ∧
        toUrlsafe (ofUrlsafe (Char.ofNat code)) = Char.ofNat code := by
    decide +kernel
  have ascii : character.toNat < 128 := by
    simp only [isUrlsafe, Bool.or_eq_true, decide_eq_true_eq] at plain
    rcases plain with (alphanumeric | rfl) | rfl
    · exact lt_of_isAlphanum alphanumeric
    · decide
    · decide
  rw [← Char.ofNat_toNat character] at plain ⊢
  exact checked character.toNat ascii plain

/-- A text is the unpadded encoding of what it decodes to exactly if it has letters of the
alphabet only and the last one leaves no bits over. -/
theorem withoutPadding_urlsafeEncode_eq_iff {text : List Char} {bytes : List UInt8}
    (decoded : urlsafeDecode? (withPadding text) = some bytes) :
    withoutPadding (urlsafeEncode bytes) = text ↔
      (∀ character ∈ text, isUrlsafe character = true) ∧ spareBits (text.map ofUrlsafe) = 0 := by
  constructor
  · rintro rfl
    obtain ⟨letters, _, _, stripped, within, _, _, spare⟩ := withoutPadding_urlsafeEncode bytes
    rw [stripped, map_ofUrlsafe_toUrlsafe within]
    refine ⟨?_, spare⟩
    intro character member
    obtain ⟨original, originalMember, rfl⟩ := List.mem_map.mp member
    exact isUrlsafe_toUrlsafe original (within original originalMember)
  · intro given
    obtain ⟨plain, spare⟩ := given
    have padKept : ofUrlsafe '=' = '=' := by decide
    unfold urlsafeDecode? at decoded
    split at decoded
    swap
    · cases decoded
    rw [withPadding, List.map_append, List.map_replicate, padKept] at decoded
    have within : ∀ character ∈ text.map ofUrlsafe, character ∈ alphabet := by
      intro character member
      obtain ⟨original, originalMember, rfl⟩ := List.mem_map.mp member
      exact (ofUrlsafe_mem (plain original originalMember)).1
    have restored : (text.map ofUrlsafe).map toUrlsafe = text := by
      rw [List.map_map]
      refine (List.map_congr_left fun character member => ?_).trans (List.map_id' text)
      exact (ofUrlsafe_mem (plain character member)).2
    have encoded := @encode_of_decode (text.map ofUrlsafe) bytes within spare
    rw [List.length_map] at encoded
    have padUnchanged : toUrlsafe '=' = '=' := by decide
    rw [urlsafeEncode, encoded decoded, List.map_append, restored, List.map_replicate, padUnchanged,
      withoutPadding_append]
    apply withoutPadding_of_unpadded
    intro character member isPad
    have safe := plain character member
    rw [isPad] at safe
    exact absurd safe (by decide)

/-- Four characters that are skipped leave the padding as it is. -/
theorem urlsafeDecode?_append_skipped (text : List Char) :
    urlsafeDecode? (withPadding (text ++ ['!', '!', '!', '!'])) = urlsafeDecode? (withPadding text) := by
  have skipped (before after : List Char) :
      decode? (before ++ '!' :: '!' :: '!' :: '!' :: after) = decode? (before ++ after) := by
    have foreign : sextet? '!' = none := by decide
    simp only [decode?, decodeFrom_skip (by decide) foreign]
  have padding : (4 - (text.length + 4) % 4) % 4 = (4 - text.length % 4) % 4 := by omega
  have mark : ofUrlsafe '!' = '!' := by decide
  have ascii : ('!').toNat < 128 := by decide
  simp only [urlsafeDecode?, withPadding, List.length_append, List.length_cons, List.length_nil,
    Nat.zero_add, Nat.reduceAdd, padding, List.append_assoc, List.cons_append, List.nil_append,
    List.map_append, List.map_cons, mark, skipped, List.all_append, List.all_cons, ascii,
    decide_true, Bool.true_and]

end Foundation.Base64
