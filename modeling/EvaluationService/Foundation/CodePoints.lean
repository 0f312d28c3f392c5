import EvaluationService.Foundation.Text

/-!
Text as sequences of code points, lone surrogates included, as a Python `str` holds them.
A text without surrogates is a `String`.
-/

set_option autoImplicit false

namespace Foundation

abbrev CodePoint : Type := Fin 0x110000

namespace CodePoint

def IsSurrogate (point : CodePoint) : Prop :=
  0xD800 ≤ point.val ∧ point.val ≤ 0xDFFF

instance (point : CodePoint) : Decidable point.IsSurrogate :=
  inferInstanceAs (Decidable (_ ∧ _))

theorem toNat_lt (character : Char) : character.toNat < 0x110000 := by
  have valid : character.toNat.isValidChar := character.valid
  unfold Nat.isValidChar at valid
  omega

def ofChar (character : Char) : CodePoint :=
  ⟨character.toNat, toNat_lt character⟩

/-- The character, if it is a scalar value. -/
def char? (point : CodePoint) : Option Char :=
  if scalar : point.val.isValidChar then some (Char.ofNatAux point.val scalar) else none

theorem char?_ofChar (character : Char) : (ofChar character).char? = some character := by
  have valid : (ofChar character).val.isValidChar := character.valid
  rw [char?, dif_pos valid, Option.some.injEq]
  apply Char.ext
  exact UInt32.toNat_inj.mp rfl

theorem char?_eq_some_iff {point : CodePoint} {character : Char} :
    point.char? = some character ↔ point = ofChar character := by
  constructor
  · intro isChar
    by_cases scalar : point.val.isValidChar
    · rw [char?, dif_pos scalar] at isChar
      obtain rfl := Option.some.inj isChar
      exact Fin.ext rfl
    · rw [char?, dif_neg scalar] at isChar
      cases isChar
  · rintro rfl
    exact char?_ofChar character

theorem char?_eq_none_iff {point : CodePoint} : point.char? = none ↔ point.IsSurrogate := by
  have bound := point.isLt
  by_cases scalar : point.val.isValidChar
  · rw [char?, dif_pos scalar]
    refine iff_of_false (Option.some_ne_none _) ?_
    unfold Nat.isValidChar at scalar
    unfold IsSurrogate
    omega
  · rw [char?, dif_neg scalar]
    refine iff_of_true rfl ?_
    unfold Nat.isValidChar at scalar
    unfold IsSurrogate
    omega

/-- `str.isspace` on one character. -/
def isSpace (point : CodePoint) : Bool :=
  point.char?.any Text.isSpace

theorem isSpace_ofChar (character : Char) : (ofChar character).isSpace = Text.isSpace character := by
  rw [isSpace, char?_ofChar, Option.any_some]

end CodePoint

abbrev CodeText : Type := List CodePoint

namespace CodeText

def ofString (text : String) : CodeText :=
  text.toList.map CodePoint.ofChar

/-- The text as a string, if no surrogate stands in it. -/
def string? (text : CodeText) : Option String :=
  (text.mapM CodePoint.char?).map String.ofList

/-- `text.split()` -/
def split (text : CodeText) : List CodeText :=
  (text.splitOnP CodePoint.isSpace).filter (!·.isEmpty)

theorem string?_eq_some_iff {text : CodeText} {string : String} :
    text.string? = some string ↔ text = ofString string := by
  have characters : ∀ characters : List Char, text.mapM CodePoint.char? = some characters ↔
      text = characters.map CodePoint.ofChar := by
    induction text with
    | nil =>
        intro characters
        simp [eq_comm]
    | cons first rest ih =>
        intro characters
        cases characters with
        | nil => simp [Option.bind_eq_some_iff]
        | cons head tail => simp [Option.bind_eq_some_iff, CodePoint.char?_eq_some_iff, ih]
  rw [string?, ofString, Option.map_eq_some_iff]
  constructor
  · rintro ⟨found, isFound, rfl⟩
    rw [String.toList_ofList]
    exact (characters found).mp isFound
  · intro same
    exact ⟨string.toList, (characters _).mpr same, String.ofList_toList⟩

theorem string?_ofString (text : String) : (ofString text).string? = some text :=
  string?_eq_some_iff.mpr rfl

theorem ofString_injective : Function.Injective ofString := by
  intro first second same
  have strings := congrArg string? same
  rwa [string?_ofString, string?_ofString, Option.some.injEq] at strings

theorem ofString_eq_nil_iff {text : String} : ofString text = [] ↔ text = "" := by
  rw [ofString, List.map_eq_nil_iff, String.toList_eq_nil_iff]

theorem length_ofString (text : String) : (ofString text).length = text.length := by
  rw [ofString, List.length_map, String.length_toList]

theorem not_isSurrogate_of_string? {text : CodeText} {string : String}
    (isString : text.string? = some string) : ∀ point ∈ text, ¬point.IsSurrogate := by
  obtain rfl := string?_eq_some_iff.mp isString
  intro point member surrogate
  obtain ⟨character, -, rfl⟩ := List.mem_map.mp member
  rw [← CodePoint.char?_eq_none_iff, CodePoint.char?_ofChar] at surrogate
  cases surrogate

theorem exists_string {text : CodeText} (scalars : ∀ point ∈ text, ¬point.IsSurrogate) :
    ∃ string, text = ofString string := by
  induction text with
  | nil => exact ⟨"", rfl⟩
  | cons first rest ih =>
      obtain ⟨firstScalar, restScalars⟩ := List.forall_mem_cons.mp scalars
      obtain ⟨string, rfl⟩ := ih restScalars
      cases found : first.char? with
      | none => exact absurd (CodePoint.char?_eq_none_iff.mp found) firstScalar
      | some character =>
          obtain rfl := CodePoint.char?_eq_some_iff.mp found
          refine ⟨String.ofList (character :: string.toList), ?_⟩
          simp [ofString]

theorem splitOnP_map_ofChar (characters : List Char) :
    (characters.map CodePoint.ofChar).splitOnP CodePoint.isSpace =
      (characters.splitOnP Text.isSpace).map (·.map CodePoint.ofChar) := by
  induction characters with
  | nil => rfl
  | cons first rest ih =>
      rw [List.map_cons, List.splitOnP_cons_eq_if_modifyHead, List.splitOnP_cons_eq_if_modifyHead,
        CodePoint.isSpace_ofChar, ih]
      by_cases space : Text.isSpace first = true
      · rw [if_pos space, if_pos space, List.map_cons, List.map_nil]
      · rw [if_neg space, if_neg space]
        cases rest.splitOnP Text.isSpace with
        | nil => rfl
        | cons head tail => rfl

theorem split_ofString (text : String) :
    split (ofString text) = (Text.split text).map ofString := by
  rw [split, ofString, splitOnP_map_ofChar, Text.split, List.filter_map, List.map_map]
  have kept : ((fun piece : CodeText => !piece.isEmpty) ∘ fun piece : List Char =>
      piece.map CodePoint.ofChar) = fun piece => !piece.isEmpty := by
    funext piece
    rw [Function.comp_apply, List.isEmpty_map]
  rw [kept]
  apply List.map_congr_left
  intro piece _
  rw [Function.comp_apply, ofString, String.toList_ofList]

end CodeText

end Foundation
