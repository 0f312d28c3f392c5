import EvaluationService.Core.Auth
import EvaluationService.Domain.EvaluationProperties

/-!
What punctuation does to the terms of a text. The length filter reads the raw token and
everything after it the stripped one, so a token that is long by its punctuation alone
is a term like any other.
-/

set_option autoImplicit false

namespace EvaluationService

open Foundation

/-- The word of a token: what the set of terms compares. -/
def word (lower : String → String) (token : String) : String :=
  Text.stripChars punctuation (lower token)

def words (lower : String → String) (text : String) : List String :=
  (Text.split text).map (word lower)

def IsPunctuation (text : String) : Prop :=
  ∀ character ∈ text.toList, character ∈ punctuation.toList

instance (text : String) : Decidable (IsPunctuation text) :=
  List.decidableBAll (· ∈ punctuation.toList) text.toList

/-- No word of the one text is a word of the other. A token without a letter or a digit of
its own has no word. -/
def NoCommonWord (lower : String → String) (left right : String) : Prop :=
  ∀ common, common ≠ "" → common ∈ words lower left → common ∉ words lower right

/-- A token that only its punctuation makes long enough. -/
def HasLongPunctuation (text : String) : Prop :=
  ∃ token ∈ Text.split text, IsPunctuation token ∧ 3 < token.length

/-- The word is in the text in tokens of at most three characters only. -/
def WrittenShort (lower : String → String) (text term : String) : Prop :=
  ∀ token ∈ Text.split text, word lower token = term → token.length ≤ 3

/-- No token of the text can be written in three characters or fewer with the same word,
unless the word is a stop word. -/
def OnlyLongSpellings (lower : String → String) (text : String) : Prop :=
  ∀ token ∈ Text.split text, word lower token ∈ stopWords ∨
    ∀ spelling, Text.IsToken spelling → word lower spelling = word lower token →
      3 < spelling.length

/-- What `str.lower` does with punctuation: it keeps a run of full stops at the end, makes
no punctuation of other characters and no other characters of punctuation. -/
structure KeepsPunctuation (lower : String → String) : Prop where
  dots : ∀ text, lower (text ++ "....") = lower text ++ "...."
  punctuation : ∀ text, IsPunctuation (lower text) ↔ IsPunctuation text

theorem mem_significantTerms_iff_word {lower : String → String} {text term : String} :
    term ∈ significantTerms lower text ↔
      (∃ token ∈ Text.split text, 3 < token.length ∧ word lower token = term) ∧
        term ∉ stopWords :=
  mem_significantTerms

section Pairs

variable {lower : String → String} {text other : String}

theorem mem_words {common : String} :
    common ∈ words lower text ↔ ∃ token ∈ Text.split text, word lower token = common :=
  List.mem_map

theorem hasLongPunctuation_strip :
    HasLongPunctuation (Text.strip text) ↔ HasLongPunctuation text := by
  rw [HasLongPunctuation, HasLongPunctuation, Text.split_strip]

theorem NoCommonWord.strip (noCommon : NoCommonWord lower text other) :
    NoCommonWord lower text (Text.strip other) := by
  rw [NoCommonWord, words, words, Text.split_strip]
  exact noCommon

/-- Texts have the same terms when each word has a long spelling in both or in neither. -/
theorem significantTerms_eq_iff :
    significantTerms lower text = significantTerms lower other ↔
      ∀ term, term ∉ stopWords →
        ((∃ token ∈ Text.split text, 3 < token.length ∧ word lower token = term) ↔
          ∃ token ∈ Text.split other, 3 < token.length ∧ word lower token = term) := by
  rw [Finset.ext_iff]
  apply forall_congr'
  intro term
  rw [mem_significantTerms_iff_word, mem_significantTerms_iff_word]
  by_cases stop : term ∈ stopWords
  · simp only [stop, not_true_eq_false, and_false, false_imp_iff]
  · simp only [stop, not_false_eq_true, and_true, true_imp_iff]

theorem word_mem_words_of_eq (same : words lower text = words lower other) {token : String}
    (member : token ∈ Text.split text) :
    ∃ twin ∈ Text.split other, word lower twin = word lower token := by
  apply mem_words.mp
  rw [← same]
  exact List.mem_map_of_mem member

/-- Where the words agree, the terms do unless a word is short throughout one text only. -/
theorem significantTerms_eq_iff_writtenShort (same : words lower text = words lower other) :
    significantTerms lower text = significantTerms lower other ↔
      ∀ term ∈ words lower text, term ∉ stopWords →
        (WrittenShort lower text term ↔ WrittenShort lower other term) := by
  have long : ∀ given term, (∃ token ∈ Text.split given, 3 < token.length ∧
      word lower token = term) ↔ ¬WrittenShort lower given term := by
    intro given term
    simp only [WrittenShort, not_forall, not_le, exists_prop]
    exact exists_congr fun token => and_congr_right fun _ => and_comm
  rw [significantTerms_eq_iff]
  simp only [long, not_iff_not]
  constructor
  · intro agree term _ content
    exact agree term content
  · intro agree term content
    by_cases member : term ∈ words lower text
    · exact agree term member content
    · have absent : ∀ given, words lower given = words lower text →
          WrittenShort lower given term := by
        intro given equal token inGiven isWord
        refine absurd ?_ member
        rw [← equal]
        exact mem_words.mpr ⟨token, inGiven, isWord⟩
      exact iff_of_true (absent text rfl) (absent other same.symm)

/-- Long spellings alone: agreement of the words is agreement of the terms. -/
theorem significantTerms_eq_of_words_eq (long : OnlyLongSpellings lower text)
    (same : words lower text = words lower other) :
    significantTerms lower text = significantTerms lower other := by
  apply significantTerms_eq_iff.mpr
  intro term content
  constructor
  · intro given
    obtain ⟨token, member, -, rfl⟩ := given
    obtain ⟨twin, twinMember, twinWord⟩ := word_mem_words_of_eq same member
    rcases long token member with stop | spellings
    · exact absurd stop content
    · have isToken := Text.isToken_of_mem_split twinMember
      exact ⟨twin, twinMember, spellings twin isToken twinWord, twinWord⟩
  · intro given
    obtain ⟨token, member, -, rfl⟩ := given
    obtain ⟨twin, twinMember, twinWord⟩ := word_mem_words_of_eq same.symm member
    rcases long twin twinMember with stop | spellings
    · rw [twinWord] at stop
      exact absurd stop content
    · exact ⟨twin, twinMember, spellings twin (Text.isToken_of_mem_split twinMember) rfl, twinWord⟩

end Pairs

section Laws

variable {lower : String → String} (laws : KeepsPunctuation lower)

include laws

theorem word_eq_empty_iff {token : String} : word lower token = "" ↔ IsPunctuation token := by
  rw [← laws.punctuation, word, Text.stripChars, Text.stripWhere_eq_empty_iff, IsPunctuation]
  simp only [List.contains_iff_mem]

theorem word_append_dots (token : String) : word lower (token ++ "....") = word lower token := by
  rw [word, laws.dots]
  apply Text.stripWhere_append_dropped
  exact List.all_eq_true.mp (by decide)

theorem empty_mem_significantTerms_iff {text : String} :
    "" ∈ significantTerms lower text ↔ HasLongPunctuation text := by
  rw [mem_significantTerms_iff_word]
  constructor
  · intro given
    obtain ⟨⟨token, member, long, empty⟩, -⟩ := given
    exact ⟨token, member, (word_eq_empty_iff laws).mp empty, long⟩
  · intro given
    obtain ⟨token, member, isPunctuation, long⟩ := given
    exact ⟨⟨token, member, long, (word_eq_empty_iff laws).mpr isPunctuation⟩, by decide⟩

/-- The only term of texts without a common word is the empty one. -/
theorem common_term_iff {left right : String} (noCommon : NoCommonWord lower left right) :
    (∃ term, term ∈ significantTerms lower left ∧ term ∈ significantTerms lower right) ↔
      HasLongPunctuation left ∧ HasLongPunctuation right := by
  constructor
  · intro overlap
    obtain ⟨term, inLeft, inRight⟩ := overlap
    have empty : term = "" := by
      by_contra nonempty
      obtain ⟨⟨token, member, -, isWord⟩, -⟩ := mem_significantTerms_iff_word.mp inLeft
      obtain ⟨⟨twin, twinMember, -, twinWord⟩, -⟩ := mem_significantTerms_iff_word.mp inRight
      exact noCommon term nonempty (mem_words.mpr ⟨token, member, isWord⟩)
        (mem_words.mpr ⟨twin, twinMember, twinWord⟩)
    subst empty
    exact ⟨(empty_mem_significantTerms_iff laws).mp inLeft,
      (empty_mem_significantTerms_iff laws).mp inRight⟩
  · intro long
    exact ⟨"", (empty_mem_significantTerms_iff laws).mpr long.1,
      (empty_mem_significantTerms_iff laws).mpr long.2⟩

theorem overlapScore_eq_zero_iff {question answer : String}
    (noCommon : NoCommonWord lower question answer) :
    overlapScore lower question answer = 0 ↔
      ¬(HasLongPunctuation question ∧ HasLongPunctuation answer) := by
  rw [← common_term_iff laws noCommon, overlapScore]
  have zero : ∀ count : Nat, min (count * 10) 40 = 0 ↔ count = 0 := by
    intro count
    omega
  rw [zero, Finset.card_eq_zero, Finset.eq_empty_iff_forall_notMem, not_exists]
  simp only [Finset.mem_inter]

theorem rubricBonus_eq_zero_iff {rubric answer : String}
    (noCommon : NoCommonWord lower rubric answer) :
    rubricBonus lower (some rubric) answer = 0 ↔
      ¬(HasLongPunctuation rubric ∧ HasLongPunctuation answer) := by
  rw [← common_term_iff laws noCommon, ← hasAnyOverlap_iff, rubricBonus]
  by_cases overlap : hasAnyOverlap lower rubric answer = true
  · have given : rubric ≠ "" := by
      intro empty
      subst empty
      obtain ⟨term, inRubric, -⟩ := hasAnyOverlap_iff.mp overlap
      cases inRubric
    simp [overlap, given]
  · simp [overlap]

end Laws

/-! ## Two ways to write the words of a text -/

/-- Every token of the text with full stops after it. -/
def padded (text : String) : String :=
  Text.join ' ' ((Text.split text).map (· ++ "...."))

/-- The text with one spelling for every token that has its word. -/
def respelled (lower : String → String) (spelling text : String) : String :=
  Text.join ' ' ((Text.split text).map fun token =>
    if word lower token = word lower spelling then spelling else token)

section Spellings

variable {lower : String → String} {text spelling : String}

theorem split_padded (text : String) :
    Text.split (padded text) = (Text.split text).map (· ++ "....") := by
  apply Text.split_join
  intro token member
  obtain ⟨start, startMember, rfl⟩ := List.mem_map.mp member
  have isToken := Text.isToken_of_mem_split startMember
  constructor
  · simp
  · intro character inToken
    rw [String.toList_append, List.mem_append] at inToken
    rcases inToken with inStart | inDots
    · exact isToken.2 character inStart
    · have dot : character = '.' := by simpa using inDots
      subst dot
      decide

theorem split_respelled (isToken : Text.IsToken spelling) (text : String) :
    Text.split (respelled lower spelling text) = (Text.split text).map fun token =>
      if word lower token = word lower spelling then spelling else token := by
  apply Text.split_join
  intro token member
  obtain ⟨start, startMember, rfl⟩ := List.mem_map.mp member
  by_cases sameWord : word lower start = word lower spelling
  · rw [if_pos sameWord]
    exact isToken
  · rw [if_neg sameWord]
    exact Text.isToken_of_mem_split startMember

theorem words_padded (laws : KeepsPunctuation lower) (text : String) :
    words lower (padded text) = words lower text := by
  rw [words, split_padded, List.map_map]
  apply List.map_congr_left
  intro token _
  exact word_append_dots laws token

theorem words_respelled (isToken : Text.IsToken spelling) (text : String) :
    words lower (respelled lower spelling text) = words lower text := by
  rw [words, split_respelled isToken, List.map_map]
  apply List.map_congr_left
  intro token _
  by_cases sameWord : word lower token = word lower spelling
  · rw [Function.comp_apply, if_pos sameWord, sameWord]
  · rw [Function.comp_apply, if_neg sameWord]

theorem mem_significantTerms_padded (laws : KeepsPunctuation lower) {token : String}
    (member : token ∈ Text.split text) (content : word lower token ∉ stopWords) :
    word lower token ∈ significantTerms lower (padded text) := by
  apply mem_significantTerms_iff_word.mpr
  refine ⟨⟨token ++ "....", ?_, ?_, word_append_dots laws token⟩, content⟩
  · rw [split_padded]
    exact List.mem_map_of_mem member
  · have dots : "....".length = 4 := rfl
    rw [String.length_append, dots]
    omega

theorem not_mem_significantTerms_respelled (isToken : Text.IsToken spelling)
    (short : spelling.length ≤ 3) :
    word lower spelling ∉ significantTerms lower (respelled lower spelling text) := by
  intro isTerm
  obtain ⟨⟨token, member, long, sameWord⟩, -⟩ := mem_significantTerms_iff_word.mp isTerm
  rw [split_respelled isToken] at member
  obtain ⟨start, -, written⟩ := List.mem_map.mp member
  by_cases startWord : word lower start = word lower spelling
  · rw [if_pos startWord] at written
    subst written
    omega
  · rw [if_neg startWord] at written
    subst written
    exact startWord sameWord

/-- Full stops make every word a term, and a short spelling makes its word none: a text whose
terms depend on its words alone has long spellings only. -/
theorem onlyLongSpellings_of_same_terms (laws : KeepsPunctuation lower)
    (same : ∀ other, words lower text = words lower other →
      significantTerms lower text = significantTerms lower other) :
    OnlyLongSpellings lower text := by
  intro token member
  by_cases stop : word lower token ∈ stopWords
  · exact .inl stop
  · refine .inr fun spelling isToken sameWord => ?_
    by_contra short
    have inPadded := mem_significantTerms_padded laws member stop
    rw [← same _ (words_padded laws text).symm,
      same _ (words_respelled isToken text).symm, ← sameWord] at inPadded
    exact not_mem_significantTerms_respelled isToken (by omega) inPadded

end Spellings

/-! ## ASCII -/

theorem toLower_mem_punctuation {character : Char} :
    character.toLower ∈ punctuation.toList ↔ character ∈ punctuation.toList := by
  have noLetters : ∀ mark ∈ punctuation.toList,
      decide (mark.toNat < 65 ∨ 90 < mark.toNat ∧ mark.toNat < 97 ∨ 122 < mark.toNat) = true :=
    List.all_eq_true.mp (by decide)
  rcases Text.toLower_eq character with ⟨same, -⟩ | ⟨low, high, lowered⟩
  · rw [same]
  · constructor
    · intro member
      have other := of_decide_eq_true (noLetters _ member)
      omega
    · intro member
      have other := of_decide_eq_true (noLetters _ member)
      omega

theorem keepsPunctuation_lowerAscii : KeepsPunctuation lowerAscii := by
  constructor
  · intro text
    rw [lowerAscii, String.toList_append, List.map_append, String.ofList_append]
    rfl
  · intro text
    simp [IsPunctuation, lowerAscii, toLower_mem_punctuation]

theorem noCommonWord_of_punctuation {right : String} :
    NoCommonWord lowerAscii "????" right := by
  intro common nonempty inLeft
  have onlyEmpty : words lowerAscii "????" = [""] := by decide
  rw [onlyEmpty, List.mem_singleton] at inLeft
  exact absurd inLeft nonempty

/-- When punctuation is no content. The terms of a text hold no empty word unless a token is
long by its punctuation alone; they are those of a text with the same words unless a word that
counts is short throughout one of the two only, and those of every such text when the words
have long spellings only; and texts without a common word overlap in nothing unless both have
a long token of punctuation. -/
theorem punctuation_is_no_content_iff {lower : String → String} (laws : KeepsPunctuation lower) :
    (∀ text, "" ∉ significantTerms lower text ↔ ¬HasLongPunctuation text) ∧
      (∀ text other, words lower text = words lower other →
        (significantTerms lower text = significantTerms lower other ↔
          ∀ term ∈ words lower text, term ∉ stopWords →
            (WrittenShort lower text term ↔ WrittenShort lower other term))) ∧
      (∀ text,
        (∀ other, words lower text = words lower other →
          significantTerms lower text = significantTerms lower other) ↔
            OnlyLongSpellings lower text) ∧
      (∀ question answer, NoCommonWord lower question answer →
        (overlapScore lower question (Text.strip answer) = 0 ↔
          ¬(HasLongPunctuation question ∧ HasLongPunctuation answer))) ∧
      ∀ rubric answer, NoCommonWord lower rubric answer →
        (rubricBonus lower (some rubric) (Text.strip answer) = 0 ↔
          ¬(HasLongPunctuation rubric ∧ HasLongPunctuation answer)) := by
  refine ⟨?_, ?_, ?_, ?_, ?_⟩
  · intro text
    rw [empty_mem_significantTerms_iff laws]
  · intro text other same
    exact significantTerms_eq_iff_writtenShort same
  · intro text
    constructor
    · exact onlyLongSpellings_of_same_terms laws
    · intro long other same
      exact significantTerms_eq_of_words_eq long same
  · intro question answer noCommon
    rw [overlapScore_eq_zero_iff laws noCommon.strip, hasLongPunctuation_strip]
  · intro rubric answer noCommon
    rw [rubricBonus_eq_zero_iff laws noCommon.strip, hasLongPunctuation_strip]

theorem punctuation_is_no_content_iff_ascii :
    "" ∉ significantTerms lowerAscii "Cats ?!" ∧
      overlapScore lowerAscii "????" (Text.strip " ... cats. ") = 0 := by
  have exactly := punctuation_is_no_content_iff keepsPunctuation_lowerAscii
  constructor
  · apply (exactly.1 "Cats ?!").mpr
    simp only [HasLongPunctuation]
    decide
  · apply (exactly.2.2.2.1 "????" " ... cats. " noCommonWord_of_punctuation).mpr
    simp only [HasLongPunctuation]
    decide

/-- Four full stops are a term, a comma makes a term of a short word, and a question and an
answer (or a rubric and an answer) of nothing but punctuation overlap. -/
theorem punctuation_is_content :
    (¬∀ text, "" ∉ significantTerms lowerAscii text) ∧
      (¬∀ text other, words lowerAscii text = words lowerAscii other →
        significantTerms lowerAscii text = significantTerms lowerAscii other) ∧
      (¬∀ question answer, NoCommonWord lowerAscii question answer →
        overlapScore lowerAscii question (Text.strip answer) = 0) ∧
      ¬∀ rubric answer, NoCommonWord lowerAscii rubric answer →
        rubricBonus lowerAscii (some rubric) (Text.strip answer) = 0 := by
  refine ⟨?_, ?_, ?_, ?_⟩
  · intro none
    exact none "...." (by decide)
  · intro same
    exact absurd (same "cat" "cat," (by decide)) (by decide)
  · intro zero
    exact absurd (zero "????" "...." noCommonWord_of_punctuation) (by decide)
  · intro zero
    exact absurd (zero "????" "...." noCommonWord_of_punctuation) (by decide)

end EvaluationService
