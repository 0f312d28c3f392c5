import Mathlib.Data.List.DropRight

/-!
Text as sequences of code points, with the string methods of Python that split and
trim it. A method is a function of the list of characters.
-/

set_option autoImplicit false

namespace Foundation.Text

/-- `str.isspace` on one character: the separators of `str.split` and `str.strip`. -/
def isSpace (character : Char) : Bool :=
  let code := character.toNat
  (0x09 ≤ code && code ≤ 0x0D) || (0x1C ≤ code && code ≤ 0x20) || code = 0x85 || code = 0xA0 ||
    code = 0x1680 || (0x2000 ≤ code && code ≤ 0x200A) || code = 0x2028 || code = 0x2029 ||
    code = 0x202F || code = 0x205F || code = 0x3000

def stripWhere (drops : Char → Bool) (text : String) : String :=
  String.ofList ((text.toList.dropWhile drops).rdropWhile drops)

def strip (text : String) : String :=
  stripWhere isSpace text

def stripChars (characters : String) (text : String) : String :=
  stripWhere (characters.toList.contains ·) text

/-- `str.split()`: the maximal runs of characters that are not separators. -/
def split (text : String) : List String :=
  ((text.toList.splitOnP isSpace).filter (!·.isEmpty)).map String.ofList

example : split " two  words\n" = ["two", "words"] := by decide

/-- `text.split(separator)` for a separator of one character. -/
def splitOn (separator : Char) (text : String) : List String :=
  (text.toList.splitOn separator).map String.ofList

/-- `separator.join(texts)` -/
def join (separator : Char) (texts : List String) : String :=
  String.ofList ([separator].intercalate (texts.map String.toList))

/-- `text.partition(separator)`: the text before and after the first separator, which is the
empty text when there is none. -/
def partition (separator : Char) (text : String) : String × String × String :=
  match text.toList.dropWhile (· ≠ separator) with
  | [] => (text, "", "")
  | found :: after =>
      (String.ofList (text.toList.takeWhile (· ≠ separator)), String.singleton found,
        String.ofList after)

example : partition ' ' "Bearer a b" = ("Bearer", " ", "a b") := by decide

/-- The characters that end a line for `str.splitlines`. -/
def isLineBreak (character : Char) : Bool :=
  let code := character.toNat
  (0x0A ≤ code && code ≤ 0x0D) || (0x1C ≤ code && code ≤ 0x1E) || code = 0x85 ||
    code = 0x2028 || code = 0x2029

/-- A carriage return and a newline are one break, and a break at the end begins no line. -/
def lineCharacters : List Char → List (List Char)
  | [] => []
  | '\r' :: '\n' :: rest => [] :: lineCharacters rest
  | first :: rest =>
      if isLineBreak first then [] :: lineCharacters rest
      else
        match lineCharacters rest with
        | [] => [[first]]
        | line :: lines => (first :: line) :: lines

/-- `str.splitlines()` -/
def splitLines (text : String) : List String :=
  (lineCharacters text.toList).map String.ofList

example : splitLines "one\r\n\ntwo\n" = ["one", "", "two"] := by decide

/-- `text.startswith(start)` -/
def startsWith (start text : String) : Bool :=
  start.toList.isPrefixOf text.toList

/-- `text.endswith(ending)` -/
def endsWith (ending text : String) : Bool :=
  ending.toList.isSuffixOf text.toList

/-- `text.removesuffix(ending)` -/
def removeSuffix (ending text : String) : String :=
  if endsWith ending text then String.ofList (text.toList.take (text.length - ending.length))
  else text

/-- `part in text` -/
def Contains (part text : String) : Prop :=
  part.toList <:+: text.toList

instance (part text : String) : Decidable (Contains part text) :=
  List.instDecidableIsInfixOfDecidableEq _ _

variable {separator : Char} {text part : String} {parts : List String}

theorem splitOn_join (nonempty : parts ≠ [])
    (without : ∀ part ∈ parts, separator ∉ part.toList) :
    splitOn separator (join separator parts) = parts := by
  have split : ([separator].intercalate (parts.map String.toList)).splitOn separator =
      parts.map String.toList := by
    apply List.splitOn_intercalate
    · intro characters member
      obtain ⟨part, partMember, rfl⟩ := List.mem_map.mp member
      exact without part partMember
    · simpa using nonempty
  rw [splitOn, join, String.toList_ofList, split, List.map_map]
  exact (List.map_congr_left fun part _ => String.ofList_toList).trans (List.map_id' parts)

theorem join_splitOn (separator : Char) (text : String) :
    join separator (splitOn separator text) = text := by
  rw [join, splitOn, List.map_map]
  have characters : (text.toList.splitOn separator).map (String.toList ∘ String.ofList) =
      text.toList.splitOn separator :=
    (List.map_congr_left fun piece _ => String.toList_ofList).trans (List.map_id' _)
  rw [characters, List.intercalate_splitOn, String.ofList_toList]

theorem not_separator_of_mem {Item : Type} {separates : Item → Bool} {items piece : List Item}
    (member : piece ∈ items.splitOnP separates) : ∀ item ∈ piece, separates item = false := by
  induction items generalizing piece with
  | nil =>
      rw [List.splitOnP_nil, List.mem_singleton] at member
      subst member
      intro item inPiece
      cases inPiece
  | cons first rest ih =>
      rw [List.splitOnP_cons_eq_if_modifyHead] at member
      by_cases found : separates first = true
      · rw [if_pos found, List.mem_cons] at member
        rcases member with rfl | later
        · intro item inPiece
          cases inPiece
        · exact ih later
      · rw [if_neg found] at member
        obtain ⟨head, tail, pieces⟩ :=
          List.exists_cons_of_ne_nil (List.splitOnP_ne_nil separates rest)
        rw [pieces] at ih member
        rw [List.modifyHead_cons, List.mem_cons] at member
        rcases member with rfl | later
        · intro item inPiece
          rcases List.mem_cons.mp inPiece with rfl | inHead
          · exact Bool.eq_false_iff.mpr found
          · exact ih List.mem_cons_self item inHead
        · exact ih (List.mem_cons_of_mem _ later)

theorem not_mem_part (member : part ∈ splitOn separator text) : separator ∉ part.toList := by
  obtain ⟨piece, pieceMember, rfl⟩ := List.mem_map.mp member
  rw [String.toList_ofList]
  intro inPiece
  rw [List.splitOn_eq_splitOnP] at pieceMember
  have other := not_separator_of_mem pieceMember separator inPiece
  rw [BEq.rfl] at other
  cases other

/-- A text that is joined from parts without the separator is joined from no others. -/
theorem join_inj {others : List String} (nonempty : parts ≠ []) (othersNonempty : others ≠ [])
    (without : ∀ part ∈ parts, separator ∉ part.toList)
    (othersWithout : ∀ part ∈ others, separator ∉ part.toList)
    (same : join separator parts = join separator others) : parts = others := by
  rw [← splitOn_join nonempty without, same, splitOn_join othersNonempty othersWithout]

/-- Two ways to split one text at a separator are the same one, or one of them splits at a
separator inside the first or the second part of the other. -/
theorem append_cons_cases {before after otherBefore otherAfter : List Char}
    (same : before ++ separator :: after = otherBefore ++ separator :: otherAfter) :
    (before = otherBefore ∧ after = otherAfter) ∨
      (∃ middle, otherBefore = before ++ separator :: middle ∧
        after = middle ++ separator :: otherAfter) ∨
      ∃ middle, before = otherBefore ++ separator :: middle ∧
        otherAfter = middle ++ separator :: after := by
  induction before generalizing otherBefore with
  | nil =>
      cases otherBefore with
      | nil => simp_all
      | cons first rest =>
          simp only [List.nil_append, List.cons_append, List.cons.injEq] at same
          exact .inr (.inl ⟨rest, by simp [same.1], same.2⟩)
  | cons first rest ih =>
      cases otherBefore with
      | nil =>
          simp only [List.nil_append, List.cons_append, List.cons.injEq] at same
          exact .inr (.inr ⟨rest, by simp [same.1], same.2.symm⟩)
      | cons other others =>
          simp only [List.cons_append, List.cons.injEq] at same
          obtain ⟨rfl, restSame⟩ := same
          rcases ih restSame with ⟨rfl, rfl⟩ | ⟨middle, rfl, rfl⟩ | ⟨middle, rfl, rfl⟩
          · exact .inl ⟨rfl, rfl⟩
          · exact .inr (.inl ⟨middle, rfl, rfl⟩)
          · exact .inr (.inr ⟨middle, rfl, rfl⟩)

/-! ## Words and edges -/

/-- A text between separators of `str.split`. -/
def IsToken (text : String) : Prop :=
  text ≠ "" ∧ ∀ character ∈ text.toList, isSpace character = false

instance (text : String) : Decidable (IsToken text) :=
  @instDecidableAnd _ _ _ (List.decidableBAll (isSpace · = false) text.toList)

theorem isToken_of_mem_split {token : String} (member : token ∈ split text) : IsToken token := by
  obtain ⟨piece, pieceMember, rfl⟩ := List.mem_map.mp member
  obtain ⟨isPiece, nonempty⟩ := List.mem_filter.mp pieceMember
  constructor
  · intro empty
    have characters : piece = [] := by simpa using congrArg String.toList empty
    rw [characters] at nonempty
    cases nonempty
  · rw [String.toList_ofList]
    exact not_separator_of_mem isPiece

theorem infix_of_mem_splitOnP {Item : Type} {separates : Item → Bool} {items : List Item} :
    ∀ piece ∈ items.splitOnP separates, piece <:+: items := by
  suffices (∃ head, (items.splitOnP separates).head? = some head ∧ head <+: items) ∧
      ∀ piece ∈ items.splitOnP separates, piece <:+: items from this.2
  induction items with
  | nil => simp
  | cons first rest ih =>
      obtain ⟨⟨head, isHead, begins⟩, within⟩ := ih
      rw [List.splitOnP_cons_eq_if_modifyHead]
      by_cases found : separates first = true
      · rw [if_pos found]
        refine ⟨⟨[], rfl, List.nil_prefix⟩, ?_⟩
        intro piece member
        rcases List.mem_cons.mp member with rfl | later
        · exact List.nil_infix
        · exact List.infix_cons (within piece later)
      · obtain ⟨tail, pieces⟩ := List.head?_eq_some_iff.mp isHead
        rw [if_neg found, pieces, List.modifyHead_cons]
        have extended := (List.prefix_cons_inj first).mpr begins
        refine ⟨⟨first :: head, rfl, extended⟩, ?_⟩
        intro piece member
        rcases List.mem_cons.mp member with rfl | later
        · exact extended.isInfix
        · apply List.infix_cons
          apply within
          rw [pieces]
          exact List.mem_cons_of_mem _ later

theorem contains_of_mem_split {token : String} (member : token ∈ split text) :
    Contains token text := by
  obtain ⟨piece, pieceMember, rfl⟩ := List.mem_map.mp member
  rw [Contains, String.toList_ofList]
  exact infix_of_mem_splitOnP piece (List.mem_filter.mp pieceMember).1

theorem split_append_space (before after : List Char) {space : Char}
    (isSeparator : isSpace space = true) :
    split (String.ofList (before ++ space :: after)) =
      split (String.ofList before) ++ split (String.ofList after) := by
  simp only [split, String.toList_ofList, List.splitOnP_append_cons _ _ isSeparator,
    List.filter_append, List.map_append]

theorem split_dropWhile (characters : List Char) :
    split (String.ofList (characters.dropWhile isSpace)) = split (String.ofList characters) := by
  induction characters with
  | nil => rfl
  | cons first rest ih =>
      by_cases space : isSpace first = true
      · rw [List.dropWhile_cons_of_pos space, ih]
        exact (split_append_space [] rest space).symm
      · rw [List.dropWhile_cons_of_neg space]

theorem split_rdropWhile (characters : List Char) :
    split (String.ofList (characters.rdropWhile isSpace)) = split (String.ofList characters) := by
  induction characters using List.reverseRecOn with
  | nil => rfl
  | append_singleton earlier last ih =>
      by_cases space : isSpace last = true
      · rw [List.rdropWhile_concat_pos _ _ _ space, ih, split_append_space earlier [] space]
        exact (List.append_nil _).symm
      · rw [List.rdropWhile_concat_neg _ _ _ space]

theorem split_strip (text : String) : split (strip text) = split text := by
  rw [strip, stripWhere, split_rdropWhile, split_dropWhile, String.ofList_toList]

theorem split_of_isToken {token : String} (isToken : IsToken token) : split token = [token] := by
  have nonempty : token.toList.isEmpty = false := by
    rw [List.isEmpty_eq_false_iff]
    intro empty
    exact isToken.1 (String.toList_inj.mp empty)
  rw [split, List.splitOnP_eq_singleton isToken.2]
  simp [nonempty]

theorem toList_join_cons (separator : Char) (first : String) (rest : List String) :
    (join separator (first :: rest)).toList =
      first.toList ++ rest.flatMap fun part => separator :: part.toList := by
  rw [join, String.toList_ofList, List.map_cons]
  induction rest generalizing first with
  | nil => simp [List.intercalate]
  | cons second others ih =>
      have rejoined : [separator].intercalate (first.toList :: (second :: others).map String.toList) =
          first.toList ++ separator ::
            [separator].intercalate (second.toList :: others.map String.toList) := by
        simp [List.intercalate]
      rw [rejoined, ih, List.flatMap_cons, List.cons_append]

/-- Tokens that are joined by blanks are found again. -/
theorem split_join {tokens : List String} (isToken : ∀ token ∈ tokens, IsToken token) :
    split (join ' ' tokens) = tokens := by
  induction tokens with
  | nil => rfl
  | cons first rest ih =>
      have firstToken := split_of_isToken (isToken first List.mem_cons_self)
      cases rest with
      | nil =>
          rw [← firstToken]
          simp [join, List.intercalate, firstToken]
      | cons second others =>
          have separated : join ' ' (first :: second :: others) =
              String.ofList (first.toList ++ ' ' :: (join ' ' (second :: others)).toList) := by
            rw [← String.toList_inj, String.toList_ofList, toList_join_cons, toList_join_cons,
              List.flatMap_cons, List.cons_append]
          rw [separated, split_append_space _ _ (by decide), String.ofList_toList,
            String.ofList_toList, firstToken,
            ih fun token member => isToken token (List.mem_cons_of_mem _ member)]
          rfl

section Edges

variable {drops : Char → Bool}

theorem rdropWhile_append (before after : List Char) :
    (before ++ after).rdropWhile drops =
      if after.all drops then before.rdropWhile drops else before ++ after.rdropWhile drops := by
  induction after using List.reverseRecOn with
  | nil => simp
  | append_singleton earlier last ih =>
      rw [← List.append_assoc]
      by_cases dropped : drops last = true
      · rw [List.rdropWhile_concat_pos _ _ _ dropped, List.rdropWhile_concat_pos _ _ _ dropped, ih]
        simp [dropped]
      · rw [List.rdropWhile_concat_neg _ _ _ dropped, List.rdropWhile_concat_neg _ _ _ dropped]
        simp [dropped]

/-- What stripping leaves of a text is a part of what it leaves of a longer one. -/
theorem strip_infix (before kept after : List Char) :
    (kept.dropWhile drops).rdropWhile drops <:+:
      ((before ++ kept ++ after).dropWhile drops).rdropWhile drops := by
  by_cases blank : kept.all drops = true
  · have nothing : kept.dropWhile drops = [] := by simpa using blank
    rw [nothing, List.rdropWhile_nil]
    exact List.nil_infix
  · have remains : (kept ++ after).dropWhile drops = kept.dropWhile drops ++ after := by
      rw [List.dropWhile_append, if_neg]
      simpa using blank
    have suffix : (kept ++ after).dropWhile drops <:+
        (before ++ (kept ++ after)).dropWhile drops := by
      induction before with
      | nil => exact List.suffix_rfl
      | cons first rest ih =>
          rw [List.cons_append, List.dropWhile_cons]
          split
          · exact ih
          · exact (List.dropWhile_suffix _).trans
              ((List.suffix_append _ _).trans (List.suffix_cons _ _))
    obtain ⟨earlier, longer⟩ := suffix
    have stays : (kept.dropWhile drops ++ after).all drops ≠ true := by
      intro all
      apply blank
      rw [List.all_append, Bool.and_eq_true] at all
      rw [← @List.takeWhile_append_dropWhile _ drops kept, List.all_append, List.all_takeWhile,
        all.1]
      rfl
    rw [List.append_assoc, ← longer, remains, rdropWhile_append, if_neg stays]
    refine List.IsInfix.trans ?_ (List.suffix_append _ _).isInfix
    rw [rdropWhile_append]
    split
    · exact List.infix_rfl
    · exact (List.rdropWhile_prefix _ _).isInfix.trans (List.prefix_append _ _).isInfix

/-- Characters to drop at the end of a text change nothing of what stripping leaves. -/
theorem stripWhere_append_dropped (text : String) {dropped : String}
    (drop : ∀ character ∈ dropped.toList, drops character = true) :
    stripWhere drops (text ++ dropped) = stripWhere drops text := by
  have nothing : dropped.toList.dropWhile drops = [] := List.dropWhile_eq_nil_iff.mpr drop
  have all : dropped.toList.all drops = true := List.all_eq_true.mpr drop
  rw [stripWhere, stripWhere, String.toList_append, List.dropWhile_append, nothing]
  by_cases blank : (text.toList.dropWhile drops).isEmpty = true
  · rw [if_pos blank, List.isEmpty_iff.mp blank]
  · rw [if_neg blank, rdropWhile_append, if_pos all]

theorem stripWhere_eq_empty_iff {text : String} :
    stripWhere drops text = "" ↔ ∀ character ∈ text.toList, drops character = true := by
  rw [stripWhere, ← String.toList_inj, String.toList_ofList, String.toList_empty]
  constructor
  · intro empty
    apply List.dropWhile_eq_nil_iff.mp
    -- the character that `dropWhile` stops at is no character to drop at the end either
    cases kept : text.toList.dropWhile drops with
    | nil => rfl
    | cons first rest =>
        rw [kept, List.rdropWhile_eq_nil_iff] at empty
        have stopped := List.head_dropWhile_not drops (kept ▸ List.cons_ne_nil first rest)
        simp only [kept, List.head_cons, empty first List.mem_cons_self] at stopped
        cases stopped
  · intro drop
    rw [List.dropWhile_eq_nil_iff.mpr drop, List.rdropWhile_nil]

/-- Nothing that stripping leaves is all to be stripped. -/
theorem stripWhere_ne_empty {text : String} (remains : stripWhere drops text ≠ "") :
    stripWhere drops (stripWhere drops text) ≠ "" := by
  intro empty
  rw [stripWhere_eq_empty_iff, stripWhere, String.toList_ofList] at empty
  have nonempty : (text.toList.dropWhile drops).rdropWhile drops ≠ [] := by
    intro none
    exact remains (by rw [stripWhere, none])
  exact List.rdropWhile_last_not _ _ nonempty (empty _ (List.getLast_mem nonempty))

theorem stripWhere_cons {first : Char} (dropped : drops first = true) (rest : List Char) :
    stripWhere drops (String.ofList (first :: rest)) = stripWhere drops (String.ofList rest) := by
  rw [stripWhere, stripWhere, String.toList_ofList, String.toList_ofList,
    List.dropWhile_cons_of_pos dropped]

end Edges

/-! ## Parts of a text -/

theorem exists_line_prefix {characters within : List Char} (nonempty : within ≠ [])
    (unbroken : ∀ character ∈ within, isLineBreak character = false)
    (begins : within <+: characters) :
    ∃ line lines, lineCharacters characters = line :: lines ∧ within <+: line := by
  induction characters generalizing within with
  | nil => exact absurd (List.prefix_nil.mp begins) nonempty
  | cons first rest ih =>
      obtain ⟨others, rfl, othersBegin⟩ : ∃ others, within = first :: others ∧ others <+: rest := by
        rcases List.prefix_cons_iff.mp begins with empty | found
        · exact absurd empty nonempty
        · exact found
      obtain ⟨firstUnbroken, othersUnbroken⟩ := List.forall_mem_cons.mp unbroken
      have other : first ≠ '\r' := by
        rintro rfl
        cases firstUnbroken
      rw [lineCharacters.eq_3 _ _ fun _ same _ => other same, if_neg (by simp [firstUnbroken])]
      cases others with
      | nil =>
          cases lineCharacters rest with
          | nil => exact ⟨_, _, rfl, List.prefix_rfl⟩
          | cons line lines => exact ⟨_, _, rfl, ⟨line, rfl⟩⟩
      | cons second others =>
          obtain ⟨line, lines, split, found⟩ :=
            ih (List.cons_ne_nil _ _) othersUnbroken othersBegin
          rw [split]
          exact ⟨_, _, rfl, (List.prefix_cons_inj first).mpr found⟩

theorem exists_line_infix {characters within : List Char} (nonempty : within ≠ [])
    (unbroken : ∀ character ∈ within, isLineBreak character = false)
    (found : within <:+: characters) : ∃ line ∈ lineCharacters characters, within <:+: line := by
  have notBroken : ∀ {first : Char} {rest : List Char}, isLineBreak first = true →
      ¬within <+: first :: rest := by
    intro first rest broken begins
    rcases List.prefix_cons_iff.mp begins with empty | ⟨others, rfl, -⟩
    · exact nonempty empty
    · rw [unbroken first List.mem_cons_self] at broken
      cases broken
  induction characters using lineCharacters.induct with
  | case1 => exact absurd (List.infix_nil.mp found) nonempty
  | case2 rest ih =>
      rw [lineCharacters]
      rcases List.infix_cons_iff.mp found with begins | inRest
      · exact absurd begins (notBroken (by decide))
      rcases List.infix_cons_iff.mp inRest with begins | later
      · exact absurd begins (notBroken (by decide))
      obtain ⟨line, member, inLine⟩ := ih later
      exact ⟨line, List.mem_cons_of_mem _ member, inLine⟩
  | case3 first rest pair broken ih =>
      rw [lineCharacters.eq_3 _ _ pair, if_pos broken]
      rcases List.infix_cons_iff.mp found with begins | later
      · exact absurd begins (notBroken broken)
      obtain ⟨line, member, inLine⟩ := ih later
      exact ⟨line, List.mem_cons_of_mem _ member, inLine⟩
  | case4 first rest pair whole none ih =>
      rcases List.infix_cons_iff.mp found with begins | later
      · obtain ⟨line, lines, split, inLine⟩ := exists_line_prefix nonempty unbroken begins
        rw [split]
        exact ⟨line, List.mem_cons_self, inLine.isInfix⟩
      · obtain ⟨line, member, -⟩ := ih later
        rw [none] at member
        cases member
  | case5 first rest pair whole head lines some ih =>
      rcases List.infix_cons_iff.mp found with begins | later
      · obtain ⟨line, lines, split, inLine⟩ := exists_line_prefix nonempty unbroken begins
        rw [split]
        exact ⟨line, List.mem_cons_self, inLine.isInfix⟩
      · obtain ⟨line, member, inLine⟩ := ih later
        rw [lineCharacters.eq_3 _ _ pair, if_neg whole, some]
        rw [some] at member
        rcases List.mem_cons.mp member with rfl | inLines
        · exact ⟨_, List.mem_cons_self, List.infix_cons inLine⟩
        · exact ⟨line, List.mem_cons_of_mem _ inLines, inLine⟩

/-- A part without line breaks lies in one line. -/
theorem exists_line_contains (nonempty : part ≠ "")
    (unbroken : ∀ character ∈ part.toList, isLineBreak character = false)
    (within : Contains part text) : ∃ line ∈ splitLines text, Contains part line := by
  obtain ⟨line, member, found⟩ :=
    exists_line_infix (mt String.toList_eq_nil_iff.mp nonempty) unbroken within
  refine ⟨String.ofList line, List.mem_map_of_mem member, ?_⟩
  rw [Contains, String.toList_ofList]
  exact found

/-- Stripping leaves a part in which there is nothing to strip. -/
theorem Contains.stripWhere {drops : Char → Bool}
    (kept : ∀ character ∈ part.toList, drops character = false) (within : Contains part text) :
    Contains part (stripWhere drops text) := by
  obtain ⟨before, after, split⟩ := within
  have whole : (part.toList.dropWhile drops).rdropWhile drops = part.toList := by
    have front : part.toList.dropWhile drops = part.toList := by
      cases characters : part.toList with
      | nil => rfl
      | cons first rest =>
          rw [List.dropWhile_cons_of_neg]
          simp [kept first (characters ▸ List.mem_cons_self)]
    rw [front, List.rdropWhile_eq_self_iff]
    intro nonempty
    simp [kept _ (List.getLast_mem nonempty)]
  have found : (part.toList.dropWhile drops).rdropWhile drops <:+:
      ((before ++ part.toList ++ after).dropWhile drops).rdropWhile drops :=
    strip_infix before part.toList after
  rw [whole, split] at found
  rw [Contains, Text.stripWhere, String.toList_ofList]
  exact found

/-- Without its last character a text keeps what does not hold that character. -/
theorem Contains.removeSuffix {last : Char} (other : last ∉ part.toList)
    (within : Contains part text) : Contains part (removeSuffix (String.singleton last) text) := by
  rw [Text.removeSuffix]
  split
  · rename_i ends
    obtain ⟨earlier, whole⟩ := List.isSuffixOf_iff_suffix.mp ends
    rw [String.toList_singleton] at whole
    have shorter : text.toList.take (text.length - (String.singleton last).length) = earlier := by
      rw [← String.length_toList, ← String.length_toList, String.toList_singleton, ← whole]
      simp
    rw [Contains, String.toList_ofList, shorter]
    rw [Contains, ← whole] at within
    rcases List.infix_concat_iff.mp within with ends | found
    · rcases List.suffix_concat_iff.mp ends with empty | ⟨begin, same, -⟩
      · rw [empty]
        exact List.nil_infix
      · refine absurd ?_ other
        rw [same]
        exact List.mem_append_right _ List.mem_cons_self
    · exact found
  · exact within

theorem contains_join {member : String} (isMember : member ∈ parts) :
    Contains member (join separator parts) := by
  cases parts with
  | nil => cases isMember
  | cons first rest =>
      rw [Contains, toList_join_cons]
      rcases List.mem_cons.mp isMember with rfl | later
      · exact (List.prefix_append _ _).isInfix
      · obtain ⟨before, after, rfl⟩ := List.append_of_mem later
        refine ⟨first.toList ++ before.flatMap (separator :: ·.toList) ++ [separator],
          after.flatMap (separator :: ·.toList), ?_⟩
        simp

/-! ## ASCII case -/

theorem toLower_eq (character : Char) :
    character.toLower = character ∧ character.isUpper = false ∨
      65 ≤ character.toNat ∧ character.toNat ≤ 90 ∧
        character.toLower.toNat = character.toNat + 32 := by
  delta Char.toLower
  split
  · rename_i upper
    have low : 65 ≤ character.toNat := UInt32.le_iff_toNat_le.mp upper.1
    have high : character.toNat ≤ 90 := UInt32.le_iff_toNat_le.mp upper.2
    refine .inr ⟨low, high, ?_⟩
    change (character.val + 32).toNat = character.toNat + 32
    rw [UInt32.toNat_add]
    exact Nat.mod_eq_of_lt (by change character.toNat + 32 < _; omega)
  · rename_i other
    exact .inl ⟨rfl, decide_eq_false other⟩

theorem toUpper_eq (character : Char) :
    character.toUpper = character ∨
      97 ≤ character.toNat ∧ character.toNat ≤ 122 ∧
        character.toUpper.toNat + 32 = character.toNat := by
  delta Char.toUpper
  split
  · rename_i lower
    have low : 97 ≤ character.toNat := UInt32.le_iff_toNat_le.mp lower.1
    have high : character.toNat ≤ 122 := UInt32.le_iff_toNat_le.mp lower.2
    refine .inr ⟨low, high, ?_⟩
    change (character.val + ('A'.val - 'a'.val)).toNat + 32 = character.toNat
    rw [UInt32.toNat_add]
    have shift : ('A'.val - 'a'.val).toNat = 2 ^ 32 - 32 := by decide
    rw [shift]
    change (character.toNat + (2 ^ 32 - 32)) % 2 ^ 32 + 32 = character.toNat
    omega
  · exact .inl rfl

theorem isSpace_of_letter {character : Char} (low : 65 ≤ character.toNat)
    (high : character.toNat ≤ 122) : isSpace character = false := by
  simp only [isSpace, Bool.or_eq_false_iff, Bool.and_eq_false_iff, decide_eq_false_iff_not]
  omega

end Foundation.Text
