import EvaluationService.Foundation.JsonScalars
import Mathlib.Data.List.Nodup
import Mathlib.Data.List.TakeWhile

/-!
`json.loads` undoes `json.dumps` on every value that Python can read back, whatever the
separators, and what is written is one line of printable ASCII.
-/

set_option autoImplicit false

namespace Foundation

namespace Json

/-! ## Values read back -/

/-- The values that come back: an integer is short enough to be read, a float is one that
`json.loads` reads as a float, and an object has each key once, as every `dict` has. -/
inductive Readable : Json → Prop where
  | null : Readable null
  | bool {value : Bool} : Readable (bool value)
  | int {value : Int} :
      (Nat.toDigits 10 value.natAbs).length ≤ maxStrDigits → Readable (int value)
  | float {literal : String} : IsFloatLiteral literal.toList → Readable (float literal)
  | str {value : String} : Readable (str value)
  | array {items : List Json} : (∀ item ∈ items, Readable item) → Readable (array items)
  | object {members : List (String × Json)} :
      (members.map Prod.fst).Nodup → (∀ member ∈ members, Readable member.2) →
        Readable (object members)

theorem skipBlanks_append {blanks : List Char}
    (blank : ∀ character ∈ blanks, isBlank character = true) (text : List Char) :
    skipBlanks (blanks ++ text) = skipBlanks text :=
  List.dropWhile_append_of_pos blank

/-- A text whose first character is no blank. -/
def Starts (text : List Char) : Prop := ∃ first ∈ text.head?, isBlank first = false

theorem skipBlanks_starts {text : List Char} (starts : Starts text) : skipBlanks text = text := by
  obtain ⟨first, isFirst, notBlank⟩ := starts
  cases text with
  | nil => cases isFirst
  | cons other rest =>
      obtain rfl : other = first := by simpa using isFirst
      rw [skipBlanks, List.dropWhile_cons_of_neg (by simp [notBlank])]

theorem digit_plain {first : Char} (isDigit : first.isDigit = true) :
    isBlank first = false ∧ first ∉ ['"', '[', '\x7b', ']', 'n', 't', 'f', 'N', 'I', '-'] := by
  constructor
  · by_contra blank
    simp only [isBlank, Bool.not_eq_false, Bool.or_eq_true, decide_eq_true_eq] at blank
    rcases blank with ((rfl | rfl) | rfl) | rfl <;> exact absurd isDigit (by decide)
  · intro member
    simp only [List.mem_cons, List.not_mem_nil, or_false] at member
    rcases member with rfl | rfl | rfl | rfl | rfl | rfl | rfl | rfl | rfl | rfl <;>
      exact absurd isDigit (by decide)

/-- How the text of a number starts. -/
def StartsNumber (text : List Char) : Prop :=
  ∃ first rest, first.isDigit = true ∧ (text = first :: rest ∨ text = '-' :: first :: rest)

theorem IsInteger.startsNumber {literal : List Char} (isInteger : IsInteger literal)
    (rest : List Char) : StartsNumber (literal ++ rest) := by
  obtain ⟨sign, digits, rfl, signed, all, nonempty, -⟩ := isInteger
  obtain ⟨first, others, rfl, isDigit⟩ := exists_digit all nonempty
  rcases signed with rfl | rfl
  · exact ⟨first, others ++ rest, isDigit, .inl rfl⟩
  · exact ⟨first, others ++ rest, isDigit, .inr rfl⟩

theorem StartsNumber.readConstant {text : List Char} (starts : StartsNumber text) :
    readConstant text = none := by
  obtain ⟨first, rest, isDigit, shape⟩ := starts
  have plain := (digit_plain isDigit).2
  rw [Json.readConstant, Option.map_eq_none_iff, List.find?_eq_none]
  intro constant member isPrefix
  -- a constant starts with a letter, or with a minus sign and a letter
  have letters : ∃ letter ∈ ['n', 't', 'f', 'N', 'I'], ∃ others,
      constant.1 = letter :: others ∨ constant.1 = '-' :: 'I' :: others := by
    simp only [constants, List.mem_cons, List.not_mem_nil, or_false] at member
    rcases member with rfl | rfl | rfl | rfl | rfl | rfl
    · exact ⟨'n', by simp, _, .inl rfl⟩
    · exact ⟨'t', by simp, _, .inl rfl⟩
    · exact ⟨'f', by simp, _, .inl rfl⟩
    · exact ⟨'N', by simp, _, .inl rfl⟩
    · exact ⟨'I', by simp, _, .inl rfl⟩
    · exact ⟨'I', by simp, _, .inr rfl⟩
  obtain ⟨letter, isLetter, others, spelled⟩ := letters
  rcases shape with rfl | rfl <;> rcases spelled with spelled | spelled <;>
    simp only [spelled, List.isPrefixOf, Bool.and_eq_true, beq_iff_eq] at isPrefix
  · obtain ⟨rfl, -⟩ := isPrefix
    exact plain (by simp only [List.mem_cons, List.not_mem_nil, or_false] at isLetter ⊢; tauto)
  · exact plain (by simp [← isPrefix.1])
  · obtain ⟨rfl, -⟩ := isPrefix
    simp at isLetter
  · exact plain (by simp [← isPrefix.2.1])

theorem StartsNumber.readValue {text : List Char} (starts : StartsNumber text) (fuel : Nat) :
    readValue (fuel + 1) text = readNumber text := by
  have constant := starts.readConstant
  obtain ⟨first, rest, isDigit, shape⟩ := starts
  have plain := (digit_plain isDigit).2
  simp only [List.mem_cons, List.not_mem_nil, or_false, not_or] at plain
  have heads : text.head? ≠ some '"' ∧ text.head? ≠ some '[' ∧ text.head? ≠ some '\x7b' := by
    rcases shape with rfl | rfl
    · simpa using ⟨plain.1, plain.2.1, plain.2.2.1⟩
    · exact ⟨by simp, by simp, by simp⟩
  rw [Json.readValue, if_neg heads.1, if_neg heads.2.1, if_neg heads.2.2, constant, Option.none_or]

theorem delimited_cons {first : Char} (isDelimiter : first ∈ [',', ']', '\x7d', ' ', '\n'])
    (rest : List Char) : Delimited (first :: rest) := by
  simp only [List.mem_cons, List.not_mem_nil, or_false] at isDelimiter
  rcases isDelimiter with rfl | rfl | rfl | rfl | rfl <;> simp [Delimited, NoDigit]

theorem delimited_nil : Delimited [] := by simp [Delimited, NoDigit]

theorem readConstant_of_mem {constant : List Char × Json} (member : constant ∈ constants)
    (rest : List Char) : readConstant (constant.1 ++ rest) = some (constant.2, rest) := by
  simp only [constants, List.mem_cons, List.not_mem_nil, or_false] at member
  rcases member with rfl | rfl | rfl | rfl | rfl | rfl <;> rfl

theorem readValue_constant {constant : List Char × Json} (member : constant ∈ constants)
    (fuel : Nat) (rest : List Char) :
    readValue (fuel + 1) (constant.1 ++ rest) = some (constant.2, rest) := by
  have heads : (constant.1 ++ rest).head? ≠ some '"' ∧ (constant.1 ++ rest).head? ≠ some '[' ∧
      (constant.1 ++ rest).head? ≠ some '\x7b' := by
    simp only [constants, List.mem_cons, List.not_mem_nil, or_false] at member
    rcases member with rfl | rfl | rfl | rfl | rfl | rfl <;> simp
  rw [readValue, if_neg heads.1, if_neg heads.2.1, if_neg heads.2.2,
    readConstant_of_mem member, Option.some_or]

/-- How the text of a value starts: with no blank, and not as the end of an array does. -/
def Opens (text : List Char) : Prop :=
  ∃ first others, text = first :: others ∧ isBlank first = false ∧ first ≠ ']'

theorem Opens.starts {text : List Char} (opens : Opens text) (rest : List Char) :
    Starts (text ++ rest) := by
  obtain ⟨first, others, rfl, notBlank, -⟩ := opens
  exact ⟨first, rfl, notBlank⟩

theorem StartsNumber.opens {text : List Char} (starts : StartsNumber text) : Opens text := by
  obtain ⟨first, rest, isDigit, rfl | rfl⟩ := starts
  · obtain ⟨notBlank, plain⟩ := digit_plain isDigit
    refine ⟨first, rest, rfl, notBlank, ?_⟩
    rintro rfl
    exact plain (by simp)
  · exact ⟨'-', first :: rest, rfl, rfl, by decide⟩

variable {separators : Separators}

theorem Readable.opens {value : Json} (readable : Readable value) :
    Opens (written separators value) := by
  cases readable with
  | null => exact ⟨'n', _, rfl, rfl, by decide⟩
  | @bool value =>
      cases value with
      | true => exact ⟨'t', _, rfl, rfl, by decide⟩
      | false => exact ⟨'f', _, rfl, rfl, by decide⟩
  | int short =>
      rw [written]
      simpa using ((isInteger_toString _).startsNumber []).opens
  | float isLiteral =>
      rw [written]
      rcases isLiteral with constant | ⟨integer, fraction, exponent, parts, isInteger, -⟩
      · simp only [List.mem_cons, List.not_mem_nil, or_false] at constant
        rcases constant with constant | constant | constant
        · exact ⟨'N', _, constant, rfl, by decide⟩
        · exact ⟨'I', _, constant, rfl, by decide⟩
        · exact ⟨'-', _, constant, rfl, by decide⟩
      · rw [parts, List.append_assoc]
        exact (isInteger.startsNumber _).opens
  | @str value =>
      rw [written, toList_quote]
      exact ⟨'"', _, rfl, rfl, by decide⟩
  | array _ =>
      rw [written]
      exact ⟨'[', _, rfl, rfl, by decide⟩
  | object _ _ =>
      rw [written]
      exact ⟨'\x7b', _, rfl, rfl, by decide⟩

/-- The text of a value is read as the value, whatever follows it. -/
def ReadsBack (separators : Separators) (value : Json) : Prop :=
  ∀ fuel rest, (written separators value).length ≤ fuel → Delimited rest →
    readValue fuel (written separators value ++ rest) = some (value, rest)

def joinedItems (separators : Separators) (texts : List (List Char)) : List Char :=
  (',' :: separators.afterComma).intercalate texts

theorem joinedItems_singleton (text : List Char) : joinedItems separators [text] = text :=
  List.intercalate_singleton

theorem joinedItems_cons_cons (text next : List Char) (others : List (List Char)) :
    joinedItems separators (text :: next :: others) =
      text ++ ',' :: (separators.afterComma ++ joinedItems separators (next :: others)) := by
  rw [joinedItems, List.intercalate_cons_cons, List.append_assoc, List.cons_append]
  rfl

theorem Opens.joinedItems {text : List Char} (opens : Opens text) (others : List (List Char)) :
    Opens (joinedItems separators (text :: others)) := by
  obtain ⟨first, more, rfl, notBlank, notEnd⟩ := opens
  cases others with
  | nil => exact ⟨first, more, joinedItems_singleton _, notBlank, notEnd⟩
  | cons next others =>
      exact ⟨first, _, joinedItems_cons_cons _ _ _, notBlank, notEnd⟩

theorem skipBlanks_cons {first : Char} (notBlank : isBlank first = false) (rest : List Char) :
    skipBlanks (first :: rest) = first :: rest :=
  skipBlanks_starts ⟨first, rfl, notBlank⟩

theorem readItems_written (items : List Json) (nonempty : items ≠ [])
    (opens : ∀ item ∈ items, Opens (written separators item))
    (readsBack : ∀ item ∈ items, ReadsBack separators item) (fuel : Nat) (rest : List Char)
    (enough : (joinedItems separators (writtenItems separators items)).length < fuel) :
    readItems fuel (joinedItems separators (writtenItems separators items) ++ ']' :: rest) =
      some (items, rest) := by
  induction items generalizing fuel with
  | nil => exact absurd rfl nonempty
  | cons item others ih =>
      obtain _ | fuel := fuel
      · exact absurd enough (Nat.not_lt_zero _)
      have itemBack := readsBack item List.mem_cons_self
      cases others with
      | nil =>
          rw [writtenItems, writtenItems, joinedItems_singleton] at enough ⊢
          rw [readItems, itemBack fuel _ (by omega) (delimited_cons (by simp) _)]
          simp only [Option.bind_eq_bind, Option.bind_some]
          rw [skipBlanks_cons (by decide), List.head?_cons, if_pos rfl]
          rfl
      | cons next others =>
          rw [writtenItems, writtenItems, joinedItems_cons_cons, ← writtenItems] at enough ⊢
          simp only [List.length_append, List.length_cons] at enough
          have nextOpens : Opens (joinedItems separators (writtenItems separators (next :: others))) := by
            rw [writtenItems]
            exact (opens next (by simp)).joinedItems _
          have othersBack := ih (by simp) (fun other member => opens other (by simp [member]))
            (fun other member => readsBack other (by simp [member])) fuel (by omega)
          rw [List.append_assoc, List.cons_append, readItems,
            itemBack fuel _ (by omega) (delimited_cons (by simp) _)]
          simp only [Option.bind_eq_bind, Option.bind_some]
          rw [skipBlanks_cons (by decide), List.head?_cons, if_neg (by simp), if_pos rfl,
            List.drop_succ_cons, List.drop_zero, List.append_assoc, skipBlanks_append separators.commaBlank,
            skipBlanks_starts (nextOpens.starts _), othersBack]
          rfl

theorem putMember_new {members : List (String × Json)} {pair : String × Json}
    (new : pair.1 ∉ members.map Prod.fst) : putMember members pair = members ++ [pair] :=
  if_neg new

theorem foldl_putMember (pairs members : List (String × Json))
    (distinct : ((members ++ pairs).map Prod.fst).Nodup) :
    pairs.foldl putMember members = members ++ pairs := by
  induction pairs generalizing members with
  | nil => rw [List.foldl_nil, List.append_nil]
  | cons pair others ih =>
      have new : pair.1 ∉ members.map Prod.fst := by
        rw [List.map_append, List.nodup_append] at distinct
        intro member
        exact distinct.2.2 _ member _ (by simp) rfl
      rw [List.foldl_cons, putMember_new new, ih _ (by simpa using distinct), List.append_assoc,
        List.singleton_append]

theorem dictOf_of_nodup {members : List (String × Json)}
    (distinct : (members.map Prod.fst).Nodup) : dictOf members = members := by
  rw [dictOf, foldl_putMember members [] (by simpa using distinct), List.nil_append]

/-- The text of one member of an object. -/
def writtenMember (separators : Separators) (member : String × Json) : List Char :=
  (quote member.1).toList ++ ':' :: (separators.afterColon ++ written separators member.2)

theorem writtenMembers_cons (member : String × Json) (others : List (String × Json)) :
    writtenMembers separators (member :: others) =
      writtenMember separators member :: writtenMembers separators others := by
  rw [writtenMembers, writtenMember, List.append_assoc, List.cons_append]

theorem opens_writtenMember (member : String × Json) :
    Opens (writtenMember separators member) := by
  rw [writtenMember, toList_quote]
  exact ⟨'"', _, rfl, rfl, by decide⟩

/-- The key, the colon and the value of a member, up to the end of its value. -/
theorem readMembers_member (member : String × Json)
    (opens : Opens (written separators member.2)) (readsBack : ReadsBack separators member.2)
    {fuel : Nat} (enough : (writtenMember separators member).length ≤ fuel) {rest : List Char}
    (delimited : Delimited rest) :
    readMembers (fuel + 1) (writtenMember separators member ++ rest) =
      (if (skipBlanks rest).head? = some '\x7d' then some ([member], (skipBlanks rest).drop 1)
      else if (skipBlanks rest).head? = some ',' then
        (readMembers fuel (skipBlanks ((skipBlanks rest).drop 1))).bind
          fun read => some (member :: read.1, read.2)
      else none) := by
  rw [writtenMember, toList_quote] at enough ⊢
  simp only [List.length_append, List.length_cons] at enough
  have keyRead := @readString_escaped member.1.toList fuel
    (':' :: (separators.afterColon ++ written separators member.2) ++ rest) (by omega)
  have valueRead := readsBack fuel rest (by omega) delimited
  have text : '"' :: (escaped member.1.toList ++ ['"']) ++
      ':' :: (separators.afterColon ++ written separators member.2) ++ rest =
      '"' :: (escaped member.1.toList ++
        '"' :: (':' :: (separators.afterColon ++ written separators member.2) ++ rest)) := by
    simp
  rw [text, readMembers, List.head?_cons, if_neg (by simp), List.drop_succ_cons, List.drop_zero,
    keyRead]
  simp only [Option.bind_eq_bind, Option.bind_some]
  rw [List.cons_append, skipBlanks_cons (by decide), List.head?_cons, if_neg (by simp),
    List.drop_succ_cons, List.drop_zero, List.append_assoc,
    skipBlanks_append separators.colonBlank, skipBlanks_starts (opens.starts _), valueRead]
  simp only [Option.bind_some, String.ofList_toList]
  rfl

theorem readMembers_written (members : List (String × Json)) (nonempty : members ≠ [])
    (opens : ∀ member ∈ members, Opens (written separators member.2))
    (readsBack : ∀ member ∈ members, ReadsBack separators member.2) (fuel : Nat)
    (rest : List Char)
    (enough : (joinedItems separators (writtenMembers separators members)).length < fuel) :
    readMembers fuel (joinedItems separators (writtenMembers separators members) ++
      '\x7d' :: rest) = some (members, rest) := by
  induction members generalizing fuel with
  | nil => exact absurd rfl nonempty
  | cons member others ih =>
      obtain _ | fuel := fuel
      · exact absurd enough (Nat.not_lt_zero _)
      have memberOpens := opens member List.mem_cons_self
      have memberBack := readsBack member List.mem_cons_self
      cases others with
      | nil =>
          rw [writtenMembers_cons, writtenMembers, joinedItems_singleton] at enough ⊢
          rw [readMembers_member member memberOpens memberBack (by omega)
            (delimited_cons (by simp) _), skipBlanks_cons (by decide), List.head?_cons, if_pos rfl]
          rfl
      | cons next others =>
          have othersOpen :
              Opens (joinedItems separators (writtenMembers separators (next :: others))) := by
            rw [writtenMembers_cons]
            exact (opens_writtenMember next).joinedItems _
          rw [writtenMembers_cons, writtenMembers_cons, joinedItems_cons_cons,
            ← writtenMembers_cons] at enough ⊢
          simp only [List.length_append, List.length_cons] at enough
          have othersBack := ih (by simp) (fun other inside => opens other (by simp [inside]))
            (fun other inside => readsBack other (by simp [inside])) fuel (by omega)
          rw [List.append_assoc, List.cons_append, readMembers_member member memberOpens memberBack
            (by omega) (delimited_cons (by simp) _), skipBlanks_cons (by decide), List.head?_cons,
            if_neg (by simp), if_pos rfl, List.drop_succ_cons, List.drop_zero, List.append_assoc,
            skipBlanks_append separators.commaBlank, skipBlanks_starts (othersOpen.starts _),
            othersBack]
          rfl

/-- No text of a value is empty, so that the fuel for it is not either. -/
theorem readsBack_of_succ {value : Json} (opens : Opens (written separators value))
    (back : ∀ fuel rest, (written separators value).length ≤ fuel + 1 → Delimited rest →
      readValue (fuel + 1) (written separators value ++ rest) = some (value, rest)) :
    ReadsBack separators value := by
  intro fuel rest enough delimited
  obtain _ | fuel := fuel
  · obtain ⟨first, others, shape, -⟩ := opens
    rw [shape] at enough
    exact absurd enough (Nat.not_succ_le_zero _)
  · exact back fuel rest enough delimited

theorem readsBack_constant {constant : List Char × Json} (member : constant ∈ constants)
    (spelled : written separators constant.2 = constant.1)
    (opens : Opens (written separators constant.2)) : ReadsBack separators constant.2 := by
  refine readsBack_of_succ opens fun fuel rest _ _ => ?_
  rw [spelled]
  exact readValue_constant member fuel rest

theorem readsBack_int {value : Int}
    (short : (Nat.toDigits 10 value.natAbs).length ≤ maxStrDigits) :
    ReadsBack separators (int value) := by
  refine readsBack_of_succ (Readable.int short).opens fun fuel rest _ delimited => ?_
  rw [written, ((isInteger_toString value).startsNumber rest).readValue,
    readNumber_int short delimited]

theorem readsBack_float {literal : String} (isLiteral : IsFloatLiteral literal.toList) :
    ReadsBack separators (float literal) := by
  have opens : Opens (written separators (float literal)) := (Readable.float isLiteral).opens
  rcases isLiteral with constant | ⟨integer, fraction, exponent, parts, isInteger, isFraction,
    isExponent, isFloat⟩
  · have member : (literal.toList, float literal) ∈ constants := by
      simp only [List.mem_cons, List.not_mem_nil, or_false, String.toList_inj] at constant
      rcases constant with rfl | rfl | rfl <;> simp [constants]
    exact readsBack_constant member (by rw [written]) opens
  · refine readsBack_of_succ opens fun fuel rest _ delimited => ?_
    have starts := isInteger.startsNumber (fraction ++ exponent ++ rest)
    rw [← List.append_assoc, ← List.append_assoc] at starts
    rw [written, parts, starts.readValue,
      readNumber_float isInteger isFraction isExponent isFloat delimited, ← parts,
      String.ofList_toList]

theorem readsBack_str (value : String) : ReadsBack separators (str value) := by
  refine readsBack_of_succ Readable.str.opens fun fuel rest enough _ => ?_
  rw [written, toList_quote] at enough ⊢
  simp only [List.length_append, List.length_cons] at enough
  rw [List.cons_append, readValue, List.head?_cons, if_pos rfl, List.drop_succ_cons,
    List.drop_zero, List.append_assoc, List.singleton_append, readString_escaped _ (by omega),
    Option.map_some]
  dsimp only
  rw [String.ofList_toList]

theorem readsBack_array {items : List Json} (readable : ∀ item ∈ items, Readable item)
    (back : ∀ item ∈ items, ReadsBack separators item) :
    ReadsBack separators (array items) := by
  refine readsBack_of_succ (Readable.array readable).opens fun fuel rest enough _ => ?_
  rw [written, ← joinedItems] at enough ⊢
  simp only [List.length_append, List.length_cons] at enough
  rw [List.cons_append, List.cons_append, List.append_assoc, List.singleton_append, readValue,
    List.head?_cons, if_neg (by simp), if_pos rfl, List.drop_succ_cons, List.drop_zero]
  cases items with
  | nil =>
      rw [writtenItems]
      rfl
  | cons item others =>
      have opens : Opens (joinedItems separators (writtenItems separators (item :: others))) := by
        rw [writtenItems]
        exact (readable item List.mem_cons_self).opens.joinedItems _
      have notEnd : (joinedItems separators (writtenItems separators (item :: others)) ++
          ']' :: rest).head? ≠ some ']' := by
        obtain ⟨first, more, spelled, -, notEnd⟩ := opens
        rw [spelled]
        simpa using notEnd
      rw [skipBlanks_starts (opens.starts _)]
      dsimp only
      rw [if_neg notEnd, readItems_written _ (by simp)
        (fun item member => (readable item member).opens) back fuel rest (by omega),
        Option.map_some]

theorem readsBack_object {members : List (String × Json)}
    (distinct : (members.map Prod.fst).Nodup) (readable : ∀ member ∈ members, Readable member.2)
    (back : ∀ member ∈ members, ReadsBack separators member.2) :
    ReadsBack separators (object members) := by
  refine readsBack_of_succ (Readable.object distinct readable).opens fun fuel rest enough _ => ?_
  rw [written, ← joinedItems] at enough ⊢
  simp only [List.length_append, List.length_cons] at enough
  rw [List.cons_append, List.cons_append, List.append_assoc, List.singleton_append, readValue,
    List.head?_cons, if_neg (by simp), if_neg (by simp), if_pos rfl, List.drop_succ_cons,
    List.drop_zero]
  cases members with
  | nil =>
      rw [writtenMembers]
      rfl
  | cons member others =>
      have startsQuote : ∃ more, joinedItems separators
          (writtenMembers separators (member :: others)) = '"' :: more := by
        rw [writtenMembers_cons, writtenMember, toList_quote]
        cases others with
        | nil => exact ⟨_, joinedItems_singleton _⟩
        | cons next others =>
            rw [writtenMembers_cons]
            exact ⟨_, joinedItems_cons_cons _ _ _⟩
      obtain ⟨more, spelled⟩ := startsQuote
      have starts : Starts (joinedItems separators (writtenMembers separators (member :: others)) ++
          '\x7d' :: rest) := by
        rw [spelled]
        exact ⟨'"', rfl, by decide⟩
      have notEnd : (joinedItems separators (writtenMembers separators (member :: others)) ++
          '\x7d' :: rest).head? ≠ some '\x7d' := by
        rw [spelled]
        simp
      rw [skipBlanks_starts starts]
      dsimp only
      rw [if_neg notEnd, readMembers_written _ (by simp)
        (fun member inside => (readable member inside).opens) back fuel rest (by omega),
        Option.map_some]
      dsimp only
      rw [dictOf_of_nodup distinct]

theorem Readable.readsBack {value : Json} (readable : Readable value) :
    ReadsBack separators value := by
  induction readable with
  | null =>
      exact @readsBack_constant _ ("null".toList, .null) (by simp [constants]) rfl
        Readable.null.opens
  | @bool value =>
      cases value with
      | true =>
          exact @readsBack_constant _ ("true".toList, .bool true) (by simp [constants]) rfl
            Readable.bool.opens
      | false =>
          exact @readsBack_constant _ ("false".toList, .bool false) (by simp [constants]) rfl
            Readable.bool.opens
  | int short => exact readsBack_int short
  | float isLiteral => exact readsBack_float isLiteral
  | str => exact readsBack_str _
  | array readable ih => exact readsBack_array readable ih
  | object distinct readable ih => exact readsBack_object distinct readable ih

/-- `json.loads` undoes `json.dumps`, with blanks around the text and any blanks after the
separators. -/
theorem loads?_written {value : Json} (readable : Readable value) {before after : List Char}
    (beforeBlank : ∀ character ∈ before, isBlank character = true)
    (afterBlank : ∀ character ∈ after, isBlank character = true) :
    loads? (before ++ written separators value ++ after) = some value := by
  have delimited : Delimited after := by
    cases after with
    | nil => exact delimited_nil
    | cons first others =>
        have blank := afterBlank first List.mem_cons_self
        simp only [isBlank, Bool.or_eq_true, decide_eq_true_eq] at blank
        rcases blank with ((rfl | rfl) | rfl) | rfl <;> simp [Delimited, NoDigit]
  have nothing : skipBlanks after = [] := List.dropWhile_eq_nil_iff.mpr afterBlank
  rw [loads?, List.append_assoc, skipBlanks_append beforeBlank,
    skipBlanks_starts (readable.opens.starts _),
    readable.readsBack _ _ (by simp only [List.length_append]; omega) delimited]
  simp only [Option.bind_eq_bind, Option.bind_some, if_pos nothing]

/-! ## One line of plain text -/

/-- Printable ASCII. -/
def Printable (character : Char) : Prop := 0x20 ≤ character.toNat ∧ character.toNat ≤ 0x7E

instance : DecidablePred Printable := fun _ => inferInstanceAs (Decidable (_ ∧ _))

def Separators.OneLine (separators : Separators) : Prop :=
  ∀ character ∈ separators.afterComma ++ separators.afterColon, character = ' '

theorem printable_of_all {text : List Char} (all : text.all (Printable ·) = true)
    {character : Char} (member : character ∈ text) : Printable character :=
  of_decide_eq_true (List.all_eq_true.mp all character member)

theorem hexDigit_printable {value : Nat} (below : value < 16) : Printable (hexDigit value) := by
  have all : ∀ digit, digit < 16 → Printable (hexDigit digit) := by decide
  exact all value below

theorem unicodeEscape_printable {unit : Nat} {character : Char}
    (member : character ∈ (unicodeEscape unit).toList) : Printable character := by
  rw [unicodeEscape, String.toList_ofList] at member
  simp only [List.mem_cons, List.not_mem_nil, or_false] at member
  rcases member with rfl | rfl | rfl | rfl | rfl | rfl
  · decide
  · decide
  all_goals exact hexDigit_printable (Nat.mod_lt _ (by decide))

theorem escape_printable {source character : Char}
    (member : character ∈ (escape source).toList) : Printable character := by
  have pair : ∀ letter, Printable letter → character ∈ ['\\', letter] → Printable character := by
    intro letter printable inside
    simp only [List.mem_cons, List.not_mem_nil, or_false] at inside
    rcases inside with rfl | rfl
    · decide
    · exact printable
  unfold escape at member
  dsimp only at member
  split_ifs at member with quoted backslash newline carriage tab formFeed backspace plain basic
  · exact pair '"' (by decide) member
  · exact pair '\\' (by decide) member
  · exact pair 'n' (by decide) member
  · exact pair 'r' (by decide) member
  · exact pair 't' (by decide) member
  · exact pair 'f' (by decide) member
  · exact pair 'b' (by decide) member
  · rw [String.toList_singleton, List.mem_singleton] at member
    rw [member]
    exact plain
  · exact unicodeEscape_printable member
  · rw [String.toList_append, List.mem_append] at member
    exact member.elim unicodeEscape_printable unicodeEscape_printable

theorem quote_printable {text : String} {character : Char}
    (member : character ∈ (quote text).toList) : Printable character := by
  rw [toList_quote] at member
  simp only [List.mem_cons, List.mem_append, List.not_mem_nil, or_false] at member
  rcases member with rfl | member | rfl
  · decide
  · obtain ⟨source, -, inside⟩ := List.mem_flatMap.mp member
    exact escape_printable inside
  · decide

theorem digit_printable {digit : Char} (isDigit : digit.isDigit = true) : Printable digit := by
  simp only [Char.isDigit, Bool.and_eq_true, decide_eq_true_eq, UInt32.le_iff_toNat_le] at isDigit
  have bounds : 48 ≤ digit.toNat ∧ digit.toNat ≤ 57 := isDigit
  exact ⟨by omega, by omega⟩

theorem IsInteger.printable {literal : List Char} (isInteger : IsInteger literal)
    {character : Char} (member : character ∈ literal) : Printable character := by
  obtain ⟨sign, digits, rfl, signed, all, -⟩ := isInteger
  rcases List.mem_append.mp member with inSign | inDigits
  · rcases signed with rfl | rfl
    · cases inSign
    · rw [List.mem_singleton.mp inSign]
      decide
  · exact digit_printable (all character inDigits)

theorem IsFraction.printable {literal : List Char} (isFraction : IsFraction literal)
    {character : Char} (member : character ∈ literal) : Printable character := by
  rcases isFraction with rfl | ⟨digits, rfl, -, all⟩
  · cases member
  · rcases List.mem_cons.mp member with rfl | inDigits
    · decide
    · exact digit_printable (all character inDigits)

theorem IsExponent.printable {literal : List Char} (isExponent : IsExponent literal)
    {character : Char} (member : character ∈ literal) : Printable character := by
  rcases isExponent with rfl | ⟨letter, sign, digits, rfl, isLetter, signed, -, all⟩
  · cases member
  · rw [List.cons_append, List.mem_cons, List.mem_append] at member
    rcases member with rfl | inSign | inDigits
    · rcases isLetter with rfl | rfl <;> decide
    · rcases signed with rfl | rfl | rfl
      · cases inSign
      · rw [List.mem_singleton.mp inSign]
        decide
      · rw [List.mem_singleton.mp inSign]
        decide
    · exact digit_printable (all character inDigits)

theorem IsFloatLiteral.printable {literal : List Char} (isLiteral : IsFloatLiteral literal)
    {character : Char} (member : character ∈ literal) : Printable character := by
  rcases isLiteral with constant | ⟨integer, fraction, exponent, rfl, isInteger, isFraction,
    isExponent, -⟩
  · simp only [List.mem_cons, List.not_mem_nil, or_false] at constant
    rcases constant with rfl | rfl | rfl <;> exact printable_of_all rfl member
  · rcases List.mem_append.mp member with front | inExponent
    · rcases List.mem_append.mp front with inInteger | inFraction
      · exact isInteger.printable inInteger
      · exact isFraction.printable inFraction
    · exact isExponent.printable inExponent

theorem joinedItems_printable (oneLine : separators.OneLine) {texts : List (List Char)}
    (each : ∀ text ∈ texts, ∀ character ∈ text, Printable character) {character : Char}
    (member : character ∈ joinedItems separators texts) : Printable character := by
  induction texts with
  | nil => cases member
  | cons text others ih =>
      cases others with
      | nil =>
          rw [joinedItems_singleton] at member
          exact each text List.mem_cons_self character member
      | cons next others =>
          rw [joinedItems_cons_cons] at member
          simp only [List.mem_append, List.mem_cons] at member
          rcases member with inText | rfl | blank | inOthers
          · exact each text List.mem_cons_self character inText
          · decide
          · rw [oneLine character (List.mem_append_left _ blank)]
            decide
          · exact ih (fun other inside => each other (List.mem_cons_of_mem _ inside)) inOthers

theorem writtenItems_eq_map (items : List Json) :
    writtenItems separators items = items.map (written separators) := by
  induction items with
  | nil => rfl
  | cons item others ih => rw [writtenItems, ih, List.map_cons]

theorem writtenMembers_eq_map (members : List (String × Json)) :
    writtenMembers separators members = members.map (writtenMember separators) := by
  induction members with
  | nil => rfl
  | cons member others ih => rw [writtenMembers_cons, ih, List.map_cons]

/-- Whatever a value holds, its text is one line of printable ASCII. -/
theorem Readable.printable (oneLine : separators.OneLine) {value : Json}
    (readable : Readable value) :
    ∀ character ∈ written separators value, Printable character := by
  induction readable with
  | null =>
      rw [written]
      exact fun _ => printable_of_all rfl
  | @bool value =>
      cases value <;> (rw [written]; exact fun _ => printable_of_all rfl)
  | int short =>
      rw [written]
      exact fun character member => (isInteger_toString _).printable member
  | float isLiteral =>
      rw [written]
      exact fun character member => isLiteral.printable member
  | str =>
      rw [written]
      exact fun character member => quote_printable member
  | @array items readable ih =>
      intro character member
      rw [written, ← joinedItems, writtenItems_eq_map] at member
      simp only [List.mem_append, List.mem_cons, List.not_mem_nil, or_false] at member
      rcases member with (rfl | inside) | rfl
      · decide
      · refine joinedItems_printable oneLine (fun text isText => ?_) inside
        obtain ⟨item, isItem, rfl⟩ := List.mem_map.mp isText
        exact ih item isItem
      · decide
  | @object members distinct readable ih =>
      intro character member
      rw [written, ← joinedItems, writtenMembers_eq_map] at member
      simp only [List.mem_append, List.mem_cons, List.not_mem_nil, or_false] at member
      rcases member with (rfl | inside) | rfl
      · decide
      · refine joinedItems_printable oneLine (fun text isText other isOther => ?_) inside
        obtain ⟨pair, isPair, rfl⟩ := List.mem_map.mp isText
        simp only [writtenMember, List.mem_append, List.mem_cons] at isOther
        rcases isOther with inKey | rfl | blank | inValue
        · exact quote_printable inKey
        · decide
        · rw [oneLine other (List.mem_append_right _ blank)]
          decide
        · exact ih pair isPair other inValue
      · decide

/-! ## The compact text -/

mutual

theorem toList_dumps : ∀ value : Json, (dumps value).toList = written .compact value
  | null | bool true | bool false | int _ | float _ | str _ => by rw [dumps, written]
  | array items => by
      rw [dumps, written, String.toList_append, String.toList_append, String.toList_intercalate,
        toList_dumpsItems items]
      rfl
  | object members => by
      rw [dumps, written, String.toList_append, String.toList_append, String.toList_intercalate,
        toList_dumpsMembers members]
      rfl

theorem toList_dumpsItems : ∀ items : List Json,
    (dumpsItems items).map String.toList = writtenItems .compact items
  | [] => rfl
  | item :: rest => by
      rw [dumpsItems, writtenItems, List.map_cons, toList_dumps item, toList_dumpsItems rest]

theorem toList_dumpsMembers : ∀ members : List (String × Json),
    (dumpsMembers members).map String.toList = writtenMembers .compact members
  | [] => rfl
  | (key, value) :: rest => by
      rw [dumpsMembers, writtenMembers, List.map_cons, String.toList_append, String.toList_append,
        toList_dumps value, toList_dumpsMembers rest]
      rfl

end

theorem loads?_dumps {value : Json} (readable : Readable value) :
    loads? (dumps value).toList = some value := by
  have read : loads? ([] ++ written .compact value ++ []) = some value :=
    loads?_written readable (by simp) (by simp)
  rwa [List.nil_append, List.append_nil, ← toList_dumps] at read

end Json

end Foundation
