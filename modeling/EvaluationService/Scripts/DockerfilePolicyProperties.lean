import EvaluationService.Foundation.Json
import EvaluationService.Scripts.LogicalLines

/-!
What the policy is for, and where the checks that enforce it are enough. The policy reads
the last `USER` and `CMD` and every `FROM` and `RUN`; the checks read one of each.
-/

set_option autoImplicit false

namespace EvaluationService.DockerfilePolicy

open Foundation

/-! ## Instructions of a kind -/

section Kind

variable {Item : Type} (kind : Item → Prop) [DecidablePred kind]

/-- There is an item of the kind, and the last one is good. -/
def LastOf (good : Item → Prop) (items : List Item) : Prop :=
  ∃ last ∈ (items.filter kind).getLast?, good last

/-- The items of the kind, if there are any, are one and the same. -/
def AtMostOne (items : List Item) : Prop :=
  ∀ item ∈ items.filter kind, ∀ other ∈ items.filter kind, item = other

instance [DecidableEq Item] (items : List Item) : Decidable (AtMostOne kind items) :=
  inferInstanceAs (Decidable (∀ item ∈ items.filter kind, ∀ other ∈ items.filter kind,
    item = other))

variable {kind} {good : Item → Prop} {items : List Item} {item : Item}

theorem AtMostOne.eq {other : Item} (one : AtMostOne kind items) (member : item ∈ items)
    (isKind : kind item) (otherMember : other ∈ items) (otherIsKind : kind other) : item = other :=
  one item (List.mem_filter.mpr ⟨member, decide_eq_true isKind⟩) other
    (List.mem_filter.mpr ⟨otherMember, decide_eq_true otherIsKind⟩)

theorem AtMostOne.lastOf (one : AtMostOne kind items) (member : item ∈ items)
    (isKind : kind item) (isGood : good item) : LastOf kind good items := by
  have found : item ∈ items.filter kind := List.mem_filter.mpr ⟨member, decide_eq_true isKind⟩
  have last := List.getLast_mem (List.ne_nil_of_mem found)
  refine ⟨_, List.getLast?_eq_some_getLast (List.ne_nil_of_mem found), ?_⟩
  rw [one _ last item found]
  exact isGood

end Kind

/-! ## Upper case and words -/

section Upper

variable (cases : CaseMapping)

theorem splitOnP_append_word {word : List Char} (rest : List Char)
    (within : ∀ character ∈ word, Text.isSpace character = false) :
    (word ++ rest).splitOnP Text.isSpace =
      (rest.splitOnP Text.isSpace).modifyHead (word ++ ·) := by
  induction word with
  | nil =>
      rw [List.nil_append]
      cases rest.splitOnP Text.isSpace with
      | nil => rfl
      | cons head tail => rfl
  | cons first others ih =>
      obtain ⟨outside, othersWithin⟩ := List.forall_mem_cons.mp within
      rw [List.cons_append, List.splitOnP_cons_eq_if_modifyHead, outside, ih othersWithin,
        List.modifyHead_modifyHead]
      rfl

theorem splitOnP_flatMap_upperChar (characters : List Char) :
    (characters.flatMap cases.upperChar).splitOnP Text.isSpace =
      (characters.splitOnP Text.isSpace).map (·.flatMap cases.upperChar) := by
  induction characters with
  | nil => rfl
  | cons first rest ih =>
      rw [List.flatMap_cons, List.splitOnP_cons_eq_if_modifyHead]
      by_cases space : Text.isSpace first = true
      · rw [if_pos space, cases.upperChar_space space, List.singleton_append,
          List.splitOnP_cons_eq_if_modifyHead, if_pos space, ih]
        rfl
      · have outside := Bool.eq_false_iff.mpr space
        rw [if_neg space, splitOnP_append_word _ (cases.upperChar_word outside).2, ih]
        cases rest.splitOnP Text.isSpace with
        | nil => rfl
        | cons head tail => simp

theorem flatMap_upperChar_isEmpty (characters : List Char) :
    (characters.flatMap cases.upperChar).isEmpty = characters.isEmpty := by
  cases characters with
  | nil => rfl
  | cons first rest =>
      have nonempty : cases.upperChar first ≠ [] := by
        by_cases space : Text.isSpace first = true
        · rw [cases.upperChar_space space]
          exact List.cons_ne_nil _ _
        · exact (cases.upperChar_word (Bool.eq_false_iff.mpr space)).1
      simp [nonempty]

/-- The words of a text in upper case are its words in upper case. -/
theorem split_upper (text : String) :
    Text.split (cases.upper text) = (Text.split text).map cases.upper := by
  rw [Text.split, CaseMapping.upper, String.toList_ofList, splitOnP_flatMap_upperChar, Text.split,
    List.filter_map, List.map_map, List.map_map]
  have kept : ((fun piece => !piece.isEmpty) ∘ fun piece : List Char =>
      piece.flatMap cases.upperChar) = fun piece => !piece.isEmpty := by
    funext piece
    exact congrArg (!·) (flatMap_upperChar_isEmpty cases piece)
  rw [kept]
  apply List.map_congr_left
  intro piece _
  rw [Function.comp_apply, Function.comp_apply, CaseMapping.upper, String.toList_ofList]

theorem upper_capitals {text : String} (capitals : ∀ character ∈ text.toList, character.isUpper) :
    cases.upper text = text := by
  rw [← String.toList_inj, CaseMapping.upper, String.toList_ofList]
  revert capitals
  induction text.toList with
  | nil =>
      intro _
      rfl
  | cons first rest ih =>
      intro capitals
      obtain ⟨capital, others⟩ := List.forall_mem_cons.mp capitals
      rw [List.flatMap_cons, cases.upperChar_capital capital, ih others, List.singleton_append]

end Upper

/-! ## The policy -/

section Policy

variable (cases : CaseMapping)

/-- The first word of an instruction is its name, in any case. -/
def Named (name line : String) : Prop :=
  (Text.split line).head?.map cases.upper = some name

instance (name line : String) : Decidable (Named cases name line) :=
  inferInstanceAs (Decidable (_ = _))

def arguments (line : String) : List String :=
  (Text.split line).tail

/-- The image of a `FROM` instruction, after its flags. -/
def image? (line : String) : Option String :=
  (arguments line).find? fun argument => !Text.startsWith "--" argument

/-- The reference without its digest ends in the tag. -/
def UsesLatest (line : String) : Prop :=
  ∃ image ∈ image? line, Text.endsWith ":latest" (Text.partition '@' image).1 = true

/-- What follows the name is a JSON array of strings. -/
def IsExecForm (line : String) : Prop :=
  Json.IsStringArray
    (Text.strip (String.ofList (line.toList.dropWhile fun character => !Text.isSpace character))).toList

/-- What stands between the words of a command, in a shell line or in an array. -/
def separatesWords (character : Char) : Bool :=
  Text.isSpace character || ['"', '\'', ',', '[', ']'].contains character

def separatesCommands (character : Char) : Bool :=
  [';', '&', '|', '(', ')'].contains character

def commandWords (line : String) : List (List String) :=
  (line.toList.splitOnP separatesCommands).map fun command =>
    ((command.splitOnP separatesWords).filter (!·.isEmpty)).map String.ofList

/-- `pip`, with or without a path before it and a version after it. -/
def isPip (word : String) : Bool :=
  ((Text.splitOn '/' word).getLast?.map String.toList).any fun program =>
    "pip".toList.isPrefixOf program &&
      (program.drop 3).all fun character => character.isDigit || character = '.'

/-- Some command of the line has the word `pip` and later the word `install`. -/
def RunsPipInstall (line : String) : Prop :=
  ∃ command ∈ commandWords line, ∃ word ∈ command, isPip word = true ∧
    [word, "install"].Sublist command

instance : DecidablePred RunsPipInstall := fun line =>
  inferInstanceAs (Decidable (∃ command ∈ commandWords line, ∃ word ∈ command, _ ∧ _))

example : RunsPipInstall "RUN cd app && /usr/bin/pip3.12 --quiet  install ." ∧
    RunsPipInstall "RUN [\"pip\", \"install\", \".\"]" ∧
    ¬RunsPipInstall "RUN pip --version; make install" := by
  decide +kernel

variable (runsPipInstall : String → Prop)

def Installs (line : String) : Prop :=
  Named cases "RUN" line ∧ runsPipInstall line

instance [DecidablePred runsPipInstall] : DecidablePred (Installs cases runsPipInstall) :=
  fun _ => inferInstanceAs (Decidable (_ ∧ _))

structure Sound (lines : List String) : Prop where
  user : LastOf (Named cases "USER") (fun line => arguments line = ["app"]) lines
  images : ∀ line ∈ lines, Named cases "FROM" line → ¬UsesLatest line
  installs : ∀ line ∈ lines, Installs cases runsPipInstall line →
    Text.Contains "--no-cache-dir" line
  command : LastOf (Named cases "CMD") IsExecForm lines

variable [DecidablePred runsPipInstall]

/-- The shape of a file in which the checks read everything that the policy is about. -/
structure OneOfEach (text : String) : Prop where
  image : AtMostOne (Named cases "FROM") (logicalLines text)
  user : AtMostOne (Named cases "USER") (logicalLines text)
  /-- The user is not `app` in capitals, which the check takes for `app`. -/
  userCase : ∀ line ∈ logicalLines text, Named cases "USER" line →
    (arguments line).map cases.upper = [cases.upper "app"] → arguments line = ["app"]
  install : AtMostOne (Installs cases runsPipInstall) (logicalLines text)
  /-- The flag stands in lines of installing instructions alone, in no comment either. -/
  flag : ∀ rawLine ∈ Text.splitLines text, Text.Contains "--no-cache-dir" rawLine →
    ∃ group ∈ groups (significantLines (Text.splitLines text)), Text.strip rawLine ∈ group ∧
      Installs cases runsPipInstall (logicalLine group)
  command : AtMostOne (Named cases "CMD") (logicalLines text)
  /-- What begins with a bracket is an array. -/
  bracket : ∀ instruction ∈ instructions text, Named cases "CMD" instruction →
    Text.startsWith "[" (Text.strip (String.ofList (instruction.toList.drop 4))) = true →
      IsExecForm (Text.strip instruction)

end Policy

/-! ## What the checks establish -/

section Established

variable {cases : CaseMapping} {text : String}

theorem strip_mem_logicalLines {instruction : String} (member : instruction ∈ instructions text) :
    Text.strip instruction ∈ logicalLines text := by
  rw [logicalLines_eq]
  exact List.mem_map_of_mem member

theorem named_strip {name instruction : String} :
    Named cases name (Text.strip instruction) ↔ Named cases name instruction := by
  rw [Named, Named, Text.split_strip]

theorem named_of_startsWith {name instruction : String} (isToken : Text.IsToken name)
    (starts : Text.startsWith (name ++ " ") (cases.upper instruction) = true) :
    Named cases name instruction := by
  obtain ⟨rest, upper⟩ := List.isPrefixOf_iff_prefix.mp starts
  have split : Text.split (cases.upper instruction) =
      Text.split name ++ Text.split (String.ofList rest) := by
    rw [← @String.ofList_toList (cases.upper instruction), ← upper, String.toList_append,
      List.append_assoc]
    refine (Text.split_append_space name.toList rest (by decide)).trans ?_
    rw [String.ofList_toList]
  rw [split_upper, Text.split_of_isToken isToken] at split
  rw [Named, ← List.head?_map, split]
  rfl

theorem named_of_firstInstruction {name instruction : String} (isToken : Text.IsToken name)
    (found : firstInstruction cases (instructions text) name = some instruction) :
    instruction ∈ instructions text ∧ Named cases name instruction := by
  have starts := List.find?_some found
  exact ⟨List.mem_of_find?_eq_some found, named_of_startsWith isToken starts⟩

theorem exists_user (found : hasInstruction cases (instructions text) "USER" "app" = true) :
    ∃ line ∈ logicalLines text, Named cases "USER" line ∧
      (arguments line).map cases.upper = [cases.upper "app"] := by
  obtain ⟨instruction, member, same⟩ := List.any_eq_true.mp found
  refine ⟨Text.strip instruction, strip_mem_logicalLines member, ?_⟩
  have words := congrArg Text.split (of_decide_eq_true same)
  have expected : Text.split ("USER" ++ " " ++ "app") = ["USER", "app"] := by decide
  rw [split_upper, split_upper, expected, List.map_cons,
    upper_capitals cases (List.all_eq_true.mp (by decide))] at words
  rw [Named, arguments, Text.split_strip, ← List.head?_map, List.map_tail, words]
  exact ⟨rfl, rfl⟩

theorem exists_command (found : hasExecFormCommand cases (instructions text) "CMD" = true) :
    ∃ instruction ∈ instructions text, Named cases "CMD" instruction ∧
      Text.startsWith "[" (Text.strip (String.ofList (instruction.toList.drop 4))) = true := by
  rw [hasExecFormCommand] at found
  cases first : firstInstruction cases (instructions text) "CMD" with
  | none =>
      rw [first] at found
      cases found
  | some instruction =>
      obtain ⟨member, named⟩ := named_of_firstInstruction (by decide) first
      rw [first] at found
      exact ⟨instruction, member, named, found⟩

theorem UsesLatest.contains {line : String} (uses : UsesLatest line) :
    Text.Contains ":latest" line := by
  obtain ⟨image, isImage, tagged⟩ := uses
  have token : image ∈ Text.split line :=
    List.mem_of_mem_tail (List.mem_of_find?_eq_some isImage)
  have begins : (Text.partition '@' image).1.toList <+: image.toList := by
    rw [Text.partition]
    split
    · exact List.prefix_rfl
    · rw [String.toList_ofList]
      exact List.takeWhile_prefix _
  have ends := (List.isSuffixOf_iff_suffix.mp tagged).isInfix
  exact (ends.trans begins.isInfix).trans (Text.contains_of_mem_split token)

theorem contains_of_contains_strip {part instruction : String}
    (within : Text.Contains part (Text.strip instruction)) : Text.Contains part instruction := by
  refine List.IsInfix.trans within ?_
  rw [Text.strip, Text.stripWhere, String.toList_ofList]
  exact (List.rdropWhile_prefix _ _).isInfix.trans (List.dropWhile_suffix _).isInfix

/-- The `FROM` instruction that the checks look at has another tag. -/
theorem not_usesLatest_of_first {instruction : String}
    (other : ¬Text.Contains ":latest" (cases.lower instruction)) :
    ¬UsesLatest (Text.strip instruction) := by
  intro uses
  have kept : ∀ character ∈ ":latest".toList,
      decide (character.toNat < 128 ∧ character.isUpper = false) = true :=
    List.all_eq_true.mp (by decide)
  refine other (cases.lower_keeps ?_ (contains_of_contains_strip uses.contains))
  intro character member
  exact of_decide_eq_true (kept character member)

/-- What the search for an installation finds: the start of a line, and after it the three
texts in their order, however far apart and across however many instructions. -/
theorem search_pipInstallPattern_iff {text : String} :
    Pattern.search pipInstallPattern text = true ↔
      ∃ before blank space middle between after,
        text.toList = before ++ (blank ++ ("RUN".toList ++ space :: (middle ++
          ("pip install ".toList ++ (between ++ "--no-cache-dir".toList))))) ++ after ∧
        Pattern.AtLineStart before ∧ (∀ character ∈ blank, Text.isSpace character = true) ∧
          Text.isSpace space = true := by
  have language : ∀ matched : List Char, Pattern.Matches pipInstallPattern matched ↔
      ∃ blank space middle between, matched = blank ++ ("RUN".toList ++ space :: (middle ++
          ("pip install ".toList ++ (between ++ "--no-cache-dir".toList)))) ∧
        (∀ character ∈ blank, Text.isSpace character = true) ∧ Text.isSpace space = true := by
    intro matched
    simp only [pipInstallPattern, List.cons_append, List.append_assoc, Pattern.matches_many_iff,
      Pattern.matches_literal_append_iff, Pattern.matches_once_iff, Pattern.matches_anything_iff,
      Pattern.matches_literal_iff]
    constructor
    · intro given
      obtain ⟨blank, _, rfl, blanks, _, rfl, space, _, rfl, isSpace, spaces, _, rfl, -, middle,
        _, rfl, _, rfl, between, _, rfl, rfl⟩ := given
      exact ⟨blank, space, spaces ++ middle, between, by simp only [List.append_assoc], blanks,
        isSpace⟩
    · intro given
      obtain ⟨blank, space, middle, between, rfl, blanks, isSpace⟩ := given
      exact ⟨blank, _, rfl, blanks, _, rfl, space, _, rfl, isSpace, [], _, rfl,
        List.forall_mem_nil _, middle, _, rfl, _, rfl, between, _, rfl, rfl⟩
  rw [Pattern.search_iff]
  constructor
  · intro given
    obtain ⟨before, matched, after, split, found, start⟩ := given
    obtain ⟨blank, space, middle, between, rfl, blanks, isSpace⟩ := (language matched).mp found
    exact ⟨before, blank, space, middle, between, after, split, start, blanks, isSpace⟩
  · intro given
    obtain ⟨before, blank, space, middle, between, after, split, start, blanks, isSpace⟩ := given
    exact ⟨before, _, after, split,
      (language _).mpr ⟨blank, space, middle, between, rfl, blanks, isSpace⟩, start⟩

theorem contains_of_search {line : String}
    (found : Pattern.search pipInstallPattern line = true) :
    Text.Contains "--no-cache-dir" line := by
  obtain ⟨before, blank, space, middle, between, after, split, -⟩ :=
    search_pipInstallPattern_iff.mp found
  refine ⟨before ++ (blank ++ ("RUN".toList ++ space :: (middle ++
    ("pip install ".toList ++ between)))), after, ?_⟩
  rw [split]
  simp only [List.append_assoc, List.cons_append]

/-- The flag that the search finds somewhere in the text is in a logical line. -/
theorem exists_install {runsPipInstall : String → Prop} [DecidablePred runsPipInstall]
    (one : OneOfEach cases runsPipInstall text)
    (found : Pattern.search pipInstallPattern text = true) :
    ∃ line ∈ logicalLines text, Installs cases runsPipInstall line ∧
      Text.Contains "--no-cache-dir" line := by
  have plain : ("--no-cache-dir".toList.all fun character =>
      !Text.isLineBreak character && !Text.isSpace character) = true := by decide
  simp only [List.all_eq_true, Bool.and_eq_true, Bool.not_eq_true'] at plain
  have unbroken : ∀ character ∈ "--no-cache-dir".toList, Text.isLineBreak character = false :=
    fun character member => (plain character member).1
  have unspaced : ∀ character ∈ "--no-cache-dir".toList, Text.isSpace character = false :=
    fun character member => (plain character member).2
  obtain ⟨rawLine, rawMember, inRaw⟩ :=
    Text.exists_line_contains (by decide) unbroken (contains_of_search found)
  obtain ⟨group, groupMember, inGroup, installs⟩ := one.flag rawLine rawMember inRaw
  have inLine : Text.Contains "--no-cache-dir" (logicalLine group) :=
    contains_logicalLine inGroup unspaced (by decide) inRaw
  refine ⟨logicalLine group, mem_logicalLines groupMember ?_, installs, inLine⟩
  intro empty
  rw [empty] at inLine
  exact absurd inLine (by decide)

end Established

def asciiCases : CaseMapping where
  upperChar character := [character.toUpper]
  lower text := String.ofList (text.toList.map Char.toLower)
  upperChar_space := by
    intro character space
    rcases Text.toUpper_eq character with same | ⟨low, high, -⟩
    · rw [same]
    · rw [Text.isSpace_of_letter (by omega) high] at space
      cases space
  upperChar_word := by
    intro character outside
    refine ⟨List.cons_ne_nil _ _, ?_⟩
    intro upper member
    rw [List.mem_singleton.mp member]
    rcases Text.toUpper_eq character with same | ⟨low, high, raised⟩
    · rw [same]
      exact outside
    · exact Text.isSpace_of_letter (by omega) (by omega)
  upperChar_capital := by
    intro character capital
    rcases Text.toUpper_eq character with same | ⟨low, high, -⟩
    · rw [same]
    · have bound : character.toNat ≤ 90 :=
        UInt32.le_iff_toNat_le.mp (of_decide_eq_true capital).2
      omega
  lower_keeps := by
    intro part text kept within
    rw [Text.Contains, String.toList_ofList]
    have mapped := List.IsInfix.map Char.toLower within
    have same : part.toList.map Char.toLower = part.toList := by
      rw [List.map_congr_left, List.map_id]
      intro character member
      rcases Text.toLower_eq character with ⟨unchanged, -⟩ | ⟨low, high, -⟩
      · exact unchanged
      · have capital : character.isUpper = true := by
          apply decide_eq_true
          exact ⟨UInt32.le_iff_toNat_le.mpr low, UInt32.le_iff_toNat_le.mpr high⟩
        rw [(kept character member).2] at capital
        cases capital
    rw [same] at mapped
    exact mapped

def singleStage : String :=
  "FROM python:3.12-slim\nRUN pip install \\\n  --no-cache-dir .\nUSER app\nCMD [\"serve\"]\n"

theorem isExecForm_serve : IsExecForm "CMD [\"serve\"]" := by
  have plain : Json.StringText "serve".toList := by
    repeat refine .plain (by decide) (by decide) (by decide) ?_
    exact .nil
  have text : (Text.strip (String.ofList ("CMD [\"serve\"]".toList.dropWhile fun character =>
      !Text.isSpace character))).toList = '[' :: "\"serve\"".toList ++ [']'] := by
    decide
  refine ⟨_, text, .inr ⟨["\"serve\"".toList], List.cons_ne_nil _ _, ?_, rfl⟩⟩
  intro item member
  rw [List.mem_singleton.mp member]
  exact ⟨[], "serve".toList, [], rfl, plain, List.forall_mem_nil _,
    List.forall_mem_nil _⟩

/-- The checks are content with the first stage. -/
def multiStage : String :=
  "FROM python:3.12\nRUN pip install --no-cache-dir .\nUSER app\nCMD [\"serve\"]\n" ++
    "FROM python:latest\nRUN [\"pip3\", \"install\", \".\"]\nUSER root\nCMD serve\n"

end EvaluationService.DockerfilePolicy
