import EvaluationService.Scripts.DockerfilePolicy

/-!
The logical lines of a Dockerfile, and that `_instructions` computes them up to white
space at their ends. Comments and blank lines are dropped first, also between a line and
its continuation; every group of lines up to the first that no backslash continues is
one instruction.
-/

set_option autoImplicit false

namespace EvaluationService.DockerfilePolicy

open Foundation

def Significant (line : String) : Prop :=
  ¬(line = "" ∨ Text.startsWith "#" line = true)

instance (line : String) : Decidable (Significant line) :=
  inferInstanceAs (Decidable ¬(_ ∨ _))

def significantLines (rawLines : List String) : List String :=
  (rawLines.map Text.strip).filter fun line => Significant line

def groups : List String → List (List String)
  | [] => []
  | line :: rest =>
      if Text.endsWith "\\" line then
        match groups rest with
        | [] => [[line]]
        | group :: others => (line :: group) :: others
      else [line] :: groups rest

def logicalLine (group : List String) : String :=
  Text.strip (Text.join ' ' (group.map piece))

def logicalLines (text : String) : List String :=
  ((groups (significantLines (Text.splitLines text))).map logicalLine).filter (· ≠ "")

/-! ## One step of the loop -/

/-- What `joinLine` makes of the open line and a piece. -/
def extend (current piece : String) : String :=
  if current ≠ "" then current ++ " " ++ piece else piece

section Step

variable {joining : Joining} {rawLine : String}

theorem joinLine_insignificant (skipped : ¬Significant (Text.strip rawLine)) :
    joinLine joining rawLine = joining := by
  rw [Significant, not_not] at skipped
  exact if_pos skipped

theorem joinLine_continued (read : Significant (Text.strip rawLine))
    (continued : Text.endsWith "\\" (Text.strip rawLine) = true) :
    joinLine joining rawLine =
      { joining with current := extend joining.current (piece (Text.strip rawLine)) } := by
  refine (if_neg read).trans ?_
  exact if_pos continued

theorem joinLine_complete (read : Significant (Text.strip rawLine))
    (complete : ¬Text.endsWith "\\" (Text.strip rawLine) = true) :
    joinLine joining rawLine =
      { lines := joining.lines ++ [extend joining.current (piece (Text.strip rawLine))]
        current := "" } := by
  refine (if_neg read).trans ?_
  exact if_neg complete

end Step

/-! ## The text of a group -/

/-- The open line after the lines of a group. -/
def joined (group : List String) : String :=
  (group.map piece).foldl extend ""

theorem joined_concat (group : List String) (line : String) :
    joined (group ++ [line]) = extend (joined group) (piece line) := by
  rw [joined, List.map_append, List.foldl_append]
  rfl

theorem strip_extend_append (current piece : String) (rest : List Char) :
    Text.strip (String.ofList ((extend current piece).toList ++ rest)) =
      Text.strip (String.ofList (current.toList ++ ' ' :: (piece.toList ++ rest))) := by
  rw [extend]
  by_cases empty : current = ""
  · subst empty
    rw [if_neg (not_not.mpr rfl)]
    exact (Text.stripWhere_cons (by decide) _).symm
  · rw [if_pos empty, String.toList_append, String.toList_append, List.append_assoc,
      List.append_assoc]
    rfl

theorem strip_foldl_extend (pieces : List String) (current : String) :
    Text.strip (pieces.foldl extend current) =
      Text.strip (String.ofList
        (current.toList ++ pieces.flatMap fun piece => ' ' :: piece.toList)) := by
  suffices ∀ rest : List Char,
      Text.strip (String.ofList ((pieces.foldl extend current).toList ++ rest)) =
        Text.strip (String.ofList
          (current.toList ++ ((pieces.flatMap fun piece => ' ' :: piece.toList) ++ rest))) by
    simpa using this []
  intro rest
  induction pieces generalizing current with
  | nil => rfl
  | cons first others ih =>
      rw [List.foldl_cons, ih, strip_extend_append, List.flatMap_cons, List.cons_append,
        List.cons_append, List.append_assoc]

/-- The loop and `join` differ in blanks at the ends alone. -/
theorem strip_joined (group : List String) : Text.strip (joined group) = logicalLine group := by
  cases group with
  | nil => rfl
  | cons first rest =>
      rw [joined, logicalLine, strip_foldl_extend, List.map_cons, List.flatMap_cons]
      refine (Text.stripWhere_cons (by decide) _).trans ?_
      change Text.strip (String.ofList ((piece first).toList ++
        (rest.map piece).flatMap fun part => ' ' :: part.toList)) = _
      rw [← Text.toList_join_cons, String.ofList_toList]

theorem extend_ne_empty {current piece : String} (added : piece ≠ "") :
    extend current piece ≠ "" := by
  rw [extend]
  by_cases empty : current = ""
  · rw [if_neg (not_not.mpr empty)]
    exact added
  · rw [if_pos empty]
    simp

/-- The open line is not blank, unless it is empty. -/
theorem strip_joined_ne_empty {group : List String} (remains : joined group ≠ "") :
    Text.strip (joined group) ≠ "" := by
  induction group using List.reverseRecOn with
  | nil => exact absurd rfl remains
  | append_singleton earlier line ih =>
      rw [joined_concat] at remains ⊢
      by_cases empty : joined earlier = ""
      · rw [empty] at remains ⊢
        exact Text.stripWhere_ne_empty remains
      · have blank := mt Text.stripWhere_eq_empty_iff.mpr (ih empty)
        rw [extend, if_pos empty]
        intro stripped
        apply blank
        intro character member
        apply Text.stripWhere_eq_empty_iff.mp stripped
        rw [String.toList_append, String.toList_append, List.append_assoc]
        exact List.mem_append_left _ member

theorem removeSuffix_of_not_endsWith {ending text : String}
    (other : ¬Text.endsWith ending text = true) : Text.removeSuffix ending text = text :=
  if_neg other

theorem piece_ne_empty {rawLine : String} (read : Significant (Text.strip rawLine))
    (complete : ¬Text.endsWith "\\" (Text.strip rawLine) = true) :
    piece (Text.strip rawLine) ≠ "" := by
  rw [piece, removeSuffix_of_not_endsWith complete]
  apply Text.stripWhere_ne_empty
  intro empty
  exact read (.inl empty)

/-! ## The loop -/

/-- The groups of the lines, the first of them after lines that are read already. -/
def groupsAfter (opened : List String) (lines : List String) : List (List String) :=
  match groups lines with
  | [] => if opened = [] then [] else [opened]
  | group :: others => (opened ++ group) :: others

theorem groupsAfter_nil (lines : List String) : groupsAfter [] lines = groups lines := by
  rw [groupsAfter]
  cases groups lines with
  | nil => rfl
  | cons group others => rfl

theorem groupsAfter_continued {line : String} (continued : Text.endsWith "\\" line = true)
    (opened lines : List String) :
    groupsAfter opened (line :: lines) = groupsAfter (opened ++ [line]) lines := by
  rw [groupsAfter, groupsAfter, groups, if_pos continued]
  cases groups lines with
  | nil => simp
  | cons group others => simp

theorem groupsAfter_complete {line : String} (complete : ¬Text.endsWith "\\" line = true)
    (opened lines : List String) :
    groupsAfter opened (line :: lines) = (opened ++ [line]) :: groups lines := by
  rw [groupsAfter, groups, if_neg complete]

def logicalTexts (groups : List (List String)) : List String :=
  (groups.map logicalLine).filter (· ≠ "")

theorem finish_foldl_joinLine (rawLines lines opened : List String) :
    ((rawLines.foldl joinLine { lines, current := joined opened }).finish).map Text.strip =
      lines.map Text.strip ++ logicalTexts (groupsAfter opened (significantLines rawLines)) := by
  induction rawLines generalizing lines opened with
  | nil =>
      rw [List.foldl_nil, Joining.finish]
      by_cases empty : joined opened = ""
      · rw [if_neg (not_not.mpr empty)]
        have blank : logicalLine opened = "" := by
          rw [← strip_joined, empty]
          rfl
        by_cases none : opened = []
        · simp [significantLines, groupsAfter, groups, logicalTexts, none]
        · simp [significantLines, groupsAfter, groups, logicalTexts, none, blank]
      · rw [if_pos empty]
        have nonblank : logicalLine opened ≠ "" := by
          rw [← strip_joined]
          exact strip_joined_ne_empty empty
        have some : opened ≠ [] := by
          intro none
          rw [none] at empty
          exact empty rfl
        simp [significantLines, groupsAfter, groups, logicalTexts, some, nonblank, strip_joined]
  | cons rawLine rest ih =>
      rw [List.foldl_cons]
      by_cases read : Significant (Text.strip rawLine)
      · have significant : significantLines (rawLine :: rest) =
            Text.strip rawLine :: significantLines rest := by
          simp [significantLines, read]
        rw [significant]
        by_cases continued : Text.endsWith "\\" (Text.strip rawLine) = true
        · rw [joinLine_continued read continued, ← joined_concat, ih,
            groupsAfter_continued continued]
        · have complete := ih
            (lines ++ [joined (opened ++ [Text.strip rawLine])]) []
          have nonempty : logicalLine (opened ++ [Text.strip rawLine]) ≠ "" := by
            rw [← strip_joined]
            apply strip_joined_ne_empty
            rw [joined_concat]
            exact extend_ne_empty (piece_ne_empty read continued)
          rw [joinLine_complete read continued, ← joined_concat]
          refine complete.trans ?_
          rw [groupsAfter_complete continued, groupsAfter_nil, List.map_append, List.append_assoc]
          simp [logicalTexts, nonempty, strip_joined]
      · have insignificant : significantLines (rawLine :: rest) = significantLines rest := by
          simp [significantLines, read]
        rw [joinLine_insignificant read, insignificant]
        exact ih lines opened

/-- `_instructions` returns the logical lines, with white space at the ends of some. -/
theorem logicalLines_eq (text : String) :
    logicalLines text = (instructions text).map Text.strip := by
  have loop := finish_foldl_joinLine (Text.splitLines text) [] []
  rw [groupsAfter_nil] at loop
  exact loop.symm

/-! ## Parts of a group -/

theorem mem_logicalLines {text : String} {group : List String}
    (member : group ∈ groups (significantLines (Text.splitLines text)))
    (nonempty : logicalLine group ≠ "") : logicalLine group ∈ logicalLines text :=
  List.mem_filter.mpr ⟨List.mem_map_of_mem member, decide_eq_true nonempty⟩

/-- Joining keeps what has no blank and no backslash. -/
theorem contains_logicalLine {group : List String} {rawLine part : String}
    (member : Text.strip rawLine ∈ group)
    (unspaced : ∀ character ∈ part.toList, Text.isSpace character = false)
    (unescaped : '\\' ∉ part.toList) (within : Text.Contains part rawLine) :
    Text.Contains part (logicalLine group) := by
  have inLine : Text.Contains part (Text.strip rawLine) := within.stripWhere unspaced
  have inPiece : Text.Contains part (piece (Text.strip rawLine)) :=
    (inLine.removeSuffix unescaped).stripWhere unspaced
  have joined : Text.Contains (piece (Text.strip rawLine)) (Text.join ' ' (group.map piece)) :=
    Text.contains_join (List.mem_map_of_mem member)
  have inJoined : Text.Contains part (Text.join ' ' (group.map piece)) := inPiece.trans joined
  exact inJoined.stripWhere unspaced

end EvaluationService.DockerfilePolicy
