import Mathlib.Data.List.Basic

/-!
Regular expressions without groups: a pattern is a sequence of character classes, each
to be read once or any number of times. The matcher tries every length for a repeated
class; `Matches` is the language it decides.
-/

set_option autoImplicit false

namespace Foundation

inductive Pattern.Item where
  | once (accepts : Char → Bool)
  | many (accepts : Char → Bool)

abbrev Pattern : Type := List Pattern.Item

namespace Pattern

def literal (text : String) : Pattern :=
  text.toList.map fun character => .once (· == character)

/-- `.*` where the dot stands for a newline as well. -/
def anything : Item :=
  .many fun _ => true

inductive Matches : Pattern → List Char → Prop where
  | nil : Matches [] []
  | once {accepts : Char → Bool} {pattern : Pattern} {first : Char} {rest : List Char} :
      accepts first = true → Matches pattern rest → Matches (.once accepts :: pattern) (first :: rest)
  | done {accepts : Char → Bool} {pattern : Pattern} {text : List Char} :
      Matches pattern text → Matches (.many accepts :: pattern) text
  | more {accepts : Char → Bool} {pattern : Pattern} {first : Char} {rest : List Char} :
      accepts first = true → Matches (.many accepts :: pattern) rest →
        Matches (.many accepts :: pattern) (first :: rest)

/-- Resumes after some run of accepted characters. -/
def skip (accepts : Char → Bool) (resume : List Char → Bool) : List Char → Bool
  | [] => resume []
  | first :: rest => resume (first :: rest) || (accepts first && skip accepts resume rest)

/-- `re.match` -/
def matchesStart : Pattern → List Char → Bool
  | [], _ => true
  | .once _ :: _, [] => false
  | .once accepts :: pattern, first :: rest => accepts first && matchesStart pattern rest
  | .many accepts :: pattern, text => skip accepts (matchesStart pattern) text

def searchFrom (pattern : Pattern) (lineStart : Bool) : List Char → Bool
  | [] => lineStart && matchesStart pattern []
  | first :: rest =>
      (lineStart && matchesStart pattern (first :: rest)) || searchFrom pattern (first == '\n') rest

/-- `re.search` for `^` and the pattern, where `^` stands for the start of a line. -/
def search (pattern : Pattern) (text : String) : Bool :=
  searchFrom pattern true text.toList

def AtLineStart (before : List Char) : Prop :=
  before = [] ∨ ∃ earlier, before = earlier ++ ['\n']

/-! ## The language of a pattern -/

section Language

variable {accepts : Char → Bool} {pattern : Pattern} {text : List Char}

theorem matches_nil_iff : Matches [] text ↔ text = [] := by
  constructor
  · intro found
    cases found
    rfl
  · intro empty
    subst empty
    exact .nil

theorem matches_once_iff :
    Matches (.once accepts :: pattern) text ↔
      ∃ first rest, text = first :: rest ∧ accepts first = true ∧ Matches pattern rest := by
  constructor
  · intro found
    cases found with
    | once accepted rest => exact ⟨_, _, rfl, accepted, rest⟩
  · intro given
    obtain ⟨first, rest, rfl, accepted, found⟩ := given
    exact .once accepted found

theorem matches_many_iff :
    Matches (.many accepts :: pattern) text ↔
      ∃ run rest, text = run ++ rest ∧ (∀ character ∈ run, accepts character = true) ∧
        Matches pattern rest := by
  constructor
  · intro found
    induction text with
    | nil =>
        cases found with
        | done found => exact ⟨[], [], rfl, List.forall_mem_nil _, found⟩
    | cons first rest ih =>
        cases found with
        | done found => exact ⟨[], first :: rest, rfl, List.forall_mem_nil _, found⟩
        | more accepted found =>
            obtain ⟨run, remaining, rfl, runAccepted, remains⟩ := ih found
            exact ⟨first :: run, remaining, rfl,
              List.forall_mem_cons.mpr ⟨accepted, runAccepted⟩, remains⟩
  · intro given
    obtain ⟨run, rest, rfl, accepted, found⟩ := given
    induction run with
    | nil => exact .done found
    | cons first run ih =>
        obtain ⟨firstAccepted, runAccepted⟩ := List.forall_mem_cons.mp accepted
        exact .more firstAccepted (ih runAccepted)

theorem matches_anything_iff :
    Matches (anything :: pattern) text ↔ ∃ run rest, text = run ++ rest ∧ Matches pattern rest := by
  simp [anything, matches_many_iff]

theorem matches_literal_append_iff {word : String} :
    Matches (literal word ++ pattern) text ↔
      ∃ rest, text = word.toList ++ rest ∧ Matches pattern rest := by
  rw [literal]
  induction word.toList generalizing text with
  | nil => simp
  | cons first others ih =>
      rw [List.map_cons, List.cons_append, matches_once_iff]
      constructor
      · intro given
        obtain ⟨character, rest, rfl, same, found⟩ := given
        obtain ⟨remaining, rfl, ended⟩ := ih.mp found
        exact ⟨remaining, by rw [beq_iff_eq.mp same, List.cons_append], ended⟩
      · intro given
        obtain ⟨remaining, rfl, found⟩ := given
        exact ⟨first, others ++ remaining, List.cons_append, BEq.rfl,
          ih.mpr ⟨remaining, rfl, found⟩⟩

theorem matches_literal_iff {word : String} :
    Matches (literal word) text ↔ text = word.toList := by
  have ended := @matches_literal_append_iff [] text word
  simpa [matches_nil_iff] using ended

end Language

/-! ## The matcher -/

section Matcher

variable {accepts : Char → Bool} {resume : List Char → Bool} {pattern : Pattern}
  {text : List Char}

theorem skip_iff :
    skip accepts resume text = true ↔
      ∃ run rest, text = run ++ rest ∧ (∀ character ∈ run, accepts character = true) ∧
        resume rest = true := by
  induction text with
  | nil =>
      constructor
      · intro resumed
        exact ⟨[], [], rfl, List.forall_mem_nil _, resumed⟩
      · intro given
        obtain ⟨run, rest, empty, -, resumed⟩ := given
        obtain ⟨-, rfl⟩ := List.append_eq_nil_iff.mp empty.symm
        exact resumed
  | cons first others ih =>
      rw [skip, Bool.or_eq_true, Bool.and_eq_true, ih]
      constructor
      · intro given
        rcases given with resumed | ⟨accepted, run, rest, rfl, runAccepted, resumed⟩
        · exact ⟨[], first :: others, rfl, List.forall_mem_nil _, resumed⟩
        · exact ⟨first :: run, rest, rfl, List.forall_mem_cons.mpr ⟨accepted, runAccepted⟩, resumed⟩
      · intro given
        obtain ⟨run, rest, split, runAccepted, resumed⟩ := given
        cases run with
        | nil =>
            rw [List.nil_append] at split
            subst split
            exact .inl resumed
        | cons head run =>
            rw [List.cons_append, List.cons.injEq] at split
            obtain ⟨rfl, rfl⟩ := split
            obtain ⟨accepted, runAccepted⟩ := List.forall_mem_cons.mp runAccepted
            exact .inr ⟨accepted, run, rest, rfl, runAccepted, resumed⟩

theorem matchesStart_iff :
    matchesStart pattern text = true ↔
      ∃ matched rest, text = matched ++ rest ∧ Matches pattern matched := by
  induction pattern generalizing text with
  | nil =>
      constructor
      · intro _
        exact ⟨[], text, rfl, .nil⟩
      · intro _
        rfl
  | cons item pattern ih =>
      cases item with
      | once accepts =>
          cases text with
          | nil =>
              constructor
              · intro found
                cases found
              · intro given
                obtain ⟨matched, rest, empty, found⟩ := given
                obtain ⟨rfl, -⟩ := List.append_eq_nil_iff.mp empty.symm
                cases found
          | cons first others =>
              rw [matchesStart, Bool.and_eq_true, ih]
              constructor
              · intro given
                obtain ⟨accepted, matched, rest, rfl, found⟩ := given
                exact ⟨first :: matched, rest, rfl, .once accepted found⟩
              · intro given
                obtain ⟨matched, rest, split, found⟩ := given
                obtain ⟨head, tail, rfl, accepted, remains⟩ := matches_once_iff.mp found
                rw [List.cons_append, List.cons.injEq] at split
                obtain ⟨rfl, rfl⟩ := split
                exact ⟨accepted, tail, rest, rfl, remains⟩
      | many accepts =>
          rw [matchesStart, skip_iff]
          constructor
          · intro given
            obtain ⟨run, remaining, rfl, accepted, found⟩ := given
            obtain ⟨matched, rest, rfl, remains⟩ := ih.mp found
            exact ⟨run ++ matched, rest, (List.append_assoc _ _ _).symm,
              matches_many_iff.mpr ⟨run, matched, rfl, accepted, remains⟩⟩
          · intro given
            obtain ⟨matched, rest, rfl, found⟩ := given
            obtain ⟨run, remaining, rfl, accepted, remains⟩ := matches_many_iff.mp found
            exact ⟨run, remaining ++ rest, List.append_assoc _ _ _, accepted,
              ih.mpr ⟨remaining, rest, rfl, remains⟩⟩

theorem searchFrom_iff {lineStart : Bool} :
    searchFrom pattern lineStart text = true ↔
      ∃ before matched after, text = before ++ matched ++ after ∧ Matches pattern matched ∧
        (before = [] ∧ lineStart = true ∨ ∃ earlier, before = earlier ++ ['\n']) := by
  induction text generalizing lineStart with
  | nil =>
      rw [searchFrom, Bool.and_eq_true, matchesStart_iff]
      constructor
      · intro given
        obtain ⟨started, matched, rest, split, found⟩ := given
        exact ⟨[], matched, rest, split, found, .inl ⟨rfl, started⟩⟩
      · intro given
        obtain ⟨before, matched, after, split, found, start⟩ := given
        have empty : before = [] ∧ matched = [] := by
          simpa using (List.append_eq_nil_iff.mp split.symm).1
        rcases start with ⟨-, started⟩ | ⟨earlier, ends⟩
        · exact ⟨started, matched, after, by rw [split, empty.1, List.nil_append], found⟩
        · rw [empty.1] at ends
          cases List.append_ne_nil_of_right_ne_nil earlier (List.cons_ne_nil _ _) ends.symm
  | cons first others ih =>
      rw [searchFrom, Bool.or_eq_true, Bool.and_eq_true, matchesStart_iff, ih]
      constructor
      · intro given
        rcases given with ⟨started, matched, rest, split, found⟩ | ⟨before, matched, after,
          rfl, found, start⟩
        · exact ⟨[], matched, rest, split, found, .inl ⟨rfl, started⟩⟩
        · refine ⟨first :: before, matched, after, rfl, found, .inr ?_⟩
          rcases start with ⟨rfl, newline⟩ | ⟨earlier, rfl⟩
          · exact ⟨[], by rw [beq_iff_eq.mp newline]; rfl⟩
          · exact ⟨first :: earlier, rfl⟩
      · intro given
        obtain ⟨before, matched, after, split, found, start⟩ := given
        cases before with
        | nil =>
            rcases start with ⟨-, started⟩ | ⟨earlier, ends⟩
            · exact .inl ⟨started, matched, after, split, found⟩
            · cases List.append_ne_nil_of_right_ne_nil earlier (List.cons_ne_nil _ _) ends.symm
        | cons head before =>
            rw [List.cons_append, List.cons_append, List.cons.injEq] at split
            obtain ⟨rfl, rfl⟩ := split
            refine .inr ⟨before, matched, after, rfl, found, ?_⟩
            rcases start with ⟨nonempty, -⟩ | ⟨earlier, ends⟩
            · cases nonempty
            · cases earlier with
              | nil =>
                  rw [List.nil_append, List.cons.injEq] at ends
                  exact .inl ⟨ends.2, by rw [ends.1]; rfl⟩
              | cons _ earlier =>
                  rw [List.cons_append, List.cons.injEq] at ends
                  exact .inr ⟨earlier, ends.2⟩

/-- A search finds a match that begins a line, if there is one. -/
theorem search_iff {text : String} :
    search pattern text = true ↔
      ∃ before matched after, text.toList = before ++ matched ++ after ∧
        Matches pattern matched ∧ AtLineStart before := by
  rw [search, searchFrom_iff]
  simp only [AtLineStart, and_true]

end Matcher

end Pattern

end Foundation
