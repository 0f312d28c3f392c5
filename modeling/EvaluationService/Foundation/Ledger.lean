import Mathlib.Data.List.Nodup
import Mathlib.Data.Set.Card
import Mathlib.Logic.Function.Basic

/-!
Ledgers. A log of entries accounts for a partial map when each key of the map has one
entry, with the key's value, and there are no others. Then the number of entries with a
value is the number of keys that have it.
-/

set_option autoImplicit false

namespace Foundation

variable {Key Value : Type}

structure Accounts (entries : List (Key × Value)) (state : Key → Option Value) : Prop where
  once : (entries.map Prod.fst).Nodup
  entered : ∀ key value, (key, value) ∈ entries ↔ state key = some value

/-- What one entry, or none, makes of the map. -/
def Enters [DecidableEq Key] (state : Key → Option Value) :
    Option (Key × Value) → (Key → Option Value) → Prop
  | none, next => next = state
  | some (key, value), next => state key = none ∧ next = Function.update state key (some value)

namespace Accounts

variable {entries : List (Key × Value)} {state : Key → Option Value} {key : Key} {value : Value}

theorem nil : Accounts ([] : List (Key × Value)) fun _ => none :=
  ⟨List.nodup_nil, fun _ _ => by simp⟩

theorem nodup (accounts : Accounts entries state) : entries.Nodup :=
  .of_map _ accounts.once

/-- A key without a value may be entered once. -/
theorem enter [DecidableEq Key] (accounts : Accounts entries state) (free : state key = none) :
    Accounts (entries ++ [(key, value)]) (Function.update state key (some value)) := by
  have absent : ∀ other, (key, other) ∉ entries := by
    intro other member
    rw [accounts.entered, free] at member
    cases member
  constructor
  · rw [List.map_append, List.nodup_append]
    refine ⟨accounts.once, List.nodup_singleton _, ?_⟩
    intro other member last isLast same
    rw [List.map_singleton, List.mem_singleton] at isLast
    rw [same, isLast] at member
    obtain ⟨⟨_, given⟩, earlier, rfl⟩ := List.mem_map.mp member
    exact absent given earlier
  · intro other given
    rw [List.mem_append, List.mem_singleton, accounts.entered]
    by_cases same : other = key
    · subst same
      simp [free, eq_comm]
    · simp [same]

theorem step [DecidableEq Key] {entry : Option (Key × Value)} {next : Key → Option Value}
    (accounts : Accounts entries state) (enters : Enters state entry next) :
    Accounts (entries ++ entry.toList) next := by
  rcases entry with _ | ⟨key, value⟩
  · rw [show next = state from enters, Option.toList_none, List.append_nil]
    exact accounts
  · obtain ⟨free, rfl⟩ := enters
    exact accounts.enter free

theorem filter_key [DecidableEq Key] (accounts : Accounts entries state) (key : Key) :
    (entries.filter (·.1 = key)).map Prod.snd = (state key).toList := by
  have entered : ∀ given, given ∈ entries.filter (·.1 = key) ↔
      given.1 = key ∧ state key = some given.2 := by
    rintro ⟨other, value⟩
    rw [List.mem_filter, accounts.entered, decide_eq_true_eq]
    constructor
    · rintro ⟨found, rfl⟩
      exact ⟨rfl, found⟩
    · rintro ⟨rfl, found⟩
      exact ⟨found, rfl⟩
  cases held : state key with
  | none =>
      have empty : entries.filter (·.1 = key) = [] := by
        rw [List.eq_nil_iff_forall_not_mem]
        intro given member
        rw [entered, held] at member
        cases member.2
      rw [empty]
      rfl
  | some value =>
      have single : (entries.filter (·.1 = key)).Perm [(key, value)] := by
        rw [List.perm_ext_iff_of_nodup (accounts.nodup.filter _) (List.nodup_singleton _)]
        intro given
        rw [entered, held, List.mem_singleton, Prod.ext_iff, Option.some_inj, eq_comm (a := value)]
      rw [List.perm_singleton.mp single]
      rfl

theorem length_filter [DecidableEq Value] (accounts : Accounts entries state) (value : Value) :
    (entries.filter (·.2 = value)).length = {key | state key = some value}.ncard ∧
      {key | state key = some value}.Finite := by
  classical
  have keys : {key | state key = some value} =
      (((entries.filter (·.2 = value)).map Prod.fst).toFinset : Set Key) := by
    ext key
    simp [accounts.entered]
  have once : ((entries.filter (·.2 = value)).map Prod.fst).Nodup :=
    accounts.once.sublist (List.filter_sublist.map _)
  rw [keys, Set.ncard_coe_finset, List.toFinset_card_of_nodup once, List.length_map]
  exact ⟨rfl, Finset.finite_toSet _⟩

end Accounts

end Foundation
