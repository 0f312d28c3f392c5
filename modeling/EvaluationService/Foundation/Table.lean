import Mathlib.Data.List.Nodup
import Mathlib.Data.List.Perm.Basic

/-!
Tables with a primary key: a list of rows, in the order in which they were
inserted, no two of which have the same key. Every row satisfies a fixed check,
so an operation that reads a row never meets a malformed one.
-/

set_option autoImplicit false

namespace Foundation

/-- A loop that counts its iterations next to what it does. -/
theorem foldl_counted {Item State : Type} (body : State → Item → State) (items : List Item)
    (count : Nat) (state : State) :
    items.foldl (fun (counted : Nat × State) item => (counted.1 + 1, body counted.2 item))
        (count, state) =
      (count + items.length, items.foldl body state) := by
  induction items generalizing count state with
  | nil => rfl
  | cons item rest ih =>
      rw [List.foldl_cons, ih, List.foldl_cons, List.length_cons]
      congr 1
      omega

/-- Rows of type `Row` under the key `key`, each passing the check `sound`. -/
structure Table {Row Key : Type} (key : Row → Key) (sound : Row → Prop) where
  rows : List Row
  unique : (rows.map key).Nodup
  checked : ∀ row ∈ rows, sound row

namespace Table

variable {Row Key : Type} {key : Row → Key} {sound : Row → Prop}

def empty : Table key sound where
  rows := []
  unique := by simp
  checked := by simp

/-- The same rows in another physical order. -/
def Arranges (table other : Table key sound) : Prop :=
  table.rows.Perm other.rows

theorem Arranges.refl (table : Table key sound) : table.Arranges table :=
  List.Perm.refl _

theorem nodup_keys_filter (table : Table key sound) (test : Row → Bool) :
    ((table.rows.filter test).map key).Nodup :=
  (List.Sublist.map key List.filter_sublist).nodup table.unique

variable [DecidableEq Key]

def find? (table : Table key sound) (wanted : Key) : Option Row :=
  table.rows.find? fun row => key row = wanted

theorem find?_eq_some_iff (table : Table key sound) (wanted : Key) (row : Row) :
    table.find? wanted = some row ↔ row ∈ table.rows ∧ key row = wanted := by
  constructor
  · intro found
    exact ⟨List.mem_of_find?_eq_some found, by simpa using List.find?_some found⟩
  · rintro ⟨member, rfl⟩
    cases found : table.find? (key row) with
    | none => exact absurd (List.find?_eq_none.mp found row member) (by simp)
    | some other =>
        have otherMember := List.mem_of_find?_eq_some found
        have sameKey : key other = key row := by simpa using List.find?_some found
        rw [List.inj_on_of_nodup_map table.unique otherMember member sameKey]

theorem find?_eq_none_iff (table : Table key sound) (wanted : Key) :
    table.find? wanted = none ↔ ∀ row ∈ table.rows, key row ≠ wanted := by
  simp [find?, List.find?_eq_none]

theorem find?_key {table : Table key sound} {wanted : Key} {row : Row}
    (found : table.find? wanted = some row) : key row = wanted :=
  ((find?_eq_some_iff table wanted row).mp found).2

theorem find?_sound {table : Table key sound} {wanted : Key} {row : Row}
    (found : table.find? wanted = some row) : sound row :=
  table.checked row ((find?_eq_some_iff table wanted row).mp found).1

theorem find?_of_mem (table : Table key sound) {row : Row} (member : row ∈ table.rows) :
    table.find? (key row) = some row :=
  (find?_eq_some_iff table (key row) row).mpr ⟨member, rfl⟩

theorem Arranges.find? {table other : Table key sound} (arranged : table.Arranges other)
    (wanted : Key) : table.find? wanted = other.find? wanted := by
  ext row
  rw [find?_eq_some_iff, find?_eq_some_iff, arranged.mem_iff]

theorem mem_keys_filter_iff (table : Table key sound) (test : Row → Bool) {row : Row} {wanted : Key}
    (found : table.find? wanted = some row) :
    wanted ∈ (table.rows.filter test).map key ↔ test row = true := by
  obtain ⟨member, sameKey⟩ := (find?_eq_some_iff table wanted row).mp found
  constructor
  · intro chosen
    obtain ⟨other, otherChosen, otherKey⟩ := List.mem_map.mp chosen
    obtain ⟨otherMember, passes⟩ := List.mem_filter.mp otherChosen
    have same := List.inj_on_of_nodup_map table.unique otherMember member
      (otherKey.trans sameKey.symm)
    exact same ▸ passes
  · intro passes
    exact List.mem_map.mpr ⟨row, List.mem_filter.mpr ⟨member, passes⟩, sameKey⟩

theorem map_key_replace {rows : List Row} {wanted : Key} {change : Row → Row}
    (keeps : ∀ row, key row = wanted → key (change row) = key row) :
    (rows.map fun row => if key row = wanted then change row else row).map key = rows.map key := by
  rw [List.map_map]
  refine List.map_congr_left fun row _ => ?_
  simp only [Function.comp_apply]
  split
  · exact keeps row ‹key row = wanted›
  · rfl

/-- Store a row under its own key: in the place of the old row, or at the end. -/
def put (table : Table key sound) (row : Row) (good : sound row) : Table key sound :=
  if present : key row ∈ table.rows.map key then
    { rows := table.rows.map fun old => if key old = key row then row else old
      unique := by
        rw [map_key_replace fun _ same => same.symm]
        exact table.unique
      checked := by
        intro stored member
        obtain ⟨old, oldMember, rfl⟩ := List.mem_map.mp member
        split
        · exact good
        · exact table.checked old oldMember }
  else
    { rows := table.rows ++ [row]
      unique := by
        rw [List.map_append, List.nodup_append]
        refine ⟨table.unique, by simp, ?_⟩
        intro old oldMember new newMember same
        have newKey : new = key row := by simpa using newMember
        exact present (newKey ▸ same ▸ oldMember)
      checked := by
        intro stored member
        rcases List.mem_append.mp member with old | new
        · exact table.checked stored old
        · have same : stored = row := by simpa using new
          exact same ▸ good }

theorem rows_put (table : Table key sound) (row : Row) (good : sound row) :
    (table.put row good).rows =
      if key row ∈ table.rows.map key then
        table.rows.map fun old => if key old = key row then row else old
      else table.rows ++ [row] := by
  unfold put
  split <;> rfl

theorem mem_put_rows (table : Table key sound) (row : Row) (good : sound row) (stored : Row) :
    stored ∈ (table.put row good).rows ↔
      stored = row ∨ (stored ∈ table.rows ∧ key stored ≠ key row) := by
  unfold put
  split
  · rename_i present
    obtain ⟨old, oldMember, oldKey⟩ := List.mem_map.mp present
    simp only [List.mem_map]
    constructor
    · rintro ⟨before, member, rfl⟩
      by_cases same : key before = key row
      · exact .inl (if_pos same)
      · rw [if_neg same]
        exact .inr ⟨member, same⟩
    · rintro (rfl | ⟨member, different⟩)
      · exact ⟨old, oldMember, if_pos oldKey⟩
      · exact ⟨stored, member, if_neg different⟩
  · rename_i absent
    simp only [List.mem_append, List.mem_singleton]
    constructor
    · rintro (member | rfl)
      · exact .inr ⟨member, fun same => absent (same ▸ List.mem_map_of_mem member)⟩
      · exact .inl rfl
    · rintro (rfl | ⟨member, _⟩)
      · exact .inr rfl
      · exact .inl member

/-- Putting a row that is there changes nothing. -/
theorem rows_put_of_mem (table : Table key sound) {row : Row} (good : sound row)
    (member : row ∈ table.rows) : (table.put row good).rows = table.rows := by
  rw [rows_put, if_pos (List.mem_map_of_mem member)]
  refine (List.map_congr_left fun stored isStored => ?_).trans (List.map_id _)
  split
  · rename_i same
    exact List.inj_on_of_nodup_map table.unique member isStored same.symm
  · rfl

theorem find?_put (table : Table key sound) (row : Row) (good : sound row) (wanted : Key) :
    (table.put row good).find? wanted =
      if wanted = key row then some row else table.find? wanted := by
  ext stored
  rw [find?_eq_some_iff, mem_put_rows]
  by_cases same : wanted = key row
  · subst same
    rw [if_pos rfl, Option.some_inj]
    constructor
    · rintro ⟨rfl | ⟨_, different⟩, sameKey⟩
      · rfl
      · exact absurd sameKey different
    · rintro rfl
      exact ⟨.inl rfl, rfl⟩
  · rw [if_neg same, find?_eq_some_iff]
    constructor
    · rintro ⟨rfl | ⟨member, _⟩, sameKey⟩
      · exact absurd sameKey.symm same
      · exact ⟨member, sameKey⟩
    · rintro ⟨member, rfl⟩
      exact ⟨.inr ⟨member, same⟩, rfl⟩

def modify (table : Table key sound) (wanted : Key) (change : Row → Row)
    (keeps : ∀ row, key (change row) = key row) (safe : ∀ row, sound row → sound (change row)) :
    Table key sound where
  rows := table.rows.map fun row => if key row = wanted then change row else row
  unique := by
    rw [map_key_replace fun row _ => keeps row]
    exact table.unique
  checked := by
    intro stored member
    obtain ⟨row, rowMember, rfl⟩ := List.mem_map.mp member
    split
    · exact safe row (table.checked row rowMember)
    · exact table.checked row rowMember

section Changing

variable {change : Row → Row} (keeps : ∀ row, key (change row) = key row)
variable (safe : ∀ row, sound row → sound (change row))

theorem find?_modify (table : Table key sound) (wanted other : Key) :
    (table.modify wanted change keeps safe).find? other =
      (table.find? other).map fun row => if other = wanted then change row else row := by
  simp only [find?, modify, List.find?_map]
  have sameTest : ((fun row => decide (key row = other)) ∘
      fun row => if key row = wanted then change row else row) =
        fun row => decide (key row = other) := by
    funext row
    simp only [Function.comp_apply]
    split
    · rw [keeps]
    · rfl
  rw [sameTest]
  cases found : table.rows.find? (fun row => key row = other) with
  | none => rfl
  | some row =>
      have sameKey : key row = other := by simpa using List.find?_some found
      simp only [Option.map_some, sameKey]

/-- Changing selected rows one after the other changes each of them once, when
no key is selected twice. -/
theorem find?_foldl_modify (selected : List Row) (distinct : (selected.map key).Nodup)
    (table : Table key sound) (wanted : Key) :
    (selected.foldl (fun current row => current.modify (key row) change keeps safe) table).find?
        wanted =
      (table.find? wanted).map fun row => if wanted ∈ selected.map key then change row else row := by
  induction selected generalizing table with
  | nil => simp
  | cons row rest ih =>
      rw [List.map_cons, List.nodup_cons] at distinct
      rw [List.foldl_cons, ih distinct.2, find?_modify keeps safe, Option.map_map]
      refine Option.map_congr fun stored _ => ?_
      simp only [Function.comp_apply, List.map_cons, List.mem_cons]
      by_cases same : wanted = key row
      · subst same
        rw [if_neg distinct.1, if_pos rfl, if_pos (.inl rfl)]
      · simp only [same, if_false, false_or]

end Changing

end Table

end Foundation
