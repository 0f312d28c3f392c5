import Mathlib.Logic.Function.Basic
import EvaluationService.Foundation.Run
import EvaluationService.Foundation.Table

/-!
Sessions that work on one table under exclusive row locks. A session reads a row
under its lock, computes a new version and writes it when it commits; no other session
sees or changes anything of it before. The rows a session holds are therefore current
when it writes them, which is what `Holds` says and `Leaves` preserves.
-/

set_option autoImplicit false

namespace Foundation

/-! ## Interleaved sessions -/

/-- A shared store and what each session has in hand. -/
structure Sessions (Store Local : Type) where
  store : Store
  locals : Nat → Local

namespace Sessions

variable {Store Local Event : Type}

/-- One atomic action of one session. -/
inductive Step (acts : Nat → Store → Local → Event → Store → Local → Prop) :
    Sessions Store Local → Nat × Event → Sessions Store Local → Prop where
  | act {state : Sessions Store Local} {session : Nat} {event : Event} {store : Store}
      {next : Local} :
      acts session state.store (state.locals session) event store next →
      Step acts state (session, event) ⟨store, Function.update state.locals session next⟩

variable {acts : Nat → Store → Local → Event → Store → Local → Prop}

/-- What holds of the store and of each session in it. -/
def Hold (shared : Store → Prop) (own : Nat → Store → Local → Prop)
    (state : Sessions Store Local) : Prop :=
  shared state.store ∧ ∀ session, own session state.store (state.locals session)

/-- Rely and guarantee between named sessions: the others' invariants survive what the
acting session leaves of the store. -/
theorem Hold.step {shared : Store → Prop} {own : Nat → Store → Local → Prop}
    (leaves : Nat → Store → Store → Prop)
    (stable : ∀ actor other before after current, other ≠ actor → leaves actor before after →
      own other before current → own other after current)
    (kept : ∀ session store current event after next, shared store →
      own session store current → acts session store current event after next →
      shared after ∧ own session after next ∧ leaves session store after)
    {state next : Sessions Store Local} {event : Nat × Event} (holds : state.Hold shared own)
    (stepped : Step acts state event next) : next.Hold shared own := by
  cases stepped with
  | @act actor event store following acted =>
      obtain ⟨keptShared, keptOwn, left⟩ := kept _ _ _ _ _ _ holds.1 (holds.2 actor) acted
      refine ⟨keptShared, fun session => ?_⟩
      dsimp only
      by_cases same : session = actor
      · rw [same, Function.update_self]
        exact keptOwn
      · rw [Function.update_of_ne same]
        exact stable actor session _ _ _ same left (holds.2 session)

end Sessions

/-! ## Rows under locks -/

/-- The committed rows and, for each key, the session that holds its lock. -/
structure LockedTable {Row Key : Type} (key : Row → Key) (sound : Row → Prop) where
  table : Table key sound
  owner : Key → Option Nat

namespace LockedTable

variable {Row Key : Type} {key : Row → Key} {sound : Row → Prop}

def unlocked (table : Table key sound) : LockedTable key sound := ⟨table, fun _ => none⟩

/-- The end of a transaction, by a commit or a rollback. -/
def release (rows : LockedTable key sound) (session : Nat) : LockedTable key sound :=
  { rows with
    owner := fun wanted => if rows.owner wanted = some session then none else rows.owner wanted }

@[simp] theorem release_table (rows : LockedTable key sound) (session : Nat) :
    (rows.release session).table = rows.table := rfl

theorem release_owner_ne (rows : LockedTable key sound) (session : Nat) (wanted : Key) :
    (rows.release session).owner wanted ≠ some session := by
  change (if rows.owner wanted = some session then none else rows.owner wanted) ≠ some session
  split
  · simp
  · assumption

theorem release_owner_iff (rows : LockedTable key sound) {session other : Nat}
    (different : other ≠ session) (wanted : Key) :
    (rows.release session).owner wanted = some other ↔ rows.owner wanted = some other := by
  change (if rows.owner wanted = some session then none else rows.owner wanted) = some other ↔ _
  split
  · rename_i own
    rw [own]
    simp [different.symm]
  · exact Iff.rfl

/-- The session has no lock, so nobody waits for it. -/
def Lockless (rows : LockedTable key sound) (session : Nat) : Prop :=
  ∀ wanted, rows.owner wanted ≠ some session

theorem Lockless.release (rows : LockedTable key sound) (session : Nat) :
    (rows.release session).Lockless session :=
  rows.release_owner_ne session

variable [DecidableEq Key]

def lock (rows : LockedTable key sound) (session : Nat) (wanted : Key) : LockedTable key sound :=
  { rows with owner := Function.update rows.owner wanted (some session) }

def write (rows : LockedTable key sound) (written : List { row // sound row }) :
    LockedTable key sound :=
  { rows with
    table := written.foldl (fun table row => table.put row.1 row.2) rows.table }

def commit (rows : LockedTable key sound) (session : Nat) (written : List { row // sound row }) :
    LockedTable key sound :=
  (rows.write written).release session

@[simp] theorem lock_table (rows : LockedTable key sound) (session : Nat) (wanted : Key) :
    (rows.lock session wanted).table = rows.table := rfl

@[simp] theorem lock_owner_self (rows : LockedTable key sound) (session : Nat) (wanted : Key) :
    (rows.lock session wanted).owner wanted = some session :=
  Function.update_self _ _ _

theorem lock_owner_of_ne (rows : LockedTable key sound) (session : Nat) {wanted other : Key}
    (different : other ≠ wanted) : (rows.lock session wanted).owner other = rows.owner other :=
  Function.update_of_ne different _ _

@[simp] theorem commit_table (rows : LockedTable key sound) (session : Nat)
    (written : List { row // sound row }) :
    (rows.commit session written).table = (rows.write written).table := rfl

theorem find?_write (written : List { row // sound row })
    (distinct : (written.map (key ·.1)).Nodup) (rows : LockedTable key sound) (wanted : Key) :
    (rows.write written).table.find? wanted =
      ((written.find? fun row => key row.1 = wanted).map (·.1)).or (rows.table.find? wanted) := by
  obtain ⟨table, owner⟩ := rows
  change (written.foldl (fun table row => table.put row.1 row.2) table).find? wanted = _
  dsimp only
  induction written generalizing table with
  | nil => rfl
  | cons row rest ih =>
      rw [List.map_cons, List.nodup_cons] at distinct
      rw [List.foldl_cons, ih distinct.2, Table.find?_put, List.find?_cons]
      by_cases same : key row.1 = wanted
      · have absent : (rest.find? fun other => key other.1 = wanted) = none := by
          rw [List.find?_eq_none]
          intro other member otherSame
          exact distinct.1 (List.mem_map.mpr
            ⟨other, member, (of_decide_eq_true otherSame).trans same.symm⟩)
        simp [absent, same]
      · simp [same, Ne.symm same]

/-! ### What a session leaves to the others -/

structure Leaves (actor : Nat) (before after : LockedTable key sound) : Prop where
  owners : ∀ wanted other, other ≠ actor →
    (after.owner wanted = some other ↔ before.owner wanted = some other)
  rows : ∀ wanted other, other ≠ actor → before.owner wanted = some other →
    after.table.find? wanted = before.table.find? wanted
  present : ∀ wanted, before.table.find? wanted ≠ none → after.table.find? wanted ≠ none

theorem Leaves.refl (actor : Nat) (rows : LockedTable key sound) : Leaves actor rows rows :=
  ⟨fun _ _ _ => Iff.rfl, fun _ _ _ _ => rfl, fun _ present => present⟩

theorem Leaves.trans {actor : Nat} {before middle after : LockedTable key sound}
    (first : Leaves actor before middle) (last : Leaves actor middle after) :
    Leaves actor before after where
  owners wanted other different :=
    (last.owners wanted other different).trans (first.owners wanted other different)
  rows wanted other different owned :=
    (last.rows wanted other different ((first.owners wanted other different).mpr owned)).trans
      (first.rows wanted other different owned)
  present wanted present := last.present wanted (first.present wanted present)

theorem Leaves.lock {actor : Nat} {rows : LockedTable key sound} {wanted : Key}
    (free : rows.owner wanted = none) : Leaves actor rows (rows.lock actor wanted) where
  owners other session different := by
    by_cases same : other = wanted
    · rw [same, lock_owner_self, free]
      simp [different.symm]
    · rw [lock_owner_of_ne _ _ same]
  rows _ _ _ _ := rfl
  present _ present := present

theorem Leaves.release (actor : Nat) (rows : LockedTable key sound) :
    Leaves actor rows (rows.release actor) where
  owners wanted _ different := rows.release_owner_iff different wanted
  rows _ _ _ _ := rfl
  present _ present := present

theorem Leaves.write {actor : Nat} {rows : LockedTable key sound}
    {written : List { row // sound row }} (distinct : (written.map (key ·.1)).Nodup)
    (owned : ∀ row ∈ written, rows.owner (key row.1) = some actor) :
    Leaves actor rows (rows.write written) where
  owners _ _ _ := Iff.rfl
  rows wanted other different held := by
    rw [find?_write written distinct]
    cases found : written.find? fun row => key row.1 = wanted with
    | none => rfl
    | some row =>
        have same : key row.1 = wanted := by simpa using List.find?_some found
        have mine := owned row (List.mem_of_find?_eq_some found)
        rw [same, held, Option.some_inj] at mine
        exact absurd mine different
  present wanted present := by
    rw [find?_write written distinct]
    cases written.find? fun row => key row.1 = wanted with
    | none => exact present
    | some _ => simp

theorem Leaves.commit {actor : Nat} {rows : LockedTable key sound}
    {written : List { row // sound row }} (distinct : (written.map (key ·.1)).Nodup)
    (owned : ∀ row ∈ written, rows.owner (key row.1) = some actor) :
    Leaves actor rows (rows.commit actor written) :=
  (Leaves.write distinct owned).trans (.release actor _)

theorem Lockless.of_leaves {actor session : Nat} {before after : LockedTable key sound}
    (lockless : before.Lockless session) (different : session ≠ actor)
    (left : Leaves actor before after) : after.Lockless session :=
  fun wanted owned => lockless wanted ((left.owners wanted session different).mp owned)

/-! ### Rows in hand -/

/-- The rows a session has read under their locks. -/
structure Holds (rows : LockedTable key sound) (session : Nat)
    (selected : List { row // sound row }) : Prop where
  distinct : (selected.map (key ·.1)).Nodup
  owned : ∀ row ∈ selected, rows.owner (key row.1) = some session
  current : ∀ row ∈ selected, rows.table.find? (key row.1) = some row.1

theorem Holds.nil (rows : LockedTable key sound) (session : Nat) : rows.Holds session [] :=
  ⟨by simp, by simp, by simp⟩

theorem Holds.of_leaves {actor session : Nat} {before after : LockedTable key sound}
    {selected : List { row // sound row }} (holds : before.Holds session selected)
    (different : session ≠ actor) (left : Leaves actor before after) :
    after.Holds session selected where
  distinct := holds.distinct
  owned row member := (left.owners _ _ different).mpr (holds.owned row member)
  current row member :=
    (left.rows _ _ different (holds.owned row member)).trans (holds.current row member)

theorem Holds.lock {session : Nat} {rows : LockedTable key sound} {wanted : Key}
    {selected : List { row // sound row }} (holds : rows.Holds session selected) :
    (rows.lock session wanted).Holds session selected where
  distinct := holds.distinct
  owned row member := by
    by_cases same : key row.1 = wanted
    · rw [same, lock_owner_self]
    · rw [lock_owner_of_ne _ _ same]
      exact holds.owned row member
  current := holds.current

theorem Holds.take {session : Nat} {rows : LockedTable key sound}
    {selected : List { row // sound row }} (holds : rows.Holds session selected)
    (row : { row // sound row }) (free : rows.owner (key row.1) = none)
    (found : rows.table.find? (key row.1) = some row.1) :
    (rows.lock session (key row.1)).Holds session (selected ++ [row]) where
  distinct := by
    rw [List.map_append, List.nodup_append]
    refine ⟨holds.distinct, by simp, ?_⟩
    intro held heldMember last lastMember same
    obtain ⟨other, member, rfl⟩ := List.mem_map.mp heldMember
    rw [List.map_singleton, List.mem_singleton] at lastMember
    have owned := holds.owned other member
    rw [same, lastMember, free] at owned
    cases owned
  owned other member := by
    rcases List.mem_append.mp member with held | last
    · exact holds.lock.owned other held
    · rw [List.mem_singleton.mp last, lock_owner_self]
  current other member := by
    rcases List.mem_append.mp member with held | last
    · exact holds.current other held
    · rw [List.mem_singleton.mp last]
      exact found

/-- Writing back what was computed from the rows in hand changes the current rows: no
update in between is lost. -/
theorem Holds.find?_commit {session : Nat} {rows : LockedTable key sound}
    {selected : List { row // sound row }} (holds : rows.Holds session selected)
    (change : { row // sound row } → { row // sound row })
    (keeps : ∀ row, key (change row).1 = key row.1) (wanted : Key) :
    (rows.commit session (selected.map change)).table.find? wanted =
      match selected.find? fun row => key row.1 = wanted with
      | some row => some (change row).1
      | none => rows.table.find? wanted := by
  have sameKeys : (selected.map change).map (key ·.1) = selected.map (key ·.1) := by
    rw [List.map_map]
    exact List.map_congr_left fun row _ => keeps row
  have sameTest : ((fun row : { row // sound row } => decide (key row.1 = wanted)) ∘ change) =
      fun row => decide (key row.1 = wanted) := by
    funext row
    rw [Function.comp_apply, keeps]
  rw [commit_table, find?_write _ (by rw [sameKeys]; exact holds.distinct), List.find?_map, sameTest]
  cases selected.find? fun row => key row.1 = wanted <;> rfl

theorem Holds.leaves_commit {session : Nat} {rows : LockedTable key sound}
    {selected : List { row // sound row }} (holds : rows.Holds session selected)
    (change : { row // sound row } → { row // sound row })
    (keeps : ∀ row, key (change row).1 = key row.1) :
    Leaves session rows (rows.commit session (selected.map change)) := by
  refine .commit ?_ ?_
  · rw [List.map_map]
    have same : (fun row : { row // sound row } => key row.1) ∘ change = fun row => key row.1 :=
      funext keeps
    rw [same]
    exact holds.distinct
  · intro written member
    obtain ⟨row, held, rfl⟩ := List.mem_map.mp member
    rw [keeps]
    exact holds.owned row held

/-! ## Locking scans

`SELECT … WHERE … FOR UPDATE SKIP LOCKED` under READ COMMITTED: the candidates are those
of the statement's snapshot. A candidate that is locked is skipped; the lock of another
is taken on the row as it is by now, which is looked at again. Whether the lock of a row
that no longer matches is kept is left open. -/

inductive ScanStep (condition : Row → Bool) (session : Nat) (wanted : Key)
    (rows : LockedTable key sound) (selected : List { row // sound row }) :
    LockedTable key sound → List { row // sound row } → Prop where
  | skip {other : Nat} : rows.owner wanted = some other → other ≠ session →
      ScanStep condition session wanted rows selected rows selected
  | passOver {row : Row} {next : LockedTable key sound} : rows.owner wanted = none →
      rows.table.find? wanted = some row → condition row = false →
      next = rows ∨ next = rows.lock session wanted →
      ScanStep condition session wanted rows selected next selected
  | take {row : { row // sound row }} : rows.owner wanted = none →
      rows.table.find? wanted = some row.1 → condition row.1 = true →
      ScanStep condition session wanted rows selected (rows.lock session wanted)
        (selected ++ [row])

namespace ScanStep

variable {condition : Row → Bool} {session : Nat} {wanted : Key}
variable {rows next : LockedTable key sound} {selected taken : List { row // sound row }}

theorem table_eq (scanned : ScanStep condition session wanted rows selected next taken) :
    next.table = rows.table := by
  cases scanned with
  | skip _ _ => rfl
  | passOver _ _ _ kept => rcases kept with rfl | rfl <;> rfl
  | take _ _ _ => rfl

theorem leaves (scanned : ScanStep condition session wanted rows selected next taken) :
    Leaves session rows next := by
  cases scanned with
  | skip _ _ => exact .refl _ _
  | passOver free _ _ kept =>
      rcases kept with rfl | rfl
      · exact .refl _ _
      · exact .lock free
  | take free _ _ => exact .lock free

theorem holds (scanned : ScanStep condition session wanted rows selected next taken)
    (held : rows.Holds session selected) : next.Holds session taken := by
  cases scanned with
  | skip _ _ => exact held
  | passOver _ _ _ kept =>
      rcases kept with rfl | rfl
      · exact held
      · exact held.lock
  | @take row free found _ =>
      obtain rfl := Table.find?_key found
      exact held.take row free found

theorem passes (scanned : ScanStep condition session wanted rows selected next taken)
    (passed : ∀ row ∈ selected, condition row.1 = true) :
    ∀ row ∈ taken, condition row.1 = true := by
  cases scanned with
  | skip _ _ => exact passed
  | passOver _ _ _ _ => exact passed
  | take _ _ passes =>
      intro row member
      rcases List.mem_append.mp member with earlier | last
      · exact passed row earlier
      · rw [List.mem_singleton.mp last]
        exact passes

theorem owner_of_ne (scanned : ScanStep condition session wanted rows selected next taken)
    {other : Key} (different : other ≠ wanted) : next.owner other = rows.owner other := by
  cases scanned with
  | skip _ _ => rfl
  | passOver _ _ _ kept =>
      rcases kept with rfl | rfl
      · rfl
      · exact lock_owner_of_ne _ _ different
  | take _ _ _ => exact lock_owner_of_ne _ _ different

theorem length_le (scanned : ScanStep condition session wanted rows selected next taken) :
    taken.length ≤ selected.length + 1 := by
  cases scanned <;> simp

end ScanStep

end LockedTable

end Foundation
