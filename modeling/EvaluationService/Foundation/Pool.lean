import Mathlib.Data.Set.Card
import Mathlib.Logic.Function.Basic
import EvaluationService.Foundation.Run

/-!
Threads over one shared store. A program says how the environment changes the store,
which threads may be started and what one atomic action of a thread does. The invariant
rule is that of rely and guarantee: every action keeps the shared invariant and the
acting thread's own one, and changes the store only in ways that leave the others' own
invariants valid.
-/

set_option autoImplicit false

namespace Foundation

structure Program (Store Thread Input Action : Type) where
  arrives : Store → Input → Store → Prop
  starts : Store → Store → Thread → Prop
  acts : Store → Thread → Action → Store → Thread → Prop

structure Pool (Store Thread : Type) where
  store : Store
  threads : Nat → Option Thread

inductive PoolEvent (Input Action : Type) where
  | arrive (input : Input)
  | start (index : Nat)
  | act (index : Nat) (action : Action)

variable {Store Thread Input Action : Type} {program : Program Store Thread Input Action}

/-- One atomic action of the environment or of one thread. -/
inductive Program.Step (program : Program Store Thread Input Action) :
    Pool Store Thread → PoolEvent Input Action → Pool Store Thread → Prop where
  | arrive {pool : Pool Store Thread} {input : Input} {store : Store} :
      program.arrives pool.store input store →
      Step program pool (.arrive input) ⟨store, pool.threads⟩
  | start {pool : Pool Store Thread} {index : Nat} {store : Store} {thread : Thread} :
      pool.threads index = none → program.starts pool.store store thread →
      Step program pool (.start index) ⟨store, Function.update pool.threads index (some thread)⟩
  | act {pool : Pool Store Thread} {index : Nat} {action : Action} {store : Store}
      {thread next : Thread} :
      pool.threads index = some thread → program.acts pool.store thread action store next →
      Step program pool (.act index action)
        ⟨store, Function.update pool.threads index (some next)⟩

namespace Pool

def idle (store : Store) : Pool Store Thread := ⟨store, fun _ => none⟩

/-- What holds of the store and of each thread in it. -/
def Holds (shared : Store → Prop) (own : Store → Thread → Prop) (pool : Pool Store Thread) : Prop :=
  shared pool.store ∧ ∀ index thread, pool.threads index = some thread → own pool.store thread

theorem Holds.update {shared : Store → Prop} {own : Store → Thread → Prop}
    {rely : Store → Store → Prop} {pool : Pool Store Thread} {index : Nat} {store : Store}
    {thread : Thread} (holds : pool.Holds shared own)
    (stable : ∀ store next thread, own store thread → rely store next → own next thread)
    (kept : shared store ∧ own store thread ∧ rely pool.store store) :
    Holds shared own ⟨store, Function.update pool.threads index (some thread)⟩ := by
  obtain ⟨keptShared, keptOwn, allowed⟩ := kept
  refine ⟨keptShared, ?_⟩
  intro other current found
  dsimp only at found
  by_cases same : other = index
  · rw [same, Function.update_self, Option.some_inj] at found
    rw [← found]
    exact keptOwn
  · rw [Function.update_of_ne same] at found
    exact stable _ _ _ (holds.2 other current found) allowed

/-- The rule of rely and guarantee. -/
theorem holds_of_run (shared : Store → Prop) (own : Store → Thread → Prop)
    (rely : Store → Store → Prop)
    (stable : ∀ store next thread, own store thread → rely store next → own next thread)
    (arrives : ∀ store input next, shared store → program.arrives store input next →
      shared next ∧ rely store next)
    (starts : ∀ store next thread, shared store → program.starts store next thread →
      shared next ∧ own next thread ∧ rely store next)
    (acts : ∀ store thread action next following, shared store → own store thread →
      program.acts store thread action next following →
      shared next ∧ own next following ∧ rely store next)
    {initial : Store} {trace : List (Transition (Pool Store Thread) (PoolEvent Input Action))}
    {pool : Pool Store Thread} (run : Run program.Step (idle initial) trace pool)
    (holds : shared initial) : pool.Holds shared own := by
  refine run.preserves (Holds shared own) ?_ ⟨holds, by intro _ _ none; cases none⟩
  intro current event next stepped currentHolds
  cases stepped with
  | arrive arrived =>
      obtain ⟨kept, allowed⟩ := arrives _ _ _ currentHolds.1 arrived
      exact ⟨kept, fun index thread found => stable _ _ _ (currentHolds.2 index thread found) allowed⟩
  | start _ started => exact currentHolds.update stable (starts _ _ _ currentHolds.1 started)
  | act found acted =>
      exact currentHolds.update stable
        (acts _ _ _ _ _ currentHolds.1 (currentHolds.2 _ _ found) acted)

/-! ## How many threads are in a situation -/

/-- The threads that are in a situation, by their indices. -/
def within (situated : Thread → Bool) (threads : Nat → Option Thread) : Set Nat :=
  {index | ∃ thread, threads index = some thread ∧ situated thread = true}

/-- What one entry of the pool adds to the number of threads in a situation. -/
def counted (situated : Thread → Bool) (entry : Option Thread) : Nat :=
  entry.elim 0 fun thread => (situated thread).toNat

section Census

variable {situated : Thread → Bool} {threads : Nat → Option Thread} {index : Nat}

theorem within_idle (store : Store) :
    within situated (idle store : Pool Store Thread).threads = ∅ := by
  ext index
  simp [within, idle]

theorem counted_of_mem (member : index ∈ within situated threads) :
    counted situated (threads index) = 1 := by
  obtain ⟨thread, found, isSituated⟩ := member
  simp [counted, found, isSituated]

theorem counted_of_not_mem (outside : index ∉ within situated threads) :
    counted situated (threads index) = 0 := by
  cases found : threads index with
  | none => rfl
  | some thread =>
      have free : situated thread = false := by
        rw [← Bool.not_eq_true]
        intro isSituated
        exact outside ⟨thread, found, isSituated⟩
      simp [counted, free]

theorem ncard_within (finite : (within situated threads).Finite) (index : Nat) :
    (within situated threads).ncard =
      (within situated threads \ {index}).ncard + counted situated (threads index) := by
  by_cases member : index ∈ within situated threads
  · rw [counted_of_mem member, Set.ncard_sdiff_singleton_add_one member finite]
  · rw [counted_of_not_mem member, Set.sdiff_singleton_eq_self member, add_zero]

/-- A step of one thread moves that thread only. -/
theorem within_update (finite : (within situated threads).Finite) (index : Nat) (next : Thread) :
    (within situated (Function.update threads index (some next))).Finite ∧
      (within situated (Function.update threads index (some next))).ncard +
          counted situated (threads index) =
        (within situated threads).ncard + (situated next).toNat := by
  have others : within situated (Function.update threads index (some next)) \ {index} =
      within situated threads \ {index} := by
    ext other
    simp only [within, Set.mem_sdiff, Set.mem_ofPred_eq, Set.mem_singleton_iff]
    constructor
    · rintro ⟨⟨thread, found, isSituated⟩, different⟩
      rw [Function.update_of_ne different] at found
      exact ⟨⟨thread, found, isSituated⟩, different⟩
    · rintro ⟨⟨thread, found, isSituated⟩, different⟩
      exact ⟨⟨thread, by rwa [Function.update_of_ne different], isSituated⟩, different⟩
  have updated : (within situated (Function.update threads index (some next))).Finite := by
    refine (finite.insert index).subset ?_
    intro other member
    by_cases same : other = index
    · exact .inl same
    · exact .inr (others.subset ⟨member, same⟩).1
  have after := ncard_within updated index
  have before := ncard_within finite index
  rw [others, Function.update_self] at after
  refine ⟨updated, ?_⟩
  have last : counted situated (some next) = (situated next).toNat := rfl
  omega

end Census

end Pool

end Foundation
