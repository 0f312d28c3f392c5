import Mathlib.Data.List.Basic
import Mathlib.Data.List.Forall2

/-!
Finite runs of a labelled transition relation. A run keeps the source and the
target of every step it took, so that statements about a whole history need no
second record of the states passed through.
-/

set_option autoImplicit false

namespace Foundation

/-- One step taken by a run, with the states on both sides of it. -/
structure Transition (State Event : Type) where
  source : State
  event : Event
  target : State

/-- `Run step start trace finish`: the steps of `trace` lead from `start` to `finish`. -/
inductive Run {State Event : Type} (step : State → Event → State → Prop) (start : State) :
    List (Transition State Event) → State → Prop where
  | nil : Run step start [] start
  | snoc {trace : List (Transition State Event)} {state next : State} {event : Event} :
      Run step start trace state → step state event next →
      Run step start (trace ++ [⟨state, event, next⟩]) next

namespace Run

variable {State Event : Type} {step : State → Event → State → Prop}
variable {start middle finish : State} {trace rest : List (Transition State Event)}

theorem single {event : Event} (taken : step start event finish) :
    Run step start [⟨start, event, finish⟩] finish :=
  .snoc .nil taken

theorem append (first : Run step start trace middle) (last : Run step middle rest finish) :
    Run step start (trace ++ rest) finish := by
  induction last with
  | nil => simpa using first
  | snoc _ taken ih =>
      rw [← List.append_assoc]
      exact .snoc ih taken

theorem around {taken : Transition State Event}
    (run : Run step start (trace ++ taken :: rest) finish) :
    Run step start trace taken.source ∧ step taken.source taken.event taken.target ∧
      Run step taken.target rest finish := by
  generalize joined : trace ++ taken :: rest = whole at run
  induction run generalizing rest with
  | nil => simp at joined
  | @snoc before state next event prior stepped ih =>
      rcases List.eq_nil_or_concat rest with rfl | ⟨front, last, rfl⟩
      · obtain ⟨shorter, same⟩ := List.append_inj' joined rfl
        have taken_eq : taken = ⟨state, event, next⟩ := by simpa using same
        subst shorter taken_eq
        exact ⟨prior, stepped, .nil⟩
      · rw [List.concat_eq_append, ← List.cons_append, ← List.append_assoc] at joined
        obtain ⟨shorter, same⟩ := List.append_inj' joined rfl
        obtain ⟨reached, first, remaining⟩ := ih shorter
        rw [List.concat_eq_append, same]
        exact ⟨reached, first, .snoc remaining stepped⟩

theorem eq_of_nil (run : Run step start [] finish) : finish = start := by
  generalize none : [] = trace at run
  cases run with
  | nil => rfl
  | snoc _ _ => simp at none

/-- Two runs over the same inputs stay related, and their events agree pairwise, when
every pair of steps on one input keeps them so. -/
theorem lockstep {Other OtherEvent Input : Type} {otherStep : Other → OtherEvent → Other → Prop}
    {otherStart otherFinish : Other} {otherTrace : List (Transition Other OtherEvent)}
    (input : Event → Input) (otherInput : OtherEvent → Input) {valid : List Input → Prop}
    (related : List Input → State → Other → Prop) (agrees : Event → OtherEvent → Prop)
    (shorter : ∀ inputs last, valid (inputs ++ [last]) → valid inputs)
    (initial : related [] start otherStart)
    (simulates : ∀ inputs state other event otherEvent next otherNext,
      related inputs state other → input event = otherInput otherEvent →
      valid (inputs ++ [input event]) → step state event next →
      otherStep other otherEvent otherNext →
      agrees event otherEvent ∧ related (inputs ++ [input event]) next otherNext)
    (run : Run step start trace finish) (otherRun : Run otherStep otherStart otherTrace otherFinish)
    (same : trace.map (input ·.event) = otherTrace.map (otherInput ·.event))
    (allowed : valid (trace.map (input ·.event))) :
    List.Forall₂ (fun taken other => agrees taken.event other.event) trace otherTrace ∧
      related (trace.map (input ·.event)) finish otherFinish := by
  induction run generalizing otherTrace otherFinish with
  | nil =>
      obtain rfl : otherTrace = [] := by simpa using same.symm
      obtain rfl := otherRun.eq_of_nil
      exact ⟨.nil, initial⟩
  | @snoc earlier state next event prior taken ih =>
      rw [List.map_append] at same allowed ⊢
      obtain ⟨otherEarlier, lasts, rfl, otherSame, lastSame⟩ := List.map_eq_append_iff.mp same.symm
      obtain ⟨last, rfl, inputSame⟩ :
          ∃ last, lasts = [last] ∧ otherInput last.event = input event := by
        simpa [List.map_eq_singleton_iff] using lastSame
      obtain ⟨otherPrior, otherTaken, rest⟩ := otherRun.around
      obtain rfl := rest.eq_of_nil
      obtain ⟨agreed, kept⟩ := ih otherPrior otherSame.symm (shorter _ _ allowed)
      obtain ⟨lastAgrees, keptLast⟩ :=
        simulates _ _ _ _ _ _ _ kept inputSame.symm allowed taken otherTaken
      exact ⟨List.rel_append agreed (.cons lastAgrees .nil), keptLast⟩

/-- What every allowed step preserves, every run of allowed steps preserves. -/
theorem preserves_along (invariant : State → Prop) (allowed : Transition State Event → Prop)
    (stable : ∀ state event next, step state event next → allowed ⟨state, event, next⟩ →
      invariant state → invariant next)
    (run : Run step start trace finish) (initial : invariant start)
    (each : ∀ taken ∈ trace, allowed taken) : invariant finish := by
  induction run with
  | nil => exact initial
  | @snoc earlier state next event _ taken ih =>
      have before := ih fun other member => each other (List.mem_append_left _ member)
      have last := each ⟨state, event, next⟩ (List.mem_append_right _ (List.mem_singleton_self _))
      exact stable _ _ _ taken last before

theorem preserves (invariant : State → Prop)
    (stable : ∀ state event next, step state event next → invariant state → invariant next)
    (run : Run step start trace finish) (initial : invariant start) : invariant finish :=
  run.preserves_along invariant (fun _ => True)
    (fun state event next taken _ => stable state event next taken) initial fun _ _ => trivial

theorem step_of_mem (run : Run step start trace finish)
    {taken : Transition State Event} (member : taken ∈ trace) :
    step taken.source taken.event taken.target := by
  obtain ⟨before, after, rfl⟩ := List.append_of_mem member
  exact run.around.2.1

theorem mono {coarse : State → Event → State → Prop}
    (refines : ∀ state event next, step state event next → coarse state event next)
    (run : Run step start trace finish) : Run coarse start trace finish := by
  induction run with
  | nil => exact .nil
  | snoc _ taken ih => exact .snoc ih (refines _ _ _ taken)

/-- A run whose steps are steps of an abstract relation, or nothing, in the view of it, is a
run of that relation. -/
theorem abstracts {Abstract AbstractEvent : Type}
    {abstractStep : Abstract → AbstractEvent → Abstract → Prop} (view : State → Abstract)
    (maps : ∀ state event next, step state event next →
      view next = view state ∨ ∃ seen, abstractStep (view state) seen (view next))
    (run : Run step start trace finish) :
    ∃ seen, Run abstractStep (view start) seen (view finish) := by
  induction run with
  | nil => exact ⟨[], .nil⟩
  | snoc _ taken ih =>
      obtain ⟨seen, earlier⟩ := ih
      rcases maps _ _ _ taken with same | ⟨event, stepped⟩
      · rw [same]
        exact ⟨seen, earlier⟩
      · exact ⟨_, .snoc earlier stepped⟩

/-- Steps that keep an invariant and lower a measure cannot go on for ever. -/
theorem not_infinite {Measure : Type} {below : Measure → Measure → Prop}
    (founded : WellFounded below) (measure : State → Measure) (invariant : State → Prop)
    (lowers : ∀ state event next, invariant state → step state event next →
      invariant next ∧ below (measure next) (measure state))
    (states : Nat → State) (initial : invariant (states 0)) :
    ¬ ∀ index, ∃ event, step (states index) event (states (index + 1)) := by
  intro steps
  have kept : ∀ index, invariant (states index) := by
    intro index
    induction index with
    | zero => exact initial
    | succ index ih =>
        obtain ⟨event, stepped⟩ := steps index
        exact (lowers _ _ _ ih stepped).1
  have none : ∀ value index, measure (states index) ≠ value := by
    intro value
    induction value using founded.induction with
    | _ value ih =>
        intro index same
        obtain ⟨event, stepped⟩ := steps index
        have lower := (lowers _ _ _ (kept index) stepped).2
        exact ih _ (same ▸ lower) (index + 1) rfl
  exact none _ 0 rfl

section Visited

variable {passed : List (Transition State Event)}

/-- The states of a run in their order, and its last one for ever after. -/
def visited (passed : List (Transition State Event)) (finish : State) (index : Nat) : State :=
  (passed[index]?.map (·.source)).getD finish

theorem visited_zero (run : Run step start passed finish) : visited passed finish 0 = start := by
  cases passed with
  | nil => exact run.eq_of_nil
  | cons first rest => exact (@around _ _ step start finish [] rest first run).1.eq_of_nil

theorem visited_step (run : Run step start passed finish) {index : Nat}
    (inside : index < passed.length) :
    ∃ taken ∈ passed,
      step (visited passed finish index) taken.event (visited passed finish (index + 1)) := by
  have split : passed = passed.take index ++ passed[index] :: passed.drop (index + 1) := by
    rw [← List.drop_eq_getElem_cons inside, List.take_append_drop]
  have source : visited passed finish index = passed[index].source := by
    simp [visited, List.getElem?_eq_getElem inside]
  have rest := run
  rw [split] at rest
  obtain ⟨-, stepped, rest⟩ := rest.around
  have target : visited passed finish (index + 1) = passed[index].target := by
    rw [← rest.visited_zero, visited, visited, List.getElem?_drop, Nat.add_zero]
  rw [source, target]
  exact ⟨passed[index], List.getElem_mem inside, stepped⟩

end Visited

end Run

end Foundation
