import Mathlib.Data.List.Basic
import Mathlib.Logic.Function.Basic

/-!
A store of cells under keys, in which every event reads and writes the cell of its own
key only. What an event answers depends on the earlier events of that key and on no
others.
-/

set_option autoImplicit false

namespace Foundation.Keyed

variable {Event Key Cell Output : Type} [DecidableEq Key]
variable (key : Event → Key) (touch : Cell → Event → Output × Cell)

def after (cells : Key → Cell) (event : Event) : Key → Cell :=
  Function.update cells (key event) (touch (cells (key event)) event).2

/-- The events with what each of them answers. -/
def log (cells : Key → Cell) : List Event → List (Event × Output)
  | [] => []
  | event :: rest => (event, (touch (cells (key event)) event).1) :: log (after key touch cells event) rest

variable {key touch}

theorem after_self (cells : Key → Cell) (event : Event) :
    after key touch cells event (key event) = (touch (cells (key event)) event).2 :=
  Function.update_self _ _ _

theorem after_of_ne (cells : Key → Cell) {event : Event} {other : Key} (apart : other ≠ key event) :
    after key touch cells event other = cells other :=
  Function.update_of_ne apart _ _

/-- Two stores that agree on the keys of the events keep agreeing on them. -/
theorem after_congr {cells others : Key → Cell} {event : Event} {wanted : Key}
    (same : cells (key event) = others (key event)) (agree : cells wanted = others wanted) :
    after key touch cells event wanted = after key touch others event wanted := by
  by_cases own : wanted = key event
  · rw [own, after_self, after_self, same]
  · rw [after_of_ne cells own, after_of_ne others own, agree]

theorem log_filter_of_agree {select : Event → Bool} {events : List Event}
    (apart : ∀ event ∈ events, ∀ other ∈ events, select event = true → select other = false →
      key event ≠ key other)
    {cells others : Key → Cell}
    (agree : ∀ event ∈ events, select event = true → cells (key event) = others (key event)) :
    (log key touch cells events).filter (select ·.1) = log key touch others (events.filter select) := by
  induction events generalizing cells others with
  | nil => rfl
  | cons event rest ih =>
      have restApart : ∀ later ∈ rest, ∀ other ∈ rest, select later = true →
          select other = false → key later ≠ key other :=
        fun later member other otherMember => apart later (.tail _ member) other (.tail _ otherMember)
      cases chosen : select event with
      | true =>
          have same := agree event (.head _) chosen
          simp only [log, List.filter_cons_of_pos, chosen, same]
          congr 1
          apply ih restApart
          intro later member laterChosen
          exact after_congr same (agree later (.tail _ member) laterChosen)
      | false =>
          simp only [log, List.filter_cons, chosen, Bool.false_eq_true, if_false]
          apply ih restApart
          intro later member laterChosen
          rw [after_of_ne cells (apart later (.tail _ member) event (.head _) laterChosen chosen)]
          exact agree later (.tail _ member) laterChosen

/-- Events whose keys no other event has are answered as if the others had not happened. -/
theorem log_filter (select : Event → Bool) (cells : Key → Cell) {events : List Event}
    (apart : ∀ event ∈ events, ∀ other ∈ events, select event = true → select other = false →
      key event ≠ key other) :
    (log key touch cells events).filter (select ·.1) = log key touch cells (events.filter select) :=
  log_filter_of_agree apart fun _ _ _ => rfl

end Foundation.Keyed
