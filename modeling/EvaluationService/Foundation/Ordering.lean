import Mathlib.Data.List.Sort
import Mathlib.Order.OrderDual

/-!
Stable sorting by a measure. Items of equal measure keep the order in which
they were given; when no two measures are equal, the sorted list depends only on
which items there are.
-/

set_option autoImplicit false

namespace Foundation

variable {Item Measure : Type} [LinearOrder Measure]

/-- The items in nondecreasing order of their measure, ties in their given order. -/
def sortBy (measure : Item → Measure) (items : List Item) : List Item :=
  items.insertionSort fun left right => measure left ≤ measure right

def sortByDescending (measure : Item → Measure) (items : List Item) : List Item :=
  items.insertionSort fun left right => measure right ≤ measure left

section Laws

variable (measure : Item → Measure) (items : List Item)

theorem sortBy_perm : (sortBy measure items).Perm items :=
  List.perm_insertionSort _ items

theorem sortByDescending_perm : (sortByDescending measure items).Perm items :=
  List.perm_insertionSort _ items

theorem sortBy_pairwise :
    (sortBy measure items).Pairwise fun left right => measure left ≤ measure right := by
  have : Std.Total fun left right : Item => measure left ≤ measure right :=
    ⟨fun left right => le_total (measure left) (measure right)⟩
  have : IsTrans Item fun left right => measure left ≤ measure right :=
    ⟨fun _ _ _ => le_trans⟩
  exact List.pairwise_insertionSort _ items

theorem sortByDescending_pairwise :
    (sortByDescending measure items).Pairwise fun left right => measure right ≤ measure left :=
  sortBy_pairwise (fun item => OrderDual.toDual (measure item)) items

theorem head?_sortBy_eq_none_iff : (sortBy measure items).head? = none ↔ items = [] := by
  rw [List.head?_eq_none_iff]
  constructor
  · intro empty
    have permuted := sortBy_perm measure items
    rw [empty] at permuted
    exact permuted.nil_eq.symm
  · rintro rfl
    rfl

/-- Sorting the images of items by a measure sorts the items by the measure of their images. -/
theorem sortBy_map {Source : Type} (image : Source → Item) (sources : List Source) :
    sortBy measure (sources.map image) =
      (sortBy (fun source => measure (image source)) sources).map image :=
  (List.map_insertionSort _ _ image sources fun _ _ _ _ => Iff.rfl).symm

theorem sortByDescending_map {Source : Type} (image : Source → Item) (sources : List Source) :
    sortByDescending measure (sources.map image) =
      (sortByDescending (fun source => measure (image source)) sources).map image :=
  (List.map_insertionSort _ _ image sources fun _ _ _ _ => Iff.rfl).symm

end Laws

theorem head?_sortBy_eq_some {measure : Item → Measure} {items : List Item} {least : Item}
    (first : (sortBy measure items).head? = some least) :
    least ∈ items ∧ ∀ other ∈ items, measure least ≤ measure other := by
  obtain ⟨rest, sorted⟩ := List.head?_eq_some_iff.mp first
  have permuted := sortBy_perm measure items
  have ordered := sortBy_pairwise measure items
  rw [sorted] at permuted ordered
  refine ⟨permuted.mem_iff.mp (by simp), fun other member => ?_⟩
  rcases List.mem_cons.mp (permuted.mem_iff.mpr member) with rfl | later
  · exact le_refl _
  · exact (List.pairwise_cons.mp ordered).1 other later

/-- What a descending list leaves out of its first items is not above any of them. -/
theorem le_of_not_mem_take {measure : Item → Measure} {items : List Item} {limit : Nat}
    (ordered : items.Pairwise fun item other => measure other ≤ measure item) {item kept : Item}
    (member : item ∈ items) (leftOut : item ∉ items.take limit) (isKept : kept ∈ items.take limit) :
    measure item ≤ measure kept := by
  rw [← List.take_append_drop limit items] at member ordered
  rcases List.mem_append.mp member with taken | dropped
  · exact absurd taken leftOut
  · exact (List.pairwise_append.mp ordered).2.2 kept isKept item dropped

/-- Two descending lists of the same items are equal when the measure separates
their items. -/
theorem eq_of_perm_of_descending (measure : Item → Measure) {left right : List Item}
    (separates : ∀ item ∈ left, ∀ other ∈ right, measure item = measure other → item = other)
    (leftOrdered : left.Pairwise fun item other => measure other ≤ measure item)
    (rightOrdered : right.Pairwise fun item other => measure other ≤ measure item)
    (permuted : left.Perm right) : left = right := by
  refine permuted.eq_of_pairwise ?_ leftOrdered rightOrdered
  intro item other itemMember otherMember below above
  exact separates item itemMember other otherMember (le_antisymm above below)

end Foundation
