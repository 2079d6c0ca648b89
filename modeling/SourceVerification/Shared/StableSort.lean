import Mathlib.Order.Lattice

set_option autoImplicit false

namespace StableSort

variable {Item : Type}

structure IsSort (le : Item → Item → Bool) (before after : List Item) : Prop where
  perm : after.Perm before
  ordered : after.Pairwise fun first second => le first second = true
  stable : ∀ first second, le first second = true → [first, second].Sublist before → [first, second].Sublist after

theorem isSort_mergeSort {le : Item → Item → Bool}
    (trans : ∀ first second third, le first second = true → le second third = true → le first third = true)
    (total : ∀ first second, (le first second || le second first) = true) (items : List Item) :
    IsSort le items (items.mergeSort le) where
  perm := List.mergeSort_perm items le
  ordered := List.pairwise_mergeSort trans total items
  stable _ _ ordered before := List.pair_sublist_mergeSort trans total ordered before

theorem isSort_mergeSort_key {Key : Type} [LinearOrder Key] (key : Item → Key) (items : List Item) :
    IsSort (fun first second => decide (key first ≤ key second)) items
      (items.mergeSort fun first second => decide (key first ≤ key second)) := by
  apply isSort_mergeSort
  next =>
    intro first second third left right
    exact decide_eq_true (le_trans (of_decide_eq_true left) (of_decide_eq_true right))
  next =>
    intro first second
    simpa using le_total (key first) (key second)

end StableSort
