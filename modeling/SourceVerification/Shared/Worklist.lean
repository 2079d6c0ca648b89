import Mathlib.Data.Finset.Lattice.Basic
import Mathlib.Data.Fintype.Basic
import Mathlib.Data.Fintype.Card
import Mathlib.Logic.Relation
import Mathlib.Order.BoundedOrder.Lattice

set_option autoImplicit false

namespace Worklist

variable {α L : Type}

structure Visit (α L : Type) where
  label : L
  push : List α
  -- Whether the walk returns at this node once the accumulator is the top.
  returns : Bool

theorem unseen_card_lt [Fintype α] [DecidableEq α] (seen : Finset α) (node : α) (fresh : node ∉ seen) :
    (Finset.univ \ insert node seen).card < (Finset.univ \ seen).card := by
  apply Finset.card_lt_card
  rw [Finset.ssubset_iff_of_subset]
  · exact ⟨node, by simp [fresh], by simp⟩
  · intro other member
    simp only [Finset.mem_sdiff, Finset.mem_univ, Finset.mem_insert, true_and, not_or] at member ⊢
    exact member.2

def search [Fintype α] [DecidableEq α] [SemilatticeSup L] [OrderTop L] [DecidableEq L]
    (visit : α → Visit α L) (seen : Finset α) (stack : List α) (acc : L) : L :=
  match stack with
  | [] => acc
  | node :: rest =>
    if _old : node ∈ seen then
      search visit seen rest acc
    else
      let joined := acc ⊔ (visit node).label
      if (visit node).returns = true ∧ joined = ⊤ then
        joined
      else
        -- Pushed in order, so the last one pushed is popped first.
        search visit (insert node seen) ((visit node).push.reverse ++ rest) joined
termination_by ((Finset.univ \ seen).card, stack.length)
decreasing_by
  · exact Prod.Lex.right _ (by simp)
  · exact Prod.Lex.left _ _ (unseen_card_lt seen node _old)

def Reaches (visit : α → Visit α L) : α → α → Prop :=
  Relation.ReflTransGen fun a b => b ∈ (visit a).push

section Invariant

variable [SemilatticeSup L] {visit : α → Visit α L} {seen : Finset α} {acc : L}

structure Explored (visit : α → Visit α L) (seen : Finset α) (stack : List α) (acc : L) : Prop where
  edges : ∀ a ∈ seen, ∀ b ∈ (visit a).push, b ∈ seen ∨ b ∈ stack
  labels : ∀ a ∈ seen, (visit a).label ≤ acc

theorem Explored.skip {node : α} {rest : List α}
    (explored : Explored visit seen (node :: rest) acc) (old : node ∈ seen) :
    Explored visit seen rest acc where
  edges a member b edge := by
    rcases explored.edges a member b edge with here | here
    · exact .inl here
    · rcases List.mem_cons.mp here with rfl | later
      · exact .inl old
      · exact .inr later
  labels := explored.labels

theorem Explored.insert [DecidableEq α] {node : α} {rest : List α}
    (explored : Explored visit seen (node :: rest) acc) :
    Explored visit (insert node seen) ((visit node).push.reverse ++ rest)
      (acc ⊔ (visit node).label) where
  edges a member b edge := by
    simp only [Finset.mem_insert, List.mem_append, List.mem_reverse] at member ⊢
    rcases member with rfl | old
    · exact .inr (.inl edge)
    · rcases explored.edges a old b edge with here | here
      · exact .inl (.inr here)
      · rcases List.mem_cons.mp here with rfl | later
        · exact .inl (.inl rfl)
        · exact .inr (.inr later)
  labels a member := by
    rcases Finset.mem_insert.mp member with rfl | old
    · exact le_sup_right
    · exact le_sup_of_le_left (explored.labels a old)

theorem Explored.closed (explored : Explored visit seen [] acc) {a b : α} (member : a ∈ seen)
    (path : Reaches visit a b) : b ∈ seen := by
  induction path with
  | refl => exact member
  | tail _ edge ih => simpa using explored.edges _ ih _ edge

end Invariant

variable [Fintype α] [DecidableEq α] [SemilatticeSup L] [OrderTop L] [DecidableEq L]

theorem search_nil (visit : α → Visit α L) (seen : Finset α) (acc : L) :
    search visit seen [] acc = acc := by
  rw [search]

theorem search_fresh {visit : α → Visit α L} {seen : Finset α} {node : α} {rest : List α} {acc : L}
    (fresh : node ∉ seen) (continues : ¬ ((visit node).returns = true ∧ acc ⊔ (visit node).label = ⊤)) :
    search visit seen (node :: rest) acc =
      search visit (insert node seen) ((visit node).push.reverse ++ rest)
        (acc ⊔ (visit node).label) := by
  rw [search, dif_neg fresh, if_neg continues]

theorem label_le_search (visit : α → Visit α L) (seen : Finset α) (stack : List α) (acc : L)
    (explored : Explored visit seen stack acc) {a b : α} (start : a ∈ seen ∨ a ∈ stack)
    (path : Reaches visit a b) : (visit b).label ≤ search visit seen stack acc := by
  induction seen, stack, acc using search.induct visit with
  | case1 seen acc =>
    rw [search_nil]
    have member : a ∈ seen := by simpa using start
    exact explored.labels b (explored.closed member path)
  | case2 seen acc node rest old ih =>
    rw [search, dif_pos old]
    refine ih (explored.skip old) ?_
    rcases start with here | here
    · exact .inl here
    · rcases List.mem_cons.mp here with rfl | later
      · exact .inl old
      · exact .inr later
  | case3 seen acc node rest fresh joined stops =>
    rw [search, dif_neg fresh, if_pos stops]
    exact le_top.trans stops.2.ge
  | case4 seen acc node rest fresh joined continues ih =>
    rw [search_fresh fresh continues]
    refine ih explored.insert ?_
    simp only [Finset.mem_insert, List.mem_append]
    rcases start with here | here
    · exact .inl (.inr here)
    · rcases List.mem_cons.mp here with rfl | later
      · exact .inl (.inl rfl)
      · exact .inr (.inr later)

theorem label_le_search_root (visit : α → Visit α L) (root : α) (acc : L) {node : α}
    (path : Reaches visit root node) : (visit node).label ≤ search visit ∅ [root] acc :=
  label_le_search visit ∅ [root] acc ⟨by simp, by simp⟩ (.inr (by simp)) path

end Worklist
