import Mathlib.Data.Multiset.AddSub
import Mathlib.Data.Prod.Lex
import Mathlib.Order.Bounds.Basic
import SourceVerification.Shared.Worklist

set_option autoImplicit false

namespace Worklist

variable {α L : Type}

structure Walk (α L : Type) where
  seen : Finset α
  work : Multiset α
  acc : L

inductive Walk.Moves [DecidableEq α] [SemilatticeSup L] [OrderTop L] (visit : α → Visit α L) :
    Walk α L → Walk α L → Prop
  | skip {seen : Finset α} {node : α} {rest : Multiset α} {acc : L} (old : node ∈ seen) :
      Moves visit ⟨seen, node ::ₘ rest, acc⟩ ⟨seen, rest, acc⟩
  | enter {seen : Finset α} {node : α} {rest : Multiset α} {acc : L} (fresh : node ∉ seen) :
      Moves visit ⟨seen, node ::ₘ rest, acc⟩
        ⟨insert node seen, (visit node).push + rest, acc ⊔ (visit node).label⟩
  -- Nothing can raise the accumulator any more.
  | stop {seen : Finset α} {work : Multiset α} (unfinished : work ≠ 0) :
      Moves visit ⟨seen, work, ⊤⟩ ⟨seen, 0, ⊤⟩

section

variable [DecidableEq α] [SemilatticeSup L] [OrderTop L] (visit : α → Visit α L)

def Walk.Leads : Walk α L → Walk α L → Prop :=
  Relation.ReflTransGen (Walk.Moves visit)

theorem Walk.moves_wellFounded [Fintype α] :
    WellFounded fun after before : Walk α L => Walk.Moves visit before after := by
  refine Subrelation.wf ?_ (InvImage.wf
    (fun walk : Walk α L => ((Finset.univ \ walk.seen).card, walk.work.card))
    (WellFounded.prod_lex Nat.lt_wfRel.wf Nat.lt_wfRel.wf))
  intro after before moves
  cases moves with
  | skip old => exact Prod.Lex.right _ (Multiset.card_lt_card (Multiset.lt_cons_self _ _))
  | enter fresh => exact Prod.Lex.left _ _ (unseen_card_lt _ _ fresh)
  | stop unfinished => exact Prod.Lex.right _ (Multiset.card_pos.mpr unfinished)

def bounds (root : α) (acc : L) : Set L :=
  {bound | acc ≤ bound ∧ ∀ node, Reaches visit root node → (visit node).label ≤ bound}

structure Walk.Sound (root : α) (start : L) (walk : Walk α L) : Prop where
  reachable : ∀ node, node ∈ walk.seen ∨ node ∈ walk.work → Reaches visit root node
  below : ∀ bound ∈ bounds visit root start, walk.acc ≤ bound
  covers : walk.acc = ⊤ ∨ start ≤ walk.acc ∧ (root ∈ walk.seen ∨ root ∈ walk.work) ∧
    (∀ node ∈ walk.seen, (visit node).label ≤ walk.acc) ∧
    ∀ node ∈ walk.seen, ∀ next ∈ (visit node).push, next ∈ walk.seen ∨ next ∈ walk.work

variable {visit}

omit [DecidableEq α] in
theorem Walk.Sound.start (root : α) (acc : L) : Walk.Sound visit root acc ⟨∅, {root}, acc⟩ where
  reachable node member := by
    obtain rfl : node = root := by simpa using member
    exact .refl
  below bound member := member.1
  covers := .inr ⟨le_refl acc, by simp, by simp, by simp⟩

theorem Walk.Sound.move {root : α} {start : L} {before after : Walk α L}
    (sound : Walk.Sound visit root start before) (moves : Walk.Moves visit before after) :
    Walk.Sound visit root start after := by
  cases moves with
  | @skip seen node rest acc old =>
    have moved {other : α} (member : other ∈ seen ∨ other ∈ node ::ₘ rest) :
        other ∈ seen ∨ other ∈ rest := by
      rcases member with here | here
      · exact .inl here
      · rcases Multiset.mem_cons.mp here with rfl | later
        · exact .inl old
        · exact .inr later
    refine ⟨fun other member => sound.reachable other (member.imp id Multiset.mem_cons_of_mem),
      sound.below, sound.covers.imp id ?_⟩
    rintro ⟨above, covered, labels, edges⟩
    exact ⟨above, moved covered, labels, fun other member next edge => moved (edges other member next edge)⟩
  | @enter seen node rest acc fresh =>
    have here : Reaches visit root node := sound.reachable node (.inr (Multiset.mem_cons_self node rest))
    have moved {other : α} (member : other ∈ seen ∨ other ∈ node ::ₘ rest) :
        other ∈ insert node seen ∨ other ∈ (visit node).push + rest := by
      rcases member with here | here
      · exact .inl (Finset.mem_insert_of_mem here)
      · rcases Multiset.mem_cons.mp here with rfl | later
        · exact .inl (Finset.mem_insert_self _ _)
        · exact .inr (Multiset.mem_add.mpr (.inr later))
    refine ⟨fun other member => ?_, fun bound member => ?_, ?_⟩
    · simp only [Finset.mem_insert, Multiset.mem_add, Multiset.mem_coe] at member
      rcases member with (rfl | seen) | pushed | later
      · exact here
      · exact sound.reachable other (.inl seen)
      · exact here.tail pushed
      · exact sound.reachable other (.inr (Multiset.mem_cons_of_mem later))
    · exact sup_le (sound.below bound member) (member.2 node here)
    · rcases sound.covers with top | ⟨above, covered, labels, edges⟩
      · exact .inl (top_le_iff.mp (top.ge.trans le_sup_left))
      · refine .inr ⟨above.trans le_sup_left, moved covered, ?_, ?_⟩
        · intro other member
          rcases Finset.mem_insert.mp member with rfl | old
          · exact le_sup_right
          · exact (labels other old).trans le_sup_left
        · intro other member next edge
          rcases Finset.mem_insert.mp member with rfl | old
          · exact .inr (Multiset.mem_add.mpr (.inl edge))
          · exact moved (edges other old next edge)
  | stop unfinished =>
    exact ⟨fun node member => sound.reachable node (member.imp id (by simp)), sound.below, .inl rfl⟩

theorem Walk.Sound.leads {root : α} {start : L} {before after : Walk α L}
    (sound : Walk.Sound visit root start before) (leads : Walk.Leads visit before after) :
    Walk.Sound visit root start after := by
  induction leads with
  | refl => exact sound
  | tail _ moves ih => exact ih.move moves

omit [DecidableEq α] in
theorem Walk.Sound.least {root : α} {start : L} {walk : Walk α L}
    (sound : Walk.Sound visit root start walk) (finished : walk.work = 0) :
    IsLeast (bounds visit root start) walk.acc := by
  refine ⟨?_, sound.below⟩
  rcases sound.covers with top | ⟨above, covered, labels, edges⟩
  · exact ⟨top ▸ le_top, fun node _ => top ▸ le_top⟩
  · simp only [finished, Multiset.notMem_zero, or_false] at covered edges
    refine ⟨above, fun node path => labels node ?_⟩
    induction path with
    | refl => exact covered
    | tail _ edge ih => exact edges _ ih _ edge

theorem Walk.ends_least {root : α} {start : L} {walk : Walk α L}
    (leads : Walk.Leads visit ⟨∅, {root}, start⟩ walk) (finished : walk.work = 0) :
    IsLeast (bounds visit root start) walk.acc :=
  ((Walk.Sound.start root start).leads leads).least finished

end

variable [Fintype α] [DecidableEq α] [SemilatticeSup L] [OrderTop L] [DecidableEq L]

theorem search_walks (visit : α → Visit α L) (seen : Finset α) (stack : List α) (acc : L) :
    ∃ met, Walk.Leads visit ⟨seen, stack, acc⟩ ⟨met, 0, search visit seen stack acc⟩ := by
  induction seen, stack, acc using search.induct visit with
  | case1 seen acc =>
    rw [search_nil]
    exact ⟨seen, .refl⟩
  | case2 seen acc node rest old ih =>
    rw [search, dif_pos old, ← Multiset.cons_coe]
    obtain ⟨met, leads⟩ := ih
    exact ⟨met, .head (.skip old) leads⟩
  | case3 seen acc node rest fresh joined stops =>
    rw [search, dif_neg fresh, if_pos stops, ← Multiset.cons_coe]
    have entered : Walk.Leads visit ⟨seen, node ::ₘ rest, acc⟩
        ⟨insert node seen, (visit node).push + rest, joined⟩ := .single (.enter fresh)
    refine ⟨insert node seen, entered.trans ?_⟩
    change Walk.Leads visit ⟨_, _, joined⟩ ⟨_, 0, joined⟩
    rw [stops.2]
    by_cases finished : ((visit node).push : Multiset α) + (rest : Multiset α) = 0
    · rw [finished]
      exact .refl
    · exact .single (.stop finished)
  | case4 seen acc node rest fresh joined continues ih =>
    rw [search_fresh fresh continues, ← Multiset.cons_coe]
    obtain ⟨met, leads⟩ := ih
    refine ⟨met, .head (.enter fresh) ?_⟩
    rwa [← Multiset.coe_add, Multiset.coe_reverse] at leads

end Worklist
