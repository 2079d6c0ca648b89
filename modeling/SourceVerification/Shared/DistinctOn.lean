import Mathlib.Data.List.Nodup

set_option autoImplicit false

namespace Tables

variable {Row Key : Type} [DecidableEq Key] (key : Row → Key)

def distinctOn : List Row → List Row
  | [] => []
  | row :: rest => row :: (distinctOn rest).filter (key · ≠ key row)

theorem distinctOn_sublist (rows : List Row) : (distinctOn key rows).Sublist rows := by
  induction rows with
  | nil => exact .slnil
  | cons row rest ih => exact (List.filter_sublist.trans ih).cons_cons row

theorem distinctOn_nodup (rows : List Row) : ((distinctOn key rows).map key).Nodup := by
  induction rows with
  | nil => exact List.nodup_nil
  | cons row rest ih =>
    have others : key row ∉ ((distinctOn key rest).filter (key · ≠ key row)).map key := by
      simp [List.mem_map, List.mem_filter]
    exact List.nodup_cons.mpr ⟨others, ih.sublist (List.filter_sublist.map key)⟩

theorem exists_distinctOn {before : Row → Row → Prop} {rows : List Row} (sorted : rows.Pairwise before)
    {row : Row} (member : row ∈ rows) :
    ∃ kept ∈ distinctOn key rows, key kept = key row ∧ (kept = row ∨ before kept row) := by
  induction rows with
  | nil => cases member
  | cons first rest ih =>
    obtain ⟨first_before, sorted⟩ := List.pairwise_cons.mp sorted
    rcases List.mem_cons.mp member with rfl | later
    · exact ⟨row, by simp [distinctOn], rfl, .inl rfl⟩
    · by_cases same : key row = key first
      · exact ⟨first, by simp [distinctOn], same.symm, .inr (first_before row later)⟩
      · obtain ⟨kept, inside, agrees, earlier⟩ := ih sorted later
        have different : key kept ≠ key first := agrees ▸ same
        exact ⟨kept, by simp [distinctOn, inside, different], agrees, earlier⟩

end Tables
