import Mathlib.Data.List.Nodup

set_option autoImplicit false

namespace Tables

variable {Row Key : Type}

theorem nodup_append_row (key : Row → Key) {rows : List Row} {row : Row}
    (unique : (rows.map key).Nodup) (fresh : ∀ other ∈ rows, key other ≠ key row) :
    ((rows ++ [row]).map key).Nodup := by
  rw [List.map_append, List.nodup_append]
  refine ⟨unique, List.nodup_singleton _, ?_⟩
  intro a ha b hb
  obtain ⟨other, member, rfl⟩ := List.mem_map.mp ha
  obtain rfl : b = key row := by simpa using hb
  exact fresh other member

theorem nodup_filter (key : Row → Key) {rows : List Row} (keep : Row → Bool)
    (unique : (rows.map key).Nodup) : ((rows.filter keep).map key).Nodup :=
  unique.sublist (List.filter_sublist.map key)

theorem find?_key_eq_none {keep : Row → Prop} [DecidablePred keep] {rows : List Row} :
    rows.find? (fun row => keep row) = none ↔ ∀ row ∈ rows, ¬ keep row := by
  simp

theorem find?_key_eq_some {keep : Row → Prop} [DecidablePred keep] {rows : List Row} {row : Row}
    (found : rows.find? (fun row => keep row) = some row) : row ∈ rows ∧ keep row :=
  ⟨List.mem_of_find?_eq_some found, by simpa using List.find?_some found⟩

theorem find?_of_mem (key : Row → Key) [DecidableEq Key] {rows : List Row}
    (unique : (rows.map key).Nodup) {row : Row} (member : row ∈ rows) :
    rows.find? (fun other => key other = key row) = some row := by
  cases found : rows.find? (fun other => key other = key row) with
  | none => exact absurd rfl (find?_key_eq_none.mp found row member)
  | some other =>
    obtain ⟨inside, same⟩ := find?_key_eq_some found
    rw [List.inj_on_of_nodup_map unique inside member same]

theorem filter_key_eq (key : Row → Key) [DecidableEq Key] {rows : List Row}
    (unique : (rows.map key).Nodup) (wanted : Key) :
    rows.filter (key · = wanted) = (rows.find? (key · = wanted)).toList := by
  induction rows with
  | nil => rfl
  | cons row rest ih =>
    have ⟨alone, unique⟩ := List.nodup_cons.mp unique
    by_cases same : key row = wanted
    next =>
      have absent : rest.filter (key · = wanted) = [] := by
        simp only [List.filter_eq_nil_iff, decide_eq_true_eq]
        exact fun other member again =>
          alone (List.mem_map.mpr ⟨other, member, again.trans same.symm⟩)
      simp [same, absent]
    next => simpa [same] using ih unique

theorem filter_mem_filter [DecidableEq Row] (rows : List Row) (wanted : Row → Bool) :
    rows.filter (· ∈ rows.filter wanted) = rows.filter wanted :=
  List.filter_congr fun row member => by simp [List.mem_filter, member]

theorem filter_not_mem_filter [DecidableEq Row] (rows : List Row) (wanted : Row → Bool) :
    (rows.filter fun row => !decide (row ∈ rows.filter wanted)) = rows.filter fun row => !wanted row :=
  List.filter_congr fun row member => by simp [List.mem_filter, member]

theorem filter_key_mem [DecidableEq Key] (rows : List Row) (key : Row → Key) (wanted : Key → Bool) :
    rows.filter (key · ∈ (rows.filter (wanted <| key ·)).map key) = rows.filter (wanted <| key ·) := by
  refine List.filter_congr fun row member => ?_
  rw [Bool.eq_iff_iff, decide_eq_true_iff]
  constructor
  · intro listed
    obtain ⟨other, inside, same⟩ := List.mem_map.mp listed
    exact same ▸ (List.mem_filter.mp inside).2
  · exact fun is => List.mem_map_of_mem (List.mem_filter.mpr ⟨member, is⟩)

def FoundOrAppended (key : Row → Key) (old new : List Row) (row : Row) : Prop :=
  (new = old ∧ row ∈ old) ∨ (new = old ++ [row] ∧ ∀ other ∈ old, key other ≠ key row)

namespace FoundOrAppended

variable {key : Row → Key} {old new : List Row} {row : Row}

theorem mem (step : FoundOrAppended key old new row) : row ∈ new := by
  rcases step with ⟨rfl, member⟩ | ⟨rfl, _⟩
  · exact member
  · simp

theorem mem_iff (step : FoundOrAppended key old new row) (other : Row) :
    other ∈ new ↔ other ∈ old ∨ other = row := by
  rcases step with ⟨rfl, member⟩ | ⟨rfl, _⟩
  · constructor
    · exact .inl
    · rintro (old | rfl)
      · exact old
      · exact member
  · simp

theorem nodup (step : FoundOrAppended key old new row) (unique : (old.map key).Nodup) :
    (new.map key).Nodup := by
  rcases step with ⟨rfl, _⟩ | ⟨rfl, fresh⟩
  · exact unique
  · exact nodup_append_row key unique fresh

end FoundOrAppended

end Tables
