set_option autoImplicit false

namespace Results

variable {Failure : Type}

theorem bind_eq_ok {A B : Type} {first : Except Failure A} {rest : A → Except Failure B} {answer : B} :
    (first >>= rest) = .ok answer ↔ ∃ value, first = .ok value ∧ rest value = .ok answer := by
  cases first <;> simp [bind, Except.bind]

theorem map_eq_ok {A B : Type} {first : Except Failure A} {change : A → B} {answer : B} :
    change <$> first = .ok answer ↔ ∃ value, first = .ok value ∧ change value = answer := by
  cases first <;> simp [Functor.map, Except.map]

theorem mapError_eq_ok {A Other : Type} {first : Except Failure A} {change : Failure → Other}
    {answer : A} : first.mapError change = .ok answer ↔ first = .ok answer := by
  cases first with
  | ok value => constructor <;> intro same <;> cases same <;> rfl
  | error failure => constructor <;> intro same <;> cases same

theorem mapM_ok {Row Answer Content : Type} {read : Row → Except Failure Answer} {rows : List Row}
    {answered : Answer → Content} {stored : Row → Content} {Good : Answer → Prop}
    (each : ∀ row ∈ rows, ∃ answer, read row = .ok answer ∧ answered answer = stored row ∧ Good answer) :
    ∃ answers, rows.mapM read = .ok answers ∧ answers.map answered = rows.map stored ∧
      ∀ answer ∈ answers, Good answer := by
  induction rows with
  | nil => exact ⟨[], rfl, rfl, by simp⟩
  | cons row rest ih =>
    obtain ⟨first, ran, same, good⟩ := each row (List.mem_cons_self ..)
    obtain ⟨answers, rest_ran, rest_same, rest_good⟩ :=
      ih fun other member => each other (List.mem_cons_of_mem _ member)
    refine ⟨first :: answers, ?_, by simp [same, rest_same], by simpa [good] using rest_good⟩
    rw [List.mapM_cons, ran, rest_ran]
    rfl

theorem bind_eq_error {A B : Type} {first : Except Failure A} {rest : A → Except Failure B}
    {failure : Failure} : (first >>= rest) = .error failure ↔
      first = .error failure ∨ ∃ value, first = .ok value ∧ rest value = .error failure := by
  cases first <;> simp [bind, Except.bind]

theorem map_eq_error {A B : Type} {first : Except Failure A} {change : A → B} {failure : Failure} :
    change <$> first = .error failure ↔ first = .error failure := by
  cases first <;> simp [Functor.map, Except.map]

theorem mapM_error {Row Answer : Type} {read : Row → Except Failure Answer} {rows : List Row}
    {failure : Failure} (failed : rows.mapM read = .error failure) :
    ∃ row ∈ rows, read row = .error failure := by
  induction rows with
  | nil => cases failed
  | cons row rest ih =>
    rw [List.mapM_cons] at failed
    rcases bind_eq_error.mp failed with first | ⟨answer, -, others⟩
    · exact ⟨row, List.mem_cons_self .., first⟩
    · rcases bind_eq_error.mp others with later | ⟨answers, -, done⟩
      · obtain ⟨other, member, stuck⟩ := ih later
        exact ⟨other, List.mem_cons_of_mem _ member, stuck⟩
      · cases done

end Results
