import Mathlib.Data.List.Induction

set_option autoImplicit false

namespace Runs

variable {State Action : Type}

section

variable (step : State → Action → Option State) (allowed : State → Action → Prop) (initial : State)

inductive Run : List Action → State → Prop
  | nil : Run [] initial
  | snoc {actions : List Action} {before after : State} {action : Action} (run : Run actions before)
      (meets : allowed before action) (taken : step before action = some after) :
      Run (actions ++ [action]) after

def exec (permitted : State → Action → Bool) (state : State) : List Action → Option State
  | [] => some state
  | action :: rest =>
    if permitted state action then (step state action).bind fun next => exec permitted next rest
    else none

def Once (actions : List Action) (holds : State → Prop) : Prop :=
  ∃ earlier later state, actions = earlier ++ later ∧ Run step allowed initial earlier state ∧ holds state

end

variable {step : State → Action → Option State} {allowed : State → Action → Prop} {initial : State}

theorem Run.invariant {actions : List Action} {state : State}
    (run : Run step allowed initial actions state) (holds : List Action → State → Prop)
    (start : holds [] initial)
    (kept : ∀ actions before action after, Run step allowed initial actions before →
      holds actions before → allowed before action → step before action = some after →
      holds (actions ++ [action]) after) :
    holds actions state := by
  induction run with
  | nil => exact start
  | snoc run meets taken ih => exact kept _ _ _ _ run ih meets taken

theorem Run.always {actions : List Action} {state : State}
    (run : Run step allowed initial actions state) (holds : State → Prop) (start : holds initial)
    (kept : ∀ before action after, holds before → allowed before action →
      step before action = some after → holds after) : holds state := by
  induction run with
  | nil => exact start
  | snoc run meets taken ih => exact kept _ _ _ ih meets taken

theorem Run.strengthen {stronger : State → Action → Prop} {actions : List Action} {state : State}
    (run : Run step allowed initial actions state) (holds : State → Prop) (start : holds initial)
    (kept : ∀ before action after, holds before → allowed before action →
      step before action = some after → holds after)
    (meets : ∀ before action, holds before → allowed before action → stronger before action) :
    Run step stronger initial actions state := by
  have both : Run step stronger initial actions state ∧ holds state := by
    induction run with
    | nil => exact ⟨.nil, start⟩
    | snoc run allows taken ih =>
      obtain ⟨reached, held⟩ := ih
      exact ⟨reached.snoc (meets _ _ held allows) taken, kept _ _ _ held allows taken⟩
  exact both.1

theorem Run.last {actions : List Action} {action : Action} {after : State}
    (run : Run step allowed initial (actions ++ [action]) after) :
    ∃ before, Run step allowed initial actions before ∧ allowed before action ∧
      step before action = some after := by
  generalize same : actions ++ [action] = all at run
  cases run with
  | nil => simp at same
  | snoc run meets taken =>
    obtain ⟨rfl, rfl⟩ := List.concat_inj.mp (by simpa using same)
    exact ⟨_, run, meets, taken⟩

theorem Run.functional {actions : List Action} {state other : State}
    (run : Run step allowed initial actions state) (again : Run step allowed initial actions other) :
    state = other := by
  induction run generalizing other with
  | nil =>
    generalize same : ([] : List Action) = all at again
    cases again with
    | nil => rfl
    | snoc => simp at same
  | snoc run meets taken ih =>
    obtain ⟨before, reached, -, took⟩ := again.last
    obtain rfl := ih reached
    exact Option.some.inj (taken.symm.trans took)

theorem Run.upTo {earlier later : List Action} {final : State}
    (run : Run step allowed initial (earlier ++ later) final) : ∃ middle, Run step allowed initial earlier middle := by
  induction later using List.reverseRecOn generalizing final with
  | nil => exact ⟨final, by simpa using run⟩
  | append_singleton later action ih =>
    rw [← List.append_assoc] at run
    obtain ⟨before, run, -, -⟩ := run.last
    exact ih run

theorem Run.onwards {earlier later : List Action} {middle final : State}
    (run : Run step allowed initial (earlier ++ later) final)
    (reached : Run step allowed initial earlier middle) (holds : State → Prop) (now : holds middle)
    (kept : ∀ before action after, holds before → allowed before action →
      step before action = some after → holds after) : holds final := by
  induction later using List.reverseRecOn generalizing final with
  | nil =>
    rw [List.append_nil] at run
    exact run.functional reached ▸ now
  | append_singleton later action ih =>
    rw [← List.append_assoc] at run
    obtain ⟨before, run, meets, taken⟩ := run.last
    exact kept before action final (ih run) meets taken

theorem Run.append {stricter : State → Action → Prop} {earlier later : List Action} {middle final : State}
    (run : Run step allowed initial earlier middle) (more : Run step stricter middle later final)
    (meets : ∀ state action, stricter state action → allowed state action) :
    Run step allowed initial (earlier ++ later) final := by
  induction more with
  | nil => simpa using run
  | snoc more allows taken ih =>
    rw [← List.append_assoc]
    exact ih.snoc (meets _ _ allows) taken

theorem Run.countP_le {actions : List Action} {state : State} (run : Run step allowed initial actions state)
    (measure : State → Nat) (kind : Action → Bool)
    (falls : ∀ actions before action after, Run step allowed initial actions before → allowed before action →
      step before action = some after → measure after + (kind action).toNat ≤ measure before) :
    measure state + actions.countP kind ≤ measure initial := by
  induction run with
  | nil => simp
  | @snoc actions before after action run meets taken ih =>
    have fell := falls actions before action after run meets taken
    rw [List.countP_append]
    cases counts : kind action with
    | false => simp [counts] at fell ⊢; omega
    | true => simp [counts] at fell ⊢; omega

theorem Run.append_exec {permitted : State → Action → Bool} {actions : List Action}
    {before after : State} (sound : ∀ state action, permitted state action = true → allowed state action)
    (run : Run step allowed initial actions before) (rest : List Action)
    (ran : exec step permitted before rest = some after) :
    Run step allowed initial (actions ++ rest) after := by
  induction rest generalizing actions before with
  | nil =>
    obtain rfl := Option.some.inj ran
    simpa using run
  | cons action rest ih =>
    simp only [exec, Option.ite_none_right_eq_some, Option.bind_eq_some_iff] at ran
    obtain ⟨meets, next, taken, ran⟩ := ran
    simpa using ih (run.snoc (sound before action meets) taken) ran

theorem exists_run_of_exec {permitted : State → Action → Bool} {actions : List Action}
    {shows : State → Bool} (sound : ∀ state action, permitted state action = true → allowed state action)
    (ran : (exec step permitted initial actions).any shows = true) :
    ∃ state, Run step allowed initial actions state ∧ shows state = true := by
  obtain ⟨state, reached, shown⟩ := (Option.any_eq_true _ _).mp ran
  exact ⟨state, by simpa using Run.nil.append_exec sound actions reached, shown⟩

theorem Once.now {actions : List Action} {state : State} {holds : State → Prop}
    (run : Run step allowed initial actions state) (here : holds state) :
    Once step allowed initial actions holds :=
  ⟨actions, [], state, by simp, run, here⟩

theorem Once.later {actions : List Action} {holds : State → Prop}
    (once : Once step allowed initial actions holds) (action : Action) :
    Once step allowed initial (actions ++ [action]) holds := by
  obtain ⟨earlier, later, state, same, run, held⟩ := once
  exact ⟨earlier, later ++ [action], state, by simp [same], run, held⟩

end Runs
