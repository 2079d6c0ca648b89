import SourceVerification.Shared.Runs

set_option autoImplicit false

namespace SingleFlight

open Runs

variable {Printed Failure Value : Type}

structure State (Failure Value : Type) where
  -- What became of each read started so far, none while it is out.
  reads : List (Option (Except Failure Value))
  shared : Option Nat

def State.initial : State Failure Value := ⟨[], none⟩

inductive Event (Printed : Type)
  | asks
  | ends (read : Nat) (printed : Printed)

def State.answering (state : State Failure Value) : Nat :=
  state.shared.getD state.reads.length

def State.asked (state : State Failure Value) : State Failure Value :=
  match state.shared with
  | some _ => state
  | none => ⟨state.reads ++ [none], some state.reads.length⟩

def State.ended (state : State Failure Value) (read : Nat) (outcome : Except Failure Value) : State Failure Value where
  reads := state.reads.set read (some outcome)
  shared :=
    match outcome with
    | .ok _ => state.shared
    | .error _ => none

section

variable (settle : Printed → Except Failure Value)

def step (state : State Failure Value) : Event Printed → Option (State Failure Value)
  | .asks => some state.asked
  | .ends read printed =>
    match state.reads[read]? with
    | some none => some (state.ended read (settle printed))
    | _ => none

def Event.fails : Event Printed → Bool
  | .asks => false
  | .ends _ printed => !(settle printed).isOk

def failures (events : List (Event Printed)) : Nat :=
  events.countP (Event.fails settle)

end

variable {settle : Printed → Except Failure Value}

theorem step_ends {state after : State Failure Value} {read : Nat} {printed : Printed}
    (taken : step settle state (.ends read printed) = some after) :
    state.reads[read]? = some none ∧ after = state.ended read (settle printed) := by
  cases found : state.reads[read]? with
  | none => simp [step, found] at taken
  | some outcome =>
    cases outcome with
    | none => exact ⟨rfl, by simpa [step, found] using taken.symm⟩
    | some settled => simp [step, found] at taken

structure Single (state : State Failure Value) : Prop where
  out : ∀ read, state.reads[read]? = some none → state.shared = some read
  kept : ∀ read value, state.reads[read]? = some (some (.ok value)) → state.shared = some read
  good : ∀ read, state.shared = some read →
    ∃ found, state.reads[read]? = some found ∧ ∀ failure, found ≠ some (.error failure)

theorem Single.initial : Single (State.initial : State Failure Value) where
  out _ found := by simp [State.initial] at found
  kept _ _ found := by simp [State.initial] at found
  good _ shared := by cases shared

theorem Single.asked {state : State Failure Value} (single : Single state) : Single state.asked := by
  unfold State.asked
  cases shared : state.shared with
  | some read => exact single
  | none =>
    constructor
    case out =>
      intro read out
      by_cases old : read < state.reads.length
      next =>
        rw [List.getElem?_append_left old] at out
        exact absurd (single.out read out) (by simp [shared])
      next =>
        have bound := (List.getElem?_eq_some_iff.mp out).1
        simp only [List.length_append, List.length_singleton] at bound
        exact congrArg some (by omega)
    case kept =>
      intro read value found
      by_cases old : read < state.reads.length
      next =>
        rw [List.getElem?_append_left old] at found
        exact absurd (single.kept read value found) (by simp [shared])
      next =>
        have bound := (List.getElem?_eq_some_iff.mp found).1
        simp only [List.length_append, List.length_singleton] at bound
        exact congrArg some (by omega)
    case good =>
      intro read same
      obtain rfl := Option.some.inj same
      exact ⟨none, by simp, nofun⟩

theorem Single.ended {state : State Failure Value} (single : Single state) {read : Nat}
    (out : state.reads[read]? = some none) (outcome : Except Failure Value) : Single (state.ended read outcome) := by
  have shared := single.out read out
  have bound := (List.getElem?_eq_some_iff.mp out).1
  have others : ∀ other, other ≠ read → ∀ found, (state.ended read outcome).reads[other]? = some found →
      ∃ failure, found = some (.error failure) := by
    intro other different found there
    have before : state.reads[other]? = some found := by
      simpa [State.ended, List.getElem?_set_ne different.symm] using there
    match found with
    | none => exact absurd (shared.symm.trans (single.out other before)) (by simpa using different.symm)
    | some (.ok value) =>
      exact absurd (shared.symm.trans (single.kept other value before)) (by simpa using different.symm)
    | some (.error failure) => exact ⟨failure, rfl⟩
  have now : (state.ended read outcome).reads[read]? = some (some outcome) := by
    simp [State.ended, List.getElem?_set_self bound]
  constructor
  case out =>
    intro other still
    by_cases same : other = read
    next =>
      subst same
      cases now.symm.trans still
    next =>
      obtain ⟨failure, bad⟩ := others other same none still
      cases bad
  case kept =>
    intro other value found
    by_cases same : other = read
    next =>
      subst same
      cases now.symm.trans found
      exact shared
    next =>
      obtain ⟨failure, bad⟩ := others other same _ found
      cases bad
  case good =>
    intro other keeps
    cases outcome with
    | error failure => cases keeps
    | ok value =>
      obtain rfl : read = other := Option.some.inj (shared.symm.trans keeps)
      exact ⟨_, now, nofun⟩

theorem Single.stepped {state after : State Failure Value} {event : Event Printed} (single : Single state)
    (taken : step settle state event = some after) : Single after := by
  cases event with
  | asks =>
    obtain rfl := Option.some.inj taken
    exact single.asked
  | ends read printed =>
    obtain ⟨out, rfl⟩ := step_ends taken
    exact single.ended out _

theorem run_single {events : List (Event Printed)} {state : State Failure Value}
    (run : Run (step settle) (fun _ _ => True) .initial events state) : Single state :=
  run.always Single .initial fun _ _ _ single _ taken => single.stepped taken

theorem Single.one_out {state : State Failure Value} (single : Single state) {read other : Nat}
    (out : state.reads[read]? = some none) (also : state.reads[other]? = some none) : read = other :=
  Option.some.inj ((single.out read out).symm.trans (single.out other also))

theorem Single.settled {state after : State Failure Value} {event : Event Printed} (single : Single state) {read : Nat}
    {value : Value} (kept : state.reads[read]? = some (some (.ok value)))
    (taken : step settle state event = some after) : after = state := by
  have shared := single.kept read value kept
  cases event with
  | asks =>
    obtain rfl := Option.some.inj taken
    simp [State.asked, shared]
  | ends other printed =>
    obtain ⟨out, -⟩ := step_ends taken
    obtain rfl := Option.some.inj (shared.symm.trans (single.out other out))
    cases out.symm.trans kept

theorem run_length {events : List (Event Printed)} {state : State Failure Value}
    (run : Run (step settle) (fun _ _ => True) .initial events state) :
    state.reads.length = failures settle events + state.shared.isSome.toNat := by
  refine run.invariant (fun events state => state.reads.length = failures settle events + state.shared.isSome.toNat)
    rfl ?_
  intro events before event after ran counted _ taken
  have more : failures settle (events ++ [event]) = failures settle events + (event.fails settle).toNat := by
    rw [failures, List.countP_append]
    cases failed : event.fails settle with
    | false => simp [failures, failed]
    | true => simp [failures, failed]
  rw [more]
  cases event with
  | asks =>
    obtain rfl := Option.some.inj taken
    unfold State.asked
    cases shared : before.shared with
    | some read => simpa [shared, Event.fails] using counted
    | none => simpa [shared, Event.fails] using counted
  | ends read printed =>
    obtain ⟨out, rfl⟩ := step_ends taken
    have shared := (run_single ran).out read out
    rw [shared] at counted
    cases settled : settle printed with
    | ok value => simpa [State.ended, Event.fails, settled, shared, Except.isOk, Except.toBool] using counted
    | error failure => simpa [State.ended, Event.fails, settled, Except.isOk, Except.toBool] using counted

theorem step_settled {state after : State Failure Value} {event : Event Printed} {read : Nat}
    {outcome : Except Failure Value} (settled : state.reads[read]? = some (some outcome))
    (taken : step settle state event = some after) : after.reads[read]? = some (some outcome) := by
  cases event with
  | asks =>
    obtain rfl := Option.some.inj taken
    unfold State.asked
    cases state.shared with
    | some _ => exact settled
    | none =>
      rw [List.getElem?_append_left (List.getElem?_eq_some_iff.mp settled).1]
      exact settled
  | ends other printed =>
    obtain ⟨out, rfl⟩ := step_ends taken
    have different : other ≠ read := by
      rintro rfl
      cases out.symm.trans settled
    simpa [State.ended, List.getElem?_set_ne different] using settled

theorem step_grows {state after : State Failure Value} {event : Event Printed}
    (taken : step settle state event = some after) : state.reads.length ≤ after.reads.length := by
  cases event with
  | asks =>
    obtain rfl := Option.some.inj taken
    unfold State.asked
    cases state.shared with
    | some _ => exact Nat.le_refl _
    | none => simp
  | ends read printed =>
    obtain ⟨-, rfl⟩ := step_ends taken
    simp [State.ended]

theorem ended_since {earlier later : List (Event Printed)} {middle state : State Failure Value}
    (run : Run (step settle) (fun _ _ => True) .initial (earlier ++ later) state)
    (reached : Run (step settle) (fun _ _ => True) .initial earlier middle) {read : Nat}
    (unsettled : ∀ outcome, middle.reads[read]? ≠ some (some outcome)) {outcome : Except Failure Value}
    (settled : state.reads[read]? = some (some outcome)) :
    ∃ printed, .ends read printed ∈ later ∧ settle printed = outcome := by
  induction later using List.reverseRecOn generalizing state outcome with
  | nil =>
    rw [List.append_nil] at run
    exact absurd (run.functional reached ▸ settled) (unsettled outcome)
  | append_singleton later event ih =>
    rw [← List.append_assoc] at run
    obtain ⟨before, ran, -, taken⟩ := run.last
    cases event with
    | asks =>
      obtain rfl := Option.some.inj taken
      have already : before.reads[read]? = some (some outcome) := by
        unfold State.asked at settled
        cases shared : before.shared with
        | some _ => simpa [shared] using settled
        | none =>
          rw [shared] at settled
          by_cases old : read < before.reads.length
          next => rwa [List.getElem?_append_left old] at settled
          next =>
            rw [List.getElem?_append_right (by omega)] at settled
            have fresh := List.mem_of_getElem? settled
            simp at fresh
      obtain ⟨printed, member, same⟩ := ih ran already
      exact ⟨printed, List.mem_append_left _ member, same⟩
    | ends other printed =>
      obtain ⟨out, rfl⟩ := step_ends taken
      by_cases same : other = read
      next =>
        subst same
        have bound := (List.getElem?_eq_some_iff.mp out).1
        have now : some (some (settle printed)) = some (some outcome) :=
          (List.getElem?_set_self bound).symm.trans settled
        exact ⟨printed, by simp, Option.some.inj (Option.some.inj now)⟩
      next =>
        obtain ⟨printed, member, same⟩ := ih ran ((List.getElem?_set_ne same).symm.trans settled)
        exact ⟨printed, List.mem_append_left _ member, same⟩

theorem run_ended {events : List (Event Printed)} {state : State Failure Value}
    (run : Run (step settle) (fun _ _ => True) .initial events state) {read : Nat} {outcome : Except Failure Value}
    (settled : state.reads[read]? = some (some outcome)) :
    ∃ printed, .ends read printed ∈ events ∧ settle printed = outcome := by
  have whole : Run (step settle) (fun _ _ => True) .initial ([] ++ events) state := run
  exact ended_since whole .nil (by simp [State.initial]) settled

inductive Answered (settle : Printed → Except Failure Value) (events later : List (Event Printed))
    (state : State Failure Value) (read : Nat) : Prop
  | waits (out : state.reads[read]? = some none) (shared : state.shared = some read)
  | succeeded (printed : Printed) (value : Value) (ended : .ends read printed ∈ events)
      (settled : settle printed = .ok value) (found : state.reads[read]? = some (some (.ok value)))
      (shared : state.shared = some read)
  | failed (printed : Printed) (failure : Failure) (ended : .ends read printed ∈ later)
      (settled : settle printed = .error failure) (found : state.reads[read]? = some (some (.error failure)))

theorem State.asked_shared (state : State Failure Value) : state.asked.shared = some state.answering := by
  unfold State.asked State.answering
  cases shared : state.shared with
  | some read => simpa using shared
  | none => rfl

theorem run_answered {earlier later : List (Event Printed)} {state : State Failure Value}
    (run : Run (step settle) (fun _ _ => True) .initial (earlier ++ .asks :: later) state) :
    ∃ before, Run (step settle) (fun _ _ => True) .initial earlier before ∧
      Answered settle (earlier ++ .asks :: later) later state before.answering := by
  have whole : Run (step settle) (fun _ _ => True) .initial ((earlier ++ [.asks]) ++ later) state := by
    simpa using run
  obtain ⟨middle, reached⟩ := whole.upTo
  obtain ⟨before, ran, -, taken⟩ := reached.last
  obtain rfl := Option.some.inj taken
  refine ⟨before, ran, ?_⟩
  have single := run_single run
  obtain ⟨found, there, good⟩ := (run_single reached).good _ before.asked_shared
  have bound : before.answering < state.reads.length :=
    whole.onwards reached (fun state => before.answering < state.reads.length) (List.getElem?_eq_some_iff.mp there).1
      fun _ _ _ bound _ taken => Nat.lt_of_lt_of_le bound (step_grows taken)
  obtain ⟨outcome, ends⟩ : ∃ outcome, state.reads[before.answering]? = some outcome :=
    ⟨_, List.getElem?_eq_getElem bound⟩
  match outcome with
  | none => exact .waits ends (single.out _ ends)
  | some (.ok value) =>
    obtain ⟨printed, member, settled⟩ := run_ended run ends
    exact .succeeded printed value member settled ends (single.kept _ _ ends)
  | some (.error failure) =>
    -- A read that had settled when it was asked for had succeeded, and would still.
    have unsettled : ∀ outcome, before.asked.reads[before.answering]? ≠ some (some outcome) := by
      intro outcome settled
      have still : state.reads[before.answering]? = some (some outcome) :=
        whole.onwards reached (fun state => state.reads[before.answering]? = some (some outcome)) settled
          fun _ _ _ settled _ taken => step_settled settled taken
      cases still.symm.trans ends
      exact good failure (Option.some.inj (there.symm.trans settled))
    obtain ⟨printed, member, settled⟩ := ended_since whole reached unsettled ends
    exact .failed printed failure member settled ends

end SingleFlight
