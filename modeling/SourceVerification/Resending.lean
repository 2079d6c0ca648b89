import SourceVerification.FetchWhileBusy

set_option autoImplicit false

namespace SourceVerification.Resending

open FetchWhileBusy

structure Server (State Reply : Type) where
  others : Nat → State → State
  serve : Nat → State → Reply × State
  response : Reply → Response

section

variable {State Reply : Type} (server : Server State Reply) (maxRetries : Nat) (start : State)

def found : Nat → State
  | 0 => server.others 0 start
  | place + 1 => server.others (place + 1) (server.serve place (found place)).2

def reply (place : Nat) : Reply :=
  (server.serve place (found server start place)).1

def left (place : Nat) : State :=
  (server.serve place (found server start place)).2

def responses (place : Nat) : Response :=
  server.response (reply server start place)

def sendWhileBusy : Reply × Exchange × State :=
  let (_, exchange) := fetchWhileBusy (responses server start) maxRetries
  (reply server start (exchange.received - 1), exchange, left server start (exchange.received - 1))

def undisturbed : Nat → State
  | 0 => server.others 0 start
  | place + 1 => server.others (place + 1) (undisturbed place)

def alone (place : Nat) : Reply × State :=
  server.serve place (undisturbed server start place)

def Busy (place : Nat) : Prop :=
  (server.response (alone server start place).1).status = 503

def LeavesWhenBusy : Prop :=
  ∀ place state, (server.response (server.serve place state).1).status = 503 →
    (server.serve place state).2 = state

/-- The request that is the last: it is not answered 503, or was sent again often enough. -/
structure Last (last : Nat) : Prop where
  most : last ≤ maxRetries
  busy : ∀ place < last, Busy server start place
  done : last < maxRetries → ¬ Busy server start last

variable {server} {maxRetries start}

theorem Last.unique {last other : Nat} (isLast : Last server maxRetries start last)
    (too : Last server maxRetries start other) : last = other := by
  rcases lt_trichotomy last other with before | same | after
  next => exact absurd (too.busy last before) (isLast.done (lt_of_lt_of_le before too.most))
  next => exact same
  next => exact absurd (isLast.busy other after) (too.done (lt_of_lt_of_le after isLast.most))

variable (server start) in
theorem exists_last (maxRetries : Nat) : ∃ last, Last server maxRetries start last := by
  induction maxRetries with
  | zero => exact ⟨0, le_refl 0, by omega, by omega⟩
  | succ maxRetries ih =>
    obtain ⟨last, isLast⟩ := ih
    by_cases again : last = maxRetries ∧ Busy server start last
    next =>
      obtain ⟨rfl, busy⟩ := again
      refine ⟨last + 1, le_refl _, ?_, by omega⟩
      intro place earlier
      rcases Nat.lt_succ_iff_lt_or_eq.mp earlier with before | rfl
      next => exact isLast.busy place before
      next => exact busy
    next =>
      refine ⟨last, Nat.le_succ_of_le isLast.most, isLast.busy, ?_⟩
      intro _ busy
      by_cases more : last < maxRetries
      next => exact isLast.done more busy
      next => exact again ⟨by have := isLast.most; omega, busy⟩

theorem found_undisturbed (leaves : LeavesWhenBusy server) {place : Nat}
    (busy : ∀ earlier < place, Busy server start earlier) :
    found server start place = undisturbed server start place := by
  induction place with
  | zero => rfl
  | succ place ih =>
    have before := ih fun earlier sooner => busy earlier (Nat.lt_succ_of_lt sooner)
    have same := leaves place _ (busy place (Nat.lt_succ_self place))
    rw [found, before, same, undisturbed]

theorem undisturbed_holds {Holds : State → Prop}
    (kept : ∀ place state, Holds state → Holds (server.others place state)) (holds : Holds start)
    (place : Nat) : Holds (undisturbed server start place) := by
  induction place with
  | zero => exact kept 0 start holds
  | succ place ih => exact kept (place + 1) _ ih

theorem Last.alone {last : Nat} (isLast : Last server maxRetries start last)
    (leaves : LeavesWhenBusy server) {place : Nat} (early : place ≤ last) :
    server.serve place (found server start place) = alone server start place := by
  rw [found_undisturbed leaves fun earlier sooner => isLast.busy earlier (lt_of_lt_of_le sooner early)]
  rfl

theorem resends_congr {first second : Nat → Response} {resent : Nat}
    (same : ∀ place < resent, first place = second place) :
    resends first resent = resends second resent := by
  rw [resends, resends, List.flatMap_congr]
  intro place member
  rw [same place (List.mem_range.mp member)]

theorem Last.sendWhileBusy {last : Nat} (isLast : Last server maxRetries start last)
    (leaves : LeavesWhenBusy server) :
    sendWhileBusy server maxRetries start =
      ((Resending.alone server start last).1,
        resentTimes (fun place => server.response (Resending.alone server start place).1) last,
        (Resending.alone server start last).2) := by
  have answers : ∀ place ≤ last, responses server start place =
      server.response (Resending.alone server start place).1 := by
    intro place early
    rw [responses, reply, isLast.alone leaves early]
  have exchanged : fetchWhileBusy (responses server start) maxRetries =
      (responses server start last, resentTimes (responses server start) last) := by
    rw [fetchWhileBusy_busy ?_ isLast.most, resend_done ?_]
    · intro more
      rw [answers last (le_refl last)]
      exact isLast.done more
    · intro place earlier
      rw [answers place earlier.le]
      exact isLast.busy place earlier
  have events := resends_congr fun place earlier => answers place (le_of_lt earlier)
  rw [Resending.sendWhileBusy, exchanged]
  simp only [reply, left, resentTimes, Nat.add_sub_cancel, isLast.alone leaves (le_refl last), events]

end

end SourceVerification.Resending
