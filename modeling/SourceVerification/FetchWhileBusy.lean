import Mathlib.Data.ENat.Lattice
import SourceVerification.Shared.Numbers

set_option autoImplicit false

namespace SourceVerification.FetchWhileBusy

open Numbers

structure Response where
  status : Nat
  retryAfter : Option String

inductive Event
  | request
  | wait (seconds : ℤ)
deriving DecidableEq

structure Exchange where
  received : Nat
  events : List Event

def DEFAULT_RETRY_AFTER_SECONDS : ℤ := 30

def MAX_RETRY_AFTER_SECONDS : ℤ := 120

def retryAfterSeconds : Option String → ℤ
  | none => DEFAULT_RETRY_AFTER_SECONDS
  | some header =>
    match ofText header.toList with
    | .finite seconds =>
      if seconds < 1 then DEFAULT_RETRY_AFTER_SECONDS else min ⌈seconds⌉ MAX_RETRY_AFTER_SECONDS
    | _ => DEFAULT_RETRY_AFTER_SECONDS

section

variable (responses : Nat → Response) (maxRetries : Nat)

def request (exchange : Exchange) : Response × Exchange :=
  (responses exchange.received, ⟨exchange.received + 1, exchange.events ++ [.request]⟩)

def wait (seconds : ℤ) (exchange : Exchange) : Exchange :=
  { exchange with events := exchange.events ++ [.wait seconds] }

def resend (retry : Nat) (response : Response) (exchange : Exchange) : Response × Exchange :=
  if response.status = 503 ∧ retry ≤ maxRetries then
    let (response, exchange) := request responses (wait (retryAfterSeconds response.retryAfter) exchange)
    resend (retry + 1) response exchange
  else (response, exchange)
termination_by maxRetries + 1 - retry

def fetchWhileBusy : Response × Exchange :=
  let (response, exchange) := request responses ⟨0, []⟩
  resend responses maxRetries 1 response exchange

/-- How many responses are 503s before the first that is not. -/
noncomputable def leadingBusy : ℕ∞ :=
  ⨅ place : { place // (responses place).status ≠ 503 }, (place.val : ℕ∞)

-- What goes out when the first `resent` responses are each followed by another request.
def resends (resent : Nat) : List Event :=
  .request :: (List.range resent).flatMap fun place =>
    [.wait (retryAfterSeconds (responses place).retryAfter), .request]

-- What has been exchanged when the request was sent again `resent` times.
def resentTimes (resent : Nat) : Exchange :=
  ⟨resent + 1, resends responses resent⟩

theorem resends_succ (resent : Nat) : resends responses (resent + 1) =
    resends responses resent ++
      [.wait (retryAfterSeconds (responses resent).retryAfter), .request] := by
  simp [resends, List.range_succ]

theorem count_request_resends (resent : Nat) :
    (resends responses resent).count .request = resent + 1 := by
  induction resent with
  | zero => rfl
  | succ resent ih =>
    rw [resends_succ, List.count_append, ih]
    rfl

variable {responses maxRetries}

theorem resend_busy {resent : Nat} (busy : (responses resent).status = 503) (more : resent < maxRetries) :
    resend responses maxRetries (resent + 1) (responses resent) (resentTimes responses resent) =
      resend responses maxRetries (resent + 1 + 1) (responses (resent + 1))
        (resentTimes responses (resent + 1)) := by
  rw [resend, if_pos ⟨busy, more⟩]
  simp only [request, wait, resentTimes, resends_succ, List.append_assoc, List.cons_append,
    List.nil_append]

theorem resend_done {resent : Nat}
    (done : resent < maxRetries → (responses resent).status ≠ 503) :
    resend responses maxRetries (resent + 1) (responses resent) (resentTimes responses resent) =
      (responses resent, resentTimes responses resent) := by
  rw [resend, if_neg]
  intro again
  exact done again.2 again.1

theorem fetchWhileBusy_busy {resent : Nat} (busy : ∀ place < resent, (responses place).status = 503)
    (most : resent ≤ maxRetries) :
    fetchWhileBusy responses maxRetries =
      resend responses maxRetries (resent + 1) (responses resent) (resentTimes responses resent) := by
  induction resent with
  | zero => rfl
  | succ resent ih =>
    rw [ih (fun place earlier => busy place (by omega)) (by omega),
      resend_busy (busy resent (by omega)) (by omega)]

theorem busy_of_lt_leadingBusy {place : Nat} (leading : place < leadingBusy responses) :
    (responses place).status = 503 := by
  by_contra other
  have least : leadingBusy responses ≤ place :=
    iInf_le (fun place : { place // (responses place).status ≠ 503 } => (place.val : ℕ∞)) ⟨place, other⟩
  exact absurd least (not_le.mpr leading)

theorem leadingBusy_ends {place : Nat} (ends : leadingBusy responses = place) :
    (responses place).status ≠ 503 := by
  by_cases some_other : Nonempty { place // (responses place).status ≠ 503 }
  next =>
    obtain ⟨⟨first, other⟩, least⟩ :=
      ciInf_mem fun place : { place // (responses place).status ≠ 503 } => (place.val : ℕ∞)
    have same : first = place := by
      rw [leadingBusy, ← least] at ends
      exact ENat.natCast_inj.mp ends
    rwa [← same]
  next =>
    rw [not_nonempty_iff] at some_other
    rw [leadingBusy, iInf_of_empty] at ends
    exact absurd ends (by simp)

end

theorem retryAfterSeconds_bounds (header : Option String) :
    1 ≤ retryAfterSeconds header ∧ retryAfterSeconds header ≤ 120 := by
  unfold retryAfterSeconds DEFAULT_RETRY_AFTER_SECONDS MAX_RETRY_AFTER_SECONDS
  split
  next => decide
  next header =>
    split
    next seconds read =>
      split
      next => decide
      next least =>
        have positive : 0 < ⌈seconds⌉ := Int.ceil_pos.mpr (by linarith)
        omega
    next => decide

theorem retryAfterSeconds_odd {header : String}
    (odd : ∀ seconds, ofText header.toList = .finite seconds → seconds < 1) :
    retryAfterSeconds (some header) = 30 := by
  rw [retryAfterSeconds]
  split
  next seconds read => exact if_pos (odd seconds read)
  next => rfl

theorem retryAfterSeconds_finite {header : String} {seconds : ℚ}
    (read : ofText header.toList = .finite seconds) (least : 1 ≤ seconds) :
    retryAfterSeconds (some header) = min ⌈seconds⌉ 120 := by
  simp only [retryAfterSeconds, read]
  exact if_neg (not_lt.mpr least)

theorem retryAfterSeconds_whole {seconds : Nat} (least : 1 ≤ seconds) (small : seconds < 2 ^ 53) :
    retryAfterSeconds (some (String.ofList (Nat.toDigits 10 seconds))) = (min seconds 120 : ℤ) := by
  have read : ofText (String.ofList (Nat.toDigits 10 seconds)).toList = .finite seconds := by
    rw [String.toList_ofList, ofText_toDigits small]
  rw [retryAfterSeconds_finite read (by exact_mod_cast least), Int.ceil_natCast]

theorem fetchWhileBusy_resends (responses : Nat → Response) (maxRetries : Nat) :
    (∃ resent : Nat, (resent : ℕ∞) = min (maxRetries : ℕ∞) (leadingBusy responses) ∧
      (∀ place < resent, (responses place).status = 503) ∧
      (resent < maxRetries → (responses resent).status ≠ 503) ∧
      fetchWhileBusy responses maxRetries = (responses resent, resentTimes responses resent) ∧
      (resends responses resent).count .request = resent + 1) ∧
    (∀ header, 1 ≤ retryAfterSeconds header ∧ retryAfterSeconds header ≤ 120) ∧
    retryAfterSeconds none = 30 ∧
    (∀ header : String, (∀ seconds, ofText header.toList = .finite seconds → seconds < 1) →
      retryAfterSeconds (some header) = 30) ∧
    ∀ (header : String) (seconds : ℚ), ofText header.toList = .finite seconds → 1 ≤ seconds →
      retryAfterSeconds (some header) = min ⌈seconds⌉ 120 := by
  refine ⟨?_, retryAfterSeconds_bounds, rfl, fun _ => retryAfterSeconds_odd,
    fun _ _ => retryAfterSeconds_finite⟩
  have bounded : min (maxRetries : ℕ∞) (leadingBusy responses) ≤ maxRetries := min_le_left _ _
  obtain ⟨resent, least⟩ := ENat.ne_top_iff_exists.mp (ne_top_of_le_ne_top (ENat.natCast_ne_top _) bounded)
  rw [← least] at bounded
  have most : resent ≤ maxRetries := by exact_mod_cast bounded
  have busy : ∀ place < resent, (responses place).status = 503 := by
    intro place earlier
    have leading : (resent : ℕ∞) ≤ leadingBusy responses := least ▸ min_le_right _ _
    exact busy_of_lt_leadingBusy (lt_of_lt_of_le (by exact_mod_cast earlier) leading)
  have done : resent < maxRetries → (responses resent).status ≠ 503 := by
    intro more
    refine leadingBusy_ends ?_
    rcases min_choice (maxRetries : ℕ∞) (leadingBusy responses) with retries | leading
    next =>
      rw [retries] at least
      exact absurd (by exact_mod_cast least) more.ne
    next => rw [least, leading]
  refine ⟨resent, least, busy, done, ?_, count_request_resends responses resent⟩
  rw [fetchWhileBusy_busy busy most, resend_done done]

end SourceVerification.FetchWhileBusy
