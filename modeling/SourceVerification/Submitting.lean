import SourceVerification.Registry.Served
import SourceVerification.Resending
import SourceVerification.ResourceId

set_option autoImplicit false

namespace SourceVerification.Submitting

open Compile (Body)
open FetchWhileBusy (Exchange Response resentTimes)
open Registry Resending ResourceIds

def MAX_BUSY_RETRIES : Nat := 3

def UNAVAILABLE_MESSAGES : Nat → Option String
  | 502 => some "The verifier could not reach the compiler. Please try again later."
  | 503 => some "The verifier is busy. Please try again in a few minutes."
  | 504 => some "The verifier took too long to answer. Please try again later."
  | _ => none

structure PostAnswer where
  status : Nat
  retryAfter : Option String
  body : Body Json

inductive VerifyOutcome
  | verification (verified : Bool)
  | error (message : String)

def property (name : String) : Option Json → Option Json
  | some (.object entries) => (entries.reverse.find? (·.1 = name)).map (·.2)
  | _ => none

def errorOf (data : Option Json) : Option String :=
  match property "error" data with
  | some (.string error) => some error
  | _ => none

-- `Boolean` of a value.
def truthy : Option Json → Bool
  | none | some .null => false
  | some (.boolean value) => value
  | some (.number value) => value ≠ 0
  | some (.string value) => value ≠ ""
  | some (.array _) | some (.object _) => true

def PostAnswer.ok (answer : PostAnswer) : Bool :=
  200 ≤ answer.status ∧ answer.status ≤ 299

def outcomeOf (answer : PostAnswer) : VerifyOutcome :=
  let data := answer.body.read
  if answer.ok then .verification (truthy (property "verified" data))
  else
    .error ((UNAVAILABLE_MESSAGES answer.status <|> errorOf data).getD
      ("Request failed (" ++ toString answer.status ++ ")"))

structure Submission where
  network : NetworkId
  resource : ResourceId
  files : Files
  entrypoint : String
  source : String

inductive Delivery
  | answered
  -- Another answers in the route's place: a proxy, or the parser of the body.
  | turnedAway (answer : PostAnswer)
  -- The request itself fails, before or after the route has handled it.
  | failed (message : String) (handled : Bool)

/-- One sending of the request: what others have called since the one before, and what it meets. -/
structure Attempt where
  others : List ServiceCall
  api : Compile.ApiCompile
  outage : Option ApiCompileError
  faults : Faults
  now : Time
  delivery : Delivery

def kindOf : ResourceId → Kind
  | .account _ => .account
  | .note _ => .note

/-- The request of the body `JSON.stringify` writes, at the collection of its kind. -/
def Submission.post (submission : Submission) (attempt : Attempt) : PostRequest where
  kind := kindOf submission.resource
  networkId := String.ofList submission.network.value
  id := some (String.ofList (idOf submission.resource))
  files := some (filesJson submission.files)
  entrypoint := some (.string submission.entrypoint)
  source := some (.string submission.source)
  api := attempt.api
  outage := attempt.outage.map fun error => ⟨error.status, error.message⟩
  faults := attempt.faults
  now := attempt.now

def busyError : HttpError := ⟨503, "too many requests in progress, retry later"⟩

def BUSY_RETRY_AFTER : String := "30"

def Attempt.retryAfter (attempt : Attempt) (error : Error) : Option String :=
  match attempt.outage with
  | some outage => if error = .http ⟨outage.status, outage.message⟩ then outage.retryAfter else none
  | none => if error = .http busyError then some BUSY_RETRY_AFTER else none

section

-- How the database words a violation.
variable (worded : Violation → String)

def textOf : Error → String
  | .http error => error.message
  | .violation violation => worded violation
  | .message text => text

def answerOf (attempt : Attempt) : Except Error Json → PostAnswer
  | .ok body => ⟨200, none, .json body⟩
  | .error error =>
    ⟨statusOf error, attempt.retryAfter error, .json (.object [("error", .string (textOf worded error))])⟩

inductive Reply
  | answered (answer : PostAnswer)
  | failed (message : String)

def Reply.response : Reply → Response
  | .answered answer => ⟨answer.status, answer.retryAfter⟩
  | .failed _ => ⟨0, none⟩

def Attempt.deliver (attempt : Attempt) (state : State) (result : Except Error Json) (handled : State) :
    Reply × State :=
  match attempt.delivery with
  | .answered => (.answered (answerOf worded attempt result), handled)
  | .turnedAway answer => (.answered answer, state)
  | .failed message wasHandled => (.failed message, if wasHandled then handled else state)

def verificationJson (verified : Bool) : Json :=
  .object [("verified", .boolean verified)]

def Attempt.serve (attempt : Attempt) (submission : Submission) (state : State) : Reply × State :=
  let (result, handled) := postVerified state (submission.post attempt)
  attempt.deliver worded state (result.map verificationJson) handled

def server (submission : Submission) (attempts : Nat → Attempt) : Server State Reply where
  others place state := (attempts place).others.foldl State.serve state
  serve place := (attempts place).serve worded submission
  response := Reply.response

def told : Reply → Except String VerifyOutcome
  | .answered answer => .ok (outcomeOf answer)
  | .failed message => .error message

def verifyResource (submission : Submission) (attempts : Nat → Attempt) (start : State) :
    Except String VerifyOutcome × Exchange × State :=
  let (reply, exchange, state) := sendWhileBusy (server worded submission attempts) MAX_BUSY_RETRIES start
  (told reply, exchange, state)

end

theorem packageRowId_error {db : Database} {project : Project} {build : VerifyResponse}
    {stored : Option PackageRow} {now : Time} {error : Error}
    (failed : packageRowId db project build stored now = .error error) : statusOf error = 500 := by
  unfold packageRowId insertPackage at failed
  split at failed
  next => cases failed
  next =>
    split at failed
    next => cases failed
    next =>
      split at failed
      next => cases failed
      next =>
        obtain rfl := Except.error.inj failed
        rfl

theorem accountRowId_error {db : Database} {networkId : String} {code : Word} {now : Time}
    {error : Error} (failed : accountRowId db networkId code now = .error error) :
    statusOf error = 500 := by
  unfold accountRowId Database.insertAccountRow at failed
  split at failed
  next => cases failed
  next =>
    split at failed
    next =>
      obtain rfl := Except.error.inj failed
      rfl
    next => cases failed

theorem insertAccountComponent_error {db : Database} {networkId : String} {code : Word}
    {packageId : RowId} {commitment : Word} {source : String} {now : Time} {error : Error}
    (failed : insertAccountComponent db networkId code packageId commitment source now = .error error) :
    statusOf error = 500 ∨ statusOf error = 409 := by
  rcases Results.bind_eq_error.mp failed with unplaced | ⟨⟨id, between⟩, -, rest⟩
  next => exact .inl (accountRowId_error unplaced)
  next =>
    unfold Database.insertComponentRow at rest
    dsimp only at rest
    split_ifs at rest
    · obtain rfl := Except.error.inj rest
      exact .inr rfl
    · obtain rfl := Except.error.inj rest
      exact .inl rfl

theorem insertNote_error {db : Database} {networkId : String} {script : Word} {packageId : RowId}
    {commitment : Word} {source : String} {now : Time} {error : Error}
    (failed : insertNote db networkId script packageId commitment source now = .error error) :
    statusOf error = 500 ∨ statusOf error = 409 := by
  unfold insertNote Database.insertNoteRow at failed
  split_ifs at failed
  · obtain rfl := Except.error.inj failed
    exact .inr rfl
  · obtain rfl := Except.error.inj failed
    exact .inl rfl

theorem record_error {db : Database} {input : VerifyInput} {build : VerifyResponse}
    {stored : Option PackageRow} {now : Time} {error : Error}
    (failed : record db input build stored now = .error error) :
    statusOf error = 500 ∨ statusOf error = 409 := by
  rcases Results.bind_eq_error.mp failed with unplaced | ⟨⟨packageId, between⟩, -, rest⟩
  next => exact .inl (packageRowId_error unplaced)
  next =>
    rcases Results.bind_eq_error.mp rest with uninserted | ⟨_, -, done⟩
    next =>
      unfold insertRecord at uninserted
      split at uninserted
      next => exact insertAccountComponent_error uninserted
      next => exact insertNote_error uninserted
    next => cases done

theorem verifyResource_busy {faults : Faults} {state : State} {input : VerifyInput}
    {answer : Except Error VerifyResponse} {now : Time} {error : Error}
    (failed : (Registry.verifyResource faults state input answer now).1 = .error error)
    (busy : statusOf error = 503) :
    (Registry.verifyResource faults state input answer now).2 = state := by
  cases answer with
  | error error => rfl
  | ok build =>
    unfold Registry.verifyResource at failed ⊢
    dsimp only at failed ⊢
    generalize (if (state.db.getPackage build.commitment).isNone then
      state.store.put build.commitment build.masp .release else state.store) = store at failed ⊢
    cases ran : record state.db input build (state.db.getPackage build.commitment) now with
    | error unrecorded =>
      simp only [ran] at failed ⊢
      split_ifs at failed ⊢
      · rfl
      · rfl
      · obtain rfl := Except.error.inj failed
        rcases record_error ran with other | other <;> omega
    | ok result =>
      simp only [ran] at failed ⊢
      split_ifs at failed ⊢
      · rfl
      · rfl
      · obtain rfl := Except.error.inj failed
        cases busy

theorem postVerified_busy {state : State} {request : PostRequest} {error : Error}
    (failed : (postVerified state request).1 = .error error) (busy : statusOf error = 503) :
    (postVerified state request).2 = state := by
  unfold postVerified at failed ⊢
  split
  next => rfl
  next present =>
    rw [if_neg present] at failed
    split
    next => rfl
    next project opened =>
      simp only [opened] at failed
      exact verifyResource_busy failed busy

section

variable (worded : Violation → String) (submission : Submission) (attempts : Nat → Attempt)

theorem deliver_busy {attempt : Attempt} {state handled : State} {result : Except Error Json}
    (leaves : ∀ error, result = .error error → statusOf error = 503 → handled = state)
    (busy : (attempt.deliver worded state result handled).1.response.status = 503) :
    (attempt.deliver worded state result handled).2 = state := by
  unfold Attempt.deliver at busy ⊢
  cases delivery : attempt.delivery with
  | answered =>
    simp only [delivery] at busy
    cases result with
    | ok body => cases busy
    | error error => exact leaves error rfl busy
  | turnedAway answer => rfl
  | failed message wasHandled =>
    simp only [delivery] at busy
    cases busy

theorem server_leaves : LeavesWhenBusy (server worded submission attempts) := by
  intro place state busy
  refine deliver_busy worded (fun error failed => ?_) busy
  exact postVerified_busy (Results.map_eq_error.mp failed)

end

def Records (submission : Submission) (attempt : Attempt) (before after : Ledger) : Prop :=
  ∃ build, (submission.post attempt).Records build before after

/-- What the client is told at the end, with what is on record before its last request and after. -/
inductive Settled (submission : Submission) (attempt : Attempt) (before after : Ledger) :
    Except String VerifyOutcome → Prop
  | recorded (answered : attempt.delivery = .answered) (records : Records submission attempt before after) :
    Settled submission attempt before after (.ok (.verification true))
  | unrecorded (outcome : VerifyOutcome) (answered : attempt.delivery = .answered)
    (other : outcome ≠ .verification true) (same : after = before) :
    Settled submission attempt before after (.ok outcome)
  | turnedAway (answer : PostAnswer) (turned : attempt.delivery = .turnedAway answer)
    (same : after = before) : Settled submission attempt before after (.ok (outcomeOf answer))
  -- Whether the request was handled is not known.
  | failed (message : String) (handled : Bool) (failed : attempt.delivery = .failed message handled)
    (ended : after = before ∨ handled = true ∧ Records submission attempt before after) :
    Settled submission attempt before after (.error message)

section

variable (worded : Violation → String)

theorem answerOf_error_ok (attempt : Attempt) (error : Error) :
    (answerOf worded attempt (.error error)).ok = false := by
  have bounds := (errorHandler_status ⟨error, none⟩).1
  simp only [errorHandler, RegistryAnswer.status] at bounds
  exact decide_eq_false fun bounded => absurd (le_trans bounds bounded.2) (by decide)

theorem outcomeOf_error (attempt : Attempt) (error : Error) :
    ∃ message, outcomeOf (answerOf worded attempt (.error error)) = .error message := by
  simp [outcomeOf, answerOf_error_ok]

theorem outcomeOf_ok (attempt : Attempt) (verified : Bool) :
    outcomeOf (answerOf worded attempt (.ok (verificationJson verified))) = .verification verified := by
  cases verified <;> rfl

theorem serve_settled (submission : Submission) (attempt : Attempt) {state : State}
    (sound : Integrity state) :
    Settled submission attempt state.db.ledger (attempt.serve worded submission state).2.db.ledger
      (told (attempt.serve worded submission state).1) := by
  have outcome := postVerified_ledger (submission.post attempt) sound
  unfold Attempt.serve Attempt.deliver
  dsimp only
  cases delivery : attempt.delivery with
  | answered =>
    rcases outcome with ⟨verified, records⟩ | ⟨other, same⟩
    next =>
      simp only [verified, Except.map, told, outcomeOf_ok]
      exact .recorded delivery records
    next =>
      refine .unrecorded _ delivery ?_ same
      cases result : (postVerified state (submission.post attempt)).1 with
      | ok verified =>
        intro stated
        rw [Except.map, outcomeOf_ok] at stated
        obtain rfl := VerifyOutcome.verification.inj stated
        exact other result
      | error error =>
        obtain ⟨message, stated⟩ := outcomeOf_error worded attempt error
        simp [Except.map, stated]
  | turnedAway answer => exact .turnedAway answer delivery rfl
  | failed message handled =>
    refine .failed message handled delivery ?_
    cases handled with
    | false => exact .inl rfl
    | true => exact outcome.symm.imp And.right fun recorded => ⟨rfl, recorded.2⟩

/-- However often it is sent, a submission counts as its last request alone: the client is told by the
registry that it verified just when that request records it. -/
theorem verifyResource_once (submission : Submission) (attempts : Nat → Attempt) {start : State}
    (sound : Integrity start) :
    ∃ last, Last (server worded submission attempts) MAX_BUSY_RETRIES start last ∧
      (verifyResource worded submission attempts start).2.1 = resentTimes (fun place =>
        (alone (server worded submission attempts) start place).1.response) last ∧
      Integrity (undisturbed (server worded submission attempts) start last) ∧
      Settled submission (attempts last)
        (undisturbed (server worded submission attempts) start last).db.ledger
        (verifyResource worded submission attempts start).2.2.db.ledger
        (verifyResource worded submission attempts start).1 := by
  obtain ⟨last, isLast⟩ := exists_last (server worded submission attempts) start MAX_BUSY_RETRIES
  have kept : ∀ place state, Integrity state →
      Integrity ((server worded submission attempts).others place state) :=
    fun place _ sound => serves_integrity sound (attempts place).others
  have before := undisturbed_holds kept sound last
  refine ⟨last, isLast, ?_, before, ?_⟩
  · rw [verifyResource, isLast.sendWhileBusy (server_leaves worded submission attempts)]
    rfl
  · rw [verifyResource, isLast.sendWhileBusy (server_leaves worded submission attempts)]
    exact serve_settled worded submission (attempts last) before

end

def counterSubmission : Submission where
  network := .mtst
  resource := .account Compile.counterAccountId.toList
  files := [("Cargo.toml", "[package]"), ("miden-project.toml", "")]
  entrypoint := "."
  source := "web"

def counterAttempts (place : Nat) : Attempt where
  others := []
  api := Compile.counterApi
  outage := if place = 0 then some ⟨503, busyError.message, some BUSY_RETRY_AFTER⟩ else none
  faults _ := false
  now := 0
  delivery := .answered

-- A `Violation` cannot happen to it.
def unworded (_ : Violation) : String := ""

theorem counter_last :
    Last (server unworded counterSubmission counterAttempts) MAX_BUSY_RETRIES .empty 1 where
  most := by decide
  busy := by
    intro place earlier
    obtain rfl : place = 0 := by omega
    rfl
  done := by
    intro _ busy
    have answered : ((server unworded counterSubmission counterAttempts).response
        (alone (server unworded counterSubmission counterAttempts) .empty 1).1).status = 200 := rfl
    exact absurd (answered.symm.trans busy) (by decide)

theorem counter_resubmitted :
    (verifyResource unworded counterSubmission counterAttempts .empty).2.1.events =
      [.request, .wait 30, .request] ∧
    Records counterSubmission (counterAttempts 1) State.empty.db.ledger
      (verifyResource unworded counterSubmission counterAttempts .empty).2.2.db.ledger := by
  obtain ⟨last, isLast, exchanged, _, settled⟩ :=
    verifyResource_once unworded counterSubmission counterAttempts integrity_empty
  obtain rfl := isLast.unique counter_last
  have outcome : (verifyResource unworded counterSubmission counterAttempts .empty).1 =
      .ok (.verification true) := by
    rw [verifyResource, counter_last.sendWhileBusy (server_leaves _ _ _)]
    rfl
  refine ⟨?_, ?_⟩
  · rw [exchanged]
    decide +kernel
  · generalize (verifyResource unworded counterSubmission counterAttempts .empty).2.2.db.ledger = after
      at settled ⊢
    generalize (verifyResource unworded counterSubmission counterAttempts .empty).1 = told
      at settled outcome
    cases settled with
    | recorded _ records => exact records
    | unrecorded _ _ other _ => exact absurd (Except.ok.inj outcome) other
    | turnedAway _ turned _ => cases turned
    | failed => cases outcome

end SourceVerification.Submitting
