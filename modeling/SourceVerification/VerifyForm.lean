import SourceVerification.ImportSources
import SourceVerification.Shared.Runs
import SourceVerification.Submitting
import SourceVerification.Viewer.ResourceUrls

set_option autoImplicit false

namespace SourceVerification.Verifying

open FetchWhileBusy (retryAfterSeconds)
open Registry ResourceIds Runs Submitting Urls Viewer.ResourceUrls

inductive VerifyResult
  | success (kind : Kind) (viewerUrl : List Char)
  | warning (kind : Kind)
  | error (message : String)

structure Form extends VerifyForm where
  network : NetworkId
  resourceId : List Char
  source : String
  verifying : Bool
  result : Option VerifyResult
  -- Seconds left before resubmitting to a busy verifier.
  retryIn : Option Nat

structure Flight where
  submission : Submission
  resent : Nat
  left : Option Nat

structure System where
  form : Form
  flight : Option Flight
  registry : State

inductive Event
  | setNetwork (network : NetworkId)
  | setResourceId (value : List Char)
  | onImport (files : ProjectFiles)
  | setEntrypoint (entrypoint : String)
  | onSubmit
  -- The request that is out comes to its end, after other calls.
  | respond (attempt : Attempt)
  | tick
  | call (call : ServiceCall)

def DEFAULT_SOURCE : String := "web-verifier"

def initialForm (network : NetworkId) (resource source : Option String) : Form where
  files := []
  entrypoints := []
  entrypoint := "."
  network := network
  resourceId := (resource.getD "").toList
  source := (source.filter (· ≠ "")).getD DEFAULT_SOURCE
  verifying := false
  result := none
  retryIn := none

section

variable (bech32m : Bech32mCodec) (worded : Violation → String) (webViewerUrl : Origin)

def Form.isFormValid (form : Form) : Bool :=
  (parseResourceId bech32m form.resourceId).isSome &&
    (resourceIdError bech32m form.resourceId form.network).isNone && form.files ≠ []

def viewerUrl (submission : Submission) : List Char :=
  webViewerUrl.text ++
    pagePath submission.network.value (collectionOf submission.resource) (idOf submission.resource)

def resultOf (submission : Submission) : Except String VerifyOutcome → VerifyResult
  | .error message => .error message
  | .ok (.error message) => .error message
  | .ok (.verification true) => .success (kindOf submission.resource) (viewerUrl webViewerUrl submission)
  | .ok (.verification false) => .warning (kindOf submission.resource)

def System.submit (system : System) : System :=
  match parseResourceId bech32m system.form.resourceId with
  | none => system
  | some resource =>
    if system.form.isFormValid bech32m = false ∨ system.form.verifying = true then system
    else { system with
      form := { system.form with verifying := true, result := none }
      flight := some {
        submission := {
          network := system.form.network
          resource := resource
          files := system.form.files
          entrypoint := system.form.entrypoint
          source := system.form.source }
        resent := 0
        left := none } }

def System.respond (system : System) (attempt : Attempt) : Option System :=
  match system.flight with
  | some ⟨submission, resent, none⟩ =>
    let (reply, registry) :=
      attempt.serve worded submission (attempt.others.foldl State.serve system.registry)
    let response := reply.response
    if response.status = 503 ∧ resent < MAX_BUSY_RETRIES then
      let seconds := (retryAfterSeconds response.retryAfter).toNat
      some {
        form := { system.form with retryIn := some seconds }
        flight := some ⟨submission, resent, some seconds⟩
        registry := registry }
    else some {
      form := { system.form with
        verifying := false
        result := some (resultOf webViewerUrl submission (told reply))
        retryIn := none }
      flight := none
      registry := registry }
  | _ => none

def System.tick (system : System) : Option System :=
  match system.flight with
  | some ⟨submission, resent, some (left + 2)⟩ => some { system with
      form := { system.form with retryIn := some (left + 1) }
      flight := some ⟨submission, resent, some (left + 1)⟩ }
  | some ⟨submission, resent, some _⟩ => some { system with
      form := { system.form with retryIn := none }
      flight := some ⟨submission, resent + 1, none⟩ }
  | _ => none

def step (system : System) : Event → Option System
  | .setNetwork network => some { system with form := { system.form with network } }
  | .setResourceId value => some { system with form := { system.form with resourceId := value } }
  | .onImport files =>
    some { system with form := { system.form with toVerifyForm := VerifyForm.onImport files } }
  | .setEntrypoint entrypoint =>
    if entrypoint ∈ system.form.offered then
      some { system with form := { system.form with entrypoint } }
    else none
  | .onSubmit => some (system.submit bech32m)
  | .respond attempt => system.respond worded webViewerUrl attempt
  | .tick => system.tick
  | .call call => some { system with registry := system.registry.serve call }

end

structure Flight.Sound (bech32m : Bech32mCodec) (flight : Flight) : Prop where
  valid : ∃ value, parseResourceId bech32m value = some flight.submission.resource
  counting : flight.left ≠ some 0
  resent : flight.resent + (if flight.left.isSome then 1 else 0) ≤ MAX_BUSY_RETRIES

/-- The form shows what becomes of the submission that is out, and no result before its end. -/
structure System.Sound (bech32m : Bech32mCodec) (system : System) : Prop where
  registry : Integrity system.registry
  verifying : system.form.verifying = system.flight.isSome
  retryIn : system.form.retryIn = system.flight.bind (·.left)
  pending : ∀ flight, system.flight = some flight → system.form.result = none ∧ flight.Sound bech32m

section

variable {bech32m : Bech32mCodec} {worded : Violation → String} {webViewerUrl : Origin}

theorem System.Sound.edit {system : System} (sound : system.Sound bech32m) {form : Form}
    (verifying : form.verifying = system.form.verifying) (result : form.result = system.form.result)
    (retryIn : form.retryIn = system.form.retryIn) : ({ system with form } : System).Sound bech32m where
  registry := sound.registry
  verifying := verifying.trans sound.verifying
  retryIn := retryIn.trans sound.retryIn
  pending flight out := ⟨result.trans (sound.pending flight out).1, (sound.pending flight out).2⟩

variable (bech32m) in
theorem System.submit_cases (system : System) : system.submit bech32m = system ∨ ∃ resource,
    parseResourceId bech32m system.form.resourceId = some resource ∧ system.form.verifying = false ∧
      system.submit bech32m = { system with
        form := { system.form with verifying := true, result := none }
        flight := some {
          submission := {
            network := system.form.network
            resource := resource
            files := system.form.files
            entrypoint := system.form.entrypoint
            source := system.form.source }
          resent := 0
          left := none } } := by
  unfold System.submit
  split
  next => exact .inl rfl
  next resource parsed =>
    split
    next => exact .inl rfl
    next valid =>
      rw [not_or, Bool.not_eq_false, Bool.not_eq_true] at valid
      exact .inr ⟨resource, parsed, valid.2, rfl⟩

theorem System.Sound.submit {system : System} (sound : system.Sound bech32m) :
    (system.submit bech32m).Sound bech32m := by
  rcases system.submit_cases bech32m with same | ⟨resource, parsed, idle, same⟩
  next => rwa [same]
  next =>
    have nothing : system.form.retryIn = none := by
      rw [sound.retryIn]
      cases out : system.flight with
      | none => rfl
      | some flight =>
        have verifying := sound.verifying
        rw [idle, out] at verifying
        cases verifying
    rw [same]
    refine ⟨sound.registry, rfl, nothing, ?_⟩
    intro flight out
    obtain rfl := Option.some.inj out
    exact ⟨rfl, ⟨_, parsed⟩, by simp, by simp⟩

theorem System.respond_cases {system after : System} {attempt : Attempt}
    (taken : system.respond worded webViewerUrl attempt = some after) :
    ∃ submission resent reply registry, system.flight = some ⟨submission, resent, none⟩ ∧
      attempt.serve worded submission (attempt.others.foldl State.serve system.registry) = (reply, registry) ∧
      ((resent < MAX_BUSY_RETRIES ∧ ∃ seconds, 0 < seconds ∧ after = {
          form := { system.form with retryIn := some seconds }
          flight := some ⟨submission, resent, some seconds⟩
          registry := registry }) ∨
        after = {
          form := { system.form with
            verifying := false
            result := some (resultOf webViewerUrl submission (told reply))
            retryIn := none }
          flight := none
          registry := registry }) := by
  unfold System.respond at taken
  split at taken
  next submission resent out =>
    dsimp only at taken
    refine ⟨submission, resent, _, _, out, rfl, ?_⟩
    split at taken
    next again =>
      have positive := (FetchWhileBusy.retryAfterSeconds_bounds
        (attempt.serve worded submission (attempt.others.foldl State.serve system.registry)).1.response.retryAfter).1
      exact .inl ⟨again.2, _, by omega, (Option.some.inj taken).symm⟩
    next => exact .inr (Option.some.inj taken).symm
  next => cases taken

theorem served_integrity (attempt : Attempt) (submission : Submission) {state : State} (sound : Integrity state) :
    Integrity (attempt.serve worded submission state).2 := by
  have handled : Integrity (postVerified state (submission.post attempt)).2 :=
    serve_integrity sound (.post (submission.post attempt))
  unfold Attempt.serve Attempt.deliver
  dsimp only
  cases attempt.delivery with
  | answered => exact handled
  | turnedAway answer => exact sound
  | failed message wasHandled =>
    cases wasHandled with
    | false => exact sound
    | true => exact handled

theorem System.Sound.respond {system after : System} {attempt : Attempt} (sound : system.Sound bech32m)
    (taken : system.respond worded webViewerUrl attempt = some after) : after.Sound bech32m := by
  obtain ⟨submission, resent, reply, registry, out, served, ends⟩ := System.respond_cases taken
  have registered : Integrity registry := by
    have kept : Integrity (attempt.serve worded submission _).2 :=
      served_integrity attempt submission (serves_integrity sound.registry attempt.others)
    rwa [served] at kept
  obtain ⟨quiet, flying⟩ := sound.pending _ out
  have verifying := sound.verifying
  rw [out] at verifying
  rcases ends with ⟨more, seconds, positive, rfl⟩ | rfl
  next =>
    refine ⟨registered, verifying, rfl, ?_⟩
    intro flight again
    obtain rfl := Option.some.inj again
    exact ⟨quiet, flying.valid, by simp; omega, more⟩
  next => exact ⟨registered, rfl, rfl, by simp⟩

theorem System.tick_cases {system after : System} (taken : system.tick = some after) :
    ∃ submission resent left, system.flight = some ⟨submission, resent, some left⟩ ∧
      ((1 < left ∧ after = { system with
          form := { system.form with retryIn := some (left - 1) }
          flight := some ⟨submission, resent, some (left - 1)⟩ }) ∨
        left ≤ 1 ∧ after = { system with
          form := { system.form with retryIn := none }
          flight := some ⟨submission, resent + 1, none⟩ }) := by
  unfold System.tick at taken
  split at taken
  next submission resent left out =>
    exact ⟨submission, resent, left + 2, out, .inl ⟨by omega, (Option.some.inj taken).symm⟩⟩
  next submission resent left last out =>
    refine ⟨submission, resent, left, out, .inr ⟨?_, (Option.some.inj taken).symm⟩⟩
    by_contra more
    obtain ⟨others, rfl⟩ : ∃ others, left = others + 2 := ⟨left - 2, by omega⟩
    exact last others rfl
  next => cases taken

theorem System.Sound.tick {system after : System} (sound : system.Sound bech32m)
    (taken : system.tick = some after) : after.Sound bech32m := by
  obtain ⟨submission, resent, left, out, ends⟩ := System.tick_cases taken
  obtain ⟨quiet, flying⟩ := sound.pending _ out
  have verifying := sound.verifying
  have most := flying.resent
  rw [out] at verifying
  simp only [Option.isSome_some, if_true] at most
  rcases ends with ⟨more, rfl⟩ | ⟨last, rfl⟩
  next =>
    refine ⟨sound.registry, verifying, rfl, ?_⟩
    intro flight again
    obtain rfl := Option.some.inj again
    exact ⟨quiet, flying.valid, by simp; omega, most⟩
  next =>
    refine ⟨sound.registry, verifying, rfl, ?_⟩
    intro flight again
    obtain rfl := Option.some.inj again
    exact ⟨quiet, flying.valid, by simp, most⟩

theorem System.Sound.step {system after : System} {event : Event} (sound : system.Sound bech32m)
    (taken : step bech32m worded webViewerUrl system event = some after) : after.Sound bech32m := by
  cases event with
  | setNetwork network =>
    obtain rfl := Option.some.inj taken
    exact sound.edit rfl rfl rfl
  | setResourceId value =>
    obtain rfl := Option.some.inj taken
    exact sound.edit rfl rfl rfl
  | onImport files =>
    obtain rfl := Option.some.inj taken
    exact sound.edit rfl rfl rfl
  | setEntrypoint entrypoint =>
    obtain ⟨_, same⟩ := Option.ite_none_right_eq_some.mp taken
    obtain rfl := Option.some.inj same
    exact sound.edit rfl rfl rfl
  | onSubmit =>
    obtain rfl := Option.some.inj taken
    exact sound.submit
  | respond attempt => exact sound.respond taken
  | tick => exact sound.tick taken
  | call call =>
    obtain rfl := Option.some.inj taken
    exact ⟨serve_integrity sound.registry call, sound.verifying, sound.retryIn, sound.pending⟩

end

/-- The link opens the page of the resource, which asks the registry for it and finds the entry on record. -/
structure Opens (webViewerUrl registryUrl : Origin) (url : List Char) (submission : Submission)
    (state : State) (entry : Entry) (root : Word) : Prop where
  page : ∃ pathname, visited webViewerUrl url = some pathname ∧ ∀ collection, pageRoute collection pathname =
    if collection = collectionOf submission.resource then
      some (submission.network.value, idOf submission.resource) else none
  asked : getVerifiedRecord registryUrl submission.network.value (collectionOf submission.resource)
    (idOf submission.resource) =
      some (.record (collectionOf submission.resource) submission.network.value (idOf submission.resource))
  shown : ∀ fetched resource, fetchJson fetched = .ok resource → resource.kind = kindOf submission.resource →
    resource.root = root → ∃ record, getById (.ok state.db) (String.ofList submission.network.value)
      (kindOf submission.resource) (String.ofList (idOf submission.resource)) fetched = .ok record ∧
        record.Shows state (String.ofList (idOf submission.resource)) entry

theorem opens_of_recorded {bech32m : Bech32mCodec} {limit : Option Nat} (follows : bech32m.Follows limit)
    (webViewerUrl registryUrl : Origin) {submission : Submission} {value : List Char}
    (parsed : parseResourceId bech32m value = some submission.resource) {state : State}
    (sound : Registry.Integrity state) {entry : Entry} {root : Word}
    (recorded : entry ∈ state.db.ledger (kindOf submission.resource)
      (String.ofList submission.network.value) root) :
    Opens webViewerUrl registryUrl (viewerUrl webViewerUrl submission) submission state entry root where
  page := by
    obtain ⟨count, pattern⟩ := hexId follows parsed
    refine ⟨_, visited_pagePath webViewerUrl (network_segment submission.network) (hexPattern_segment pattern) _, ?_⟩
    exact pageRoute_pagePath (network_segment submission.network) (hexPattern_segment pattern) _
  asked := by
    obtain ⟨count, pattern⟩ := hexId follows parsed
    exact getVerifiedRecord_segments registryUrl (network_segment submission.network) _ (hexPattern_segment pattern)
  shown := by
    intro fetched resource imported kind same
    rw [← kind, ← same] at recorded
    exact kind ▸ getById_shows sound recorded imported _

def callsOf : Event → List ServiceCall
  | .call call => [call]
  | _ => []

section

variable {bech32m : Bech32mCodec} {worded : Violation → String} {webViewerUrl : Origin}

def found (system : System) (attempt : Attempt) : State :=
  attempt.others.foldl State.serve system.registry

theorem resultOf_success {submission : Submission} {outcome : Except String VerifyOutcome} {kind : Kind}
    {url : List Char} (shown : resultOf webViewerUrl submission outcome = .success kind url) :
    outcome = .ok (.verification true) ∧ kind = kindOf submission.resource ∧
      url = viewerUrl webViewerUrl submission := by
  unfold resultOf at shown
  split at shown
  · cases shown
  · cases shown
  · obtain ⟨rfl, rfl⟩ := VerifyResult.success.inj shown
    exact ⟨rfl, rfl, rfl⟩
  · cases shown

theorem success_cases {system after : System} {event : Event} (sound : system.Sound bech32m)
    (taken : step bech32m worded webViewerUrl system event = some after) {kind : Kind} {url : List Char}
    (shown : after.form.result = some (.success kind url)) :
    (∃ attempt submission resent, event = .respond attempt ∧
      system.flight = some ⟨submission, resent, none⟩ ∧ kind = kindOf submission.resource ∧
      url = viewerUrl webViewerUrl submission ∧
      told (attempt.serve worded submission (found system attempt)).1 = .ok (.verification true) ∧
      after.registry = (attempt.serve worded submission (found system attempt)).2) ∨
    system.form.result = some (.success kind url) ∧
      after.registry = (callsOf event).foldl State.serve system.registry := by
  cases event with
  | setNetwork network =>
    obtain rfl := Option.some.inj taken
    exact .inr ⟨shown, rfl⟩
  | setResourceId value =>
    obtain rfl := Option.some.inj taken
    exact .inr ⟨shown, rfl⟩
  | onImport files =>
    obtain rfl := Option.some.inj taken
    exact .inr ⟨shown, rfl⟩
  | setEntrypoint entrypoint =>
    obtain ⟨_, same⟩ := Option.ite_none_right_eq_some.mp taken
    obtain rfl := Option.some.inj same
    exact .inr ⟨shown, rfl⟩
  | onSubmit =>
    obtain rfl := Option.some.inj taken
    rcases system.submit_cases bech32m with same | ⟨resource, -, -, same⟩
    next =>
      rw [same] at shown ⊢
      exact .inr ⟨shown, rfl⟩
    next =>
      rw [same] at shown
      cases shown
  | respond attempt =>
    obtain ⟨submission, resent, reply, registry, out, served, ends⟩ := System.respond_cases taken
    have quiet := (sound.pending _ out).1
    rcases ends with ⟨-, seconds, -, rfl⟩ | rfl
    next =>
      rw [quiet] at shown
      cases shown
    next =>
      obtain ⟨answered, rfl, rfl⟩ := resultOf_success (Option.some.inj shown)
      refine .inl ⟨attempt, submission, resent, rfl, out, rfl, rfl, ?_, ?_⟩
      · rw [found, served]
        exact answered
      · rw [found, served]
  | tick =>
    obtain ⟨submission, resent, left, out, ends⟩ := System.tick_cases taken
    have quiet := (sound.pending _ out).1
    rcases ends with ⟨-, rfl⟩ | ⟨-, rfl⟩
    next =>
      rw [quiet] at shown
      cases shown
    next =>
      rw [quiet] at shown
      cases shown
  | call call =>
    obtain rfl := Option.some.inj taken
    exact .inr ⟨shown, rfl⟩

/-- The answer that a success is shown for, and what led up to it. -/
structure Succeeds (bech32m : Bech32mCodec) (worded : Violation → String) (webViewerUrl : Origin)
    (initial : System) (events : List Event) (kind : Kind) (url : List Char) (earlier : List Event) (attempt : Attempt)
    (later : List Event) (before : System) (submission : Submission) : Prop where
  events : events = earlier ++ .respond attempt :: later
  reached : Run (step bech32m worded webViewerUrl) (fun _ _ => True) initial earlier before
  out : ∃ resent, before.flight = some ⟨submission, resent, none⟩
  kind : kind = kindOf submission.resource
  url : url = viewerUrl webViewerUrl submission

theorem recorded_of_told {attempt : Attempt} {submission : Submission} {state : State} (sound : Integrity state)
    (stated : told (attempt.serve worded submission state).1 = .ok (.verification true))
    (answered : attempt.delivery = .answered) :
    Records submission attempt state.db.ledger (attempt.serve worded submission state).2.db.ledger := by
  have settled := serve_settled worded submission attempt sound
  generalize (attempt.serve worded submission state).2.db.ledger = after at settled ⊢
  generalize told (attempt.serve worded submission state).1 = outcome at settled stated
  cases settled with
  | recorded _ records => exact records
  | unrecorded _ _ other _ => exact absurd (Except.ok.inj stated) other
  | turnedAway _ turned _ =>
    rw [answered] at turned
    cases turned
  | failed => cases stated

theorem recorded_mem {request : PostRequest} {build : VerifyResponse} {before after : Ledger}
    (records : request.Records build before after) :
    request.entry build ∈ after request.kind request.networkId build.root := by
  obtain ⟨_, _, _, _, _, rfl⟩ := records
  exact .inr ⟨rfl, rfl, rfl, rfl⟩

/-- What a success stands for, as far as the registry's own answer goes: the verification went on record, where it is
still unless a cleanup found it expired. -/
def Stands (attempt : Attempt) (later : List Event) (before : System) (submission : Submission)
    (worded : Violation → String) (state : State) : Prop :=
  attempt.delivery = .answered → ∃ build,
    (submission.post attempt).Records build (found before attempt).db.ledger
      (attempt.serve worded submission (found before attempt)).2.db.ledger ∧
    ((∀ call ∈ later.flatMap callsOf, Spares ((submission.post attempt).entry build) call) →
      (submission.post attempt).entry build ∈ state.db.ledger (kindOf submission.resource)
        (String.ofList submission.network.value) build.root)

theorem Stands.serves {attempt : Attempt} {later : List Event} {before : System} {submission : Submission}
    {state : State} (stands : Stands attempt later before submission worded state) (sound : Integrity state)
    (event : Event) :
    Stands attempt (later ++ [event]) before submission worded ((callsOf event).foldl State.serve state) := by
  intro answered
  obtain ⟨build, records, recorded⟩ := stands answered
  refine ⟨build, records, fun spared => ?_⟩
  rw [List.flatMap_append] at spared
  refine serves_keep sound (recorded fun call member => spared call (List.mem_append_left _ member)) ?_
  intro call member
  exact spared call (List.mem_append_right _ (by simpa using member))

variable (bech32m worded webViewerUrl) in
def Accounted (initial : System) (events : List Event) (system : System) : Prop :=
  system.Sound bech32m ∧ ∀ kind url, system.form.result = some (.success kind url) →
    ∃ earlier attempt later before submission,
      Succeeds bech32m worded webViewerUrl initial events kind url earlier attempt later before submission ∧
        Stands attempt later before submission worded system.registry

theorem Accounted.step {initial system after : System} {events : List Event} {event : Event}
    (run : Run (step bech32m worded webViewerUrl) (fun _ _ => True) initial events system)
    (accounted : Accounted bech32m worded webViewerUrl initial events system)
    (taken : step bech32m worded webViewerUrl system event = some after) :
    Accounted bech32m worded webViewerUrl initial (events ++ [event]) after := by
  obtain ⟨sound, successes⟩ := accounted
  refine ⟨sound.step taken, fun kind url shown => ?_⟩
  rcases success_cases sound taken shown with
    ⟨attempt, submission, resent, rfl, out, kinds, urls, answered, registry⟩ | ⟨before, registry⟩
  next =>
    refine ⟨events, attempt, [], system, submission, ⟨rfl, run, ⟨resent, out⟩, kinds, urls⟩, fun own => ?_⟩
    have started : Integrity (found system attempt) := serves_integrity sound.registry attempt.others
    obtain ⟨build, records⟩ := recorded_of_told started answered own
    rw [registry]
    exact ⟨build, records, fun _ => recorded_mem records⟩
  next =>
    obtain ⟨earlier, attempt, later, origin, submission, succeeds, stands⟩ := successes kind url before
    refine ⟨earlier, attempt, later ++ [event], origin, submission, ?_, registry ▸ stands.serves sound.registry event⟩
    exact ⟨by simp [succeeds.events], succeeds.reached, succeeds.out, succeeds.kind, succeeds.url⟩

def initialSystem (network : NetworkId) (resource source : Option String) (calls : List ServiceCall) : System where
  form := initialForm network resource source
  flight := none
  registry := serveAll calls

theorem initialSystem_sound (network : NetworkId) (resource source : Option String) (calls : List ServiceCall) :
    (initialSystem network resource source calls).Sound bech32m where
  registry := serves_integrity integrity_empty calls
  verifying := rfl
  retryIn := rfl
  pending _ out := by cases out

end

/-- However the form is edited while a submission is out, and whatever others call in between, a success it shows is the
answer to what was submitted; where that is the registry's own answer, the link opens the page of the verified resource,
which finds the verification on record until a cleanup expires it. -/
theorem success_opens (bech32m : Bech32mCodec) (limit : Option Nat) (follows : bech32m.Follows limit)
    (worded : Violation → String) (webViewerUrl registryUrl : Origin) (network : NetworkId)
    (resource source : Option String) (calls : List ServiceCall) (events : List Event) (system : System)
    (run : Run (step bech32m worded webViewerUrl) (fun _ _ => True) (initialSystem network resource source calls)
      events system) :
    system.form.verifying = system.flight.isSome ∧ system.form.retryIn = system.flight.bind (·.left) ∧
    ∀ kind url, system.form.result = some (.success kind url) → ∃ earlier attempt later before submission,
      Succeeds bech32m worded webViewerUrl (initialSystem network resource source calls) events kind url earlier attempt
        later before submission ∧
      (attempt.delivery = .answered → ∃ build,
        (submission.post attempt).Records build (found before attempt).db.ledger
          (attempt.serve worded submission (found before attempt)).2.db.ledger ∧
        ((∀ call ∈ later.flatMap callsOf, Spares ((submission.post attempt).entry build) call) →
          Opens webViewerUrl registryUrl url submission system.registry
            ((submission.post attempt).entry build) build.root)) := by
  have sound : (initialSystem network resource source calls).Sound bech32m :=
    initialSystem_sound network resource source calls
  have start : Accounted bech32m worded webViewerUrl (initialSystem network resource source calls) []
      (initialSystem network resource source calls) := ⟨sound, fun _ _ shown => by cases shown⟩
  obtain ⟨final, successes⟩ := run.invariant _ start
    fun _ _ _ _ reached accounted _ taken => accounted.step reached taken
  refine ⟨final.verifying, final.retryIn, fun kind url shown => ?_⟩
  obtain ⟨earlier, attempt, later, before, submission, succeeds, stands⟩ := successes kind url shown
  refine ⟨earlier, attempt, later, before, submission, succeeds, fun answered => ?_⟩
  obtain ⟨build, records, recorded⟩ := stands answered
  refine ⟨build, records, fun spared => ?_⟩
  have flying : before.Sound bech32m := succeeds.reached.always (·.Sound bech32m) sound
    fun _ _ _ sound _ taken => sound.step taken
  obtain ⟨resent, out⟩ := succeeds.out
  obtain ⟨value, parsed⟩ := (flying.pending _ out).2.valid
  rw [succeeds.url]
  exact opens_of_recorded follows webViewerUrl registryUrl parsed final.registry (recorded spared)

def counterEvents : List Event :=
  [.setResourceId Compile.counterAccountId.toList, .onImport ⟨counterSubmission.files, []⟩, .onSubmit,
    .respond { counterAttempts 0 with outage := some ⟨503, busyError.message, some "1"⟩ }, .tick,
    .respond (counterAttempts 1)]

def showsSuccess (system : System) : Bool :=
  match system.form.result with
  | some (.success ..) => true
  | _ => false

theorem counter_opened : ∃ (system : System) (url : List Char) (submission : Submission) (entry : Entry) (root : Word),
    system.form.result = some (.success (kindOf submission.resource) url) ∧
      Opens Registry.ImportUrl.localhost Registry.ImportUrl.localhost url submission system.registry entry root := by
  have ran : (exec (step (bip350 none) unworded Registry.ImportUrl.localhost) (fun _ _ => true)
      (initialSystem .mtst none none []) counterEvents).any showsSuccess = true := by decide +kernel
  obtain ⟨system, run, shows⟩ := exists_run_of_exec (fun _ _ _ => trivial) ran
  obtain ⟨-, -, successes⟩ := success_opens (bip350 none) none (bip350_follows none) unworded
    Registry.ImportUrl.localhost Registry.ImportUrl.localhost .mtst none none [] counterEvents system run
  unfold showsSuccess at shows
  split at shows
  next kind url shown =>
    obtain ⟨earlier, attempt, later, before, submission, succeeds, opened⟩ := successes kind url shown
    have events := succeeds.events
    have own : attempt.delivery = .answered := by
      have member : Event.respond attempt ∈ counterEvents := events ▸ by simp
      simp only [counterEvents, List.mem_cons, List.not_mem_nil, or_false, reduceCtorEq, false_or,
        Event.respond.injEq] at member
      rcases member with rfl | rfl
      · rfl
      · rfl
    have quiet : later.flatMap callsOf = [] := by
      have none : ∀ event ∈ counterEvents, callsOf event = [] := by simp [counterEvents, callsOf]
      refine List.flatMap_eq_nil_iff.mpr fun event member => none event (events ▸ ?_)
      simp [member]
    obtain ⟨build, -, opens⟩ := opened own
    exact ⟨system, url, submission, _, _, succeeds.kind ▸ shown, opens (by simp [quiet])⟩
  next => cases shows

end SourceVerification.Verifying
