import SourceVerification.Registry.LookupById
import SourceVerification.Viewer.VerificationStatus

set_option autoImplicit false

namespace SourceVerification.Viewer

open Compile (isOk)
open Registry (Classified Database ImportCall ImportedResource RegistryAnswer Timestamp
  VerifiedAccountById VerifiedNoteById VerifiedRecord getById getById_classified)

def networks : List (String × String) :=
  [("Mainnet", "mm"), ("Testnet", "mtst"), ("Devnet", "mdev")]

def getNetworkName (networkId : String) : Option String :=
  (networks.find? (·.2 = networkId)).map (·.1)

inductive LoadError
  | response (status : Nat) (statusText : String)
  | other

def UNAVAILABLE : String :=
  "The verification status could not be checked right now. Please try again in a minute."

def getVerifiedResource (answer : Option RegistryAnswer) : Except LoadError (Option VerifiedRecord) :=
  match answer with
  | none => .error .other
  | some answer =>
    if answer.status = 404 then .ok none
    else if 502 ≤ answer.status ∧ answer.status ≤ 504 then .error (.response answer.status UNAVAILABLE)
    else
      match answer with
      | .error _ _ _ => .error .other
      | .ok record => .ok (some record)

structure Component where
  package : Registry.Package
  createdAt : Timestamp
  source : String

structure ShownRecord where
  components : List Component
  verificationStatus : VerificationStatus
  standardAccountComponents : List String

def verifiedAccountRecord (account : VerifiedAccountById) : Option ShownRecord := do
  let status ← verificationStatus account
  some {
    components := account.verifiedAccountComponents.map fun component =>
      ⟨component.package, component.createdAt, component.source⟩
    verificationStatus := status
    standardAccountComponents := account.standardAccountComponents.map (·.name) }

def verifiedNoteRecord (note : VerifiedNoteById) : ShownRecord where
  components := [⟨note.package, note.createdAt, note.source⟩]
  -- A note's code is its single script, which verification matched.
  verificationStatus := { verified := 1, total := 1 }
  standardAccountComponents := []

def shownRecord : VerifiedRecord → Option ShownRecord
  | .account account => verifiedAccountRecord account
  | .note note => some (verifiedNoteRecord note)

structure ResourcePage (Sources : Type) where
  networkName : String
  packages : List Sources
  verificationStatus : VerificationStatus
  standardAccountComponents : List String

inductive Page (Sources : Type)
  | resource (page : ResourcePage Sources)
  | notVerified
  | error (message details : String)

section

variable {Sources : Type} (loadPackageSources : Component → Option Sources)

def loadResourcePage (networkId : String) (answer : Option RegistryAnswer) :
    Except LoadError (ResourcePage Sources) :=
  match getNetworkName networkId with
  | none => .error (.response 404 "")
  | some networkName =>
    match getVerifiedResource answer with
    | .error thrown => .error thrown
    | .ok none => .error (.response 404 "")
    | .ok (some record) =>
      match shownRecord record with
      | none => .error .other
      | some record =>
        match record.components.mapM loadPackageSources with
        | none => .error .other
        | some packages => .ok {
            networkName := networkName
            packages := packages
            verificationStatus := record.verificationStatus
            standardAccountComponents := record.standardAccountComponents }

def errorPage : LoadError → Page Sources
  | .response status statusText =>
    if status = 404 then .error "404" "The requested page could not be found."
    else .error "Error" (if statusText = "" then "An unexpected error occurred." else statusText)
  | .other => .error "Error" "An unexpected error occurred."

def errorBoundary (networkId : String) (thrown : LoadError) : Page Sources :=
  match getNetworkName networkId, thrown with
  | some _, .response status statusText =>
    if status = 404 then .notVerified else errorPage (.response status statusText)
  | _, thrown => errorPage thrown

def verifiedResource (networkId : String) (answer : Option RegistryAnswer) : Page Sources :=
  match loadResourcePage loadPackageSources networkId answer with
  | .ok page => .resource page
  | .error thrown => errorBoundary networkId thrown

theorem errorPage_ne (thrown : LoadError) : (errorPage thrown : Page Sources) ≠ .notVerified := by
  cases thrown with
  | response status statusText => simp only [errorPage]; split <;> nofun
  | other => nofun

theorem errorBoundary_notVerified {networkId : String} {thrown : LoadError}
    (shown : (errorBoundary networkId thrown : Page Sources) = .notVerified) :
    (getNetworkName networkId).isSome ∧ ∃ statusText, thrown = .response 404 statusText := by
  cases known : getNetworkName networkId with
  | none =>
    simp only [errorBoundary, known] at shown
    exact absurd shown (errorPage_ne thrown)
  | some networkName =>
    cases thrown with
    | other =>
      simp only [errorBoundary, known] at shown
      exact absurd shown (errorPage_ne .other)
    | response status statusText =>
      simp only [errorBoundary, known] at shown
      split at shown
      · rename_i notFound
        exact ⟨rfl, statusText, by rw [notFound]⟩
      · exact absurd shown (errorPage_ne _)

theorem getVerifiedResource_error {answer : Option RegistryAnswer} {thrown : LoadError}
    (failed : getVerifiedResource answer = .error thrown) (statusText : String) :
    thrown ≠ .response 404 statusText := by
  cases answer with
  | none => obtain rfl := Except.error.inj failed; nofun
  | some answer =>
    simp only [getVerifiedResource] at failed
    split at failed
    · cases failed
    · split at failed
      · rename_i outage
        obtain rfl := Except.error.inj failed
        intro same
        injection same with status
        omega
      · cases answer with
        | ok record => cases failed
        | error status retryAfter message => obtain rfl := Except.error.inj failed; nofun

theorem getVerifiedResource_none {answer : Option RegistryAnswer}
    (none : getVerifiedResource answer = .ok none) :
    ∃ registry, answer = some registry ∧ registry.status = 404 := by
  cases answer with
  | none => cases none
  | some registry =>
    refine ⟨registry, rfl, ?_⟩
    simp only [getVerifiedResource] at none
    split at none
    · assumption
    · split at none
      · cases none
      · cases registry <;> cases none

theorem loadResourcePage_notFound {networkId statusText : String} {answer : Option RegistryAnswer}
    (known : (getNetworkName networkId).isSome)
    (thrown : loadResourcePage loadPackageSources networkId answer =
      .error (.response 404 statusText)) :
    ∃ registry, answer = some registry ∧ registry.status = 404 := by
  obtain ⟨networkName, known⟩ := Option.isSome_iff_exists.mp known
  simp only [loadResourcePage, known] at thrown
  cases got : getVerifiedResource answer with
  | error failure =>
    simp only [got] at thrown
    exact absurd (Except.error.inj thrown) (getVerifiedResource_error got statusText)
  | ok record =>
    cases record with
    | none => exact getVerifiedResource_none got
    | some record =>
      simp only [got] at thrown
      split at thrown
      · cases thrown
      · split at thrown <;> cases thrown

theorem verifiedResource_notVerified {networkId : String} {answer : Option RegistryAnswer}
    (shown : verifiedResource loadPackageSources networkId answer = .notVerified) :
    ∃ registry, answer = some registry ∧ registry.status = 404 := by
  unfold verifiedResource at shown
  split at shown
  · cases shown
  · rename_i thrown loaded
    obtain ⟨known, statusText, rfl⟩ := errorBoundary_notVerified shown
    exact loadResourcePage_notFound loadPackageSources known loaded

theorem lookup_classified (parse : String → Option ImportedResource)
    (database : Except String Database) (networkId : String) (kind : Kind) (id : String)
    (call : ImportCall) :
    Classified parse database networkId kind id call
        (getById database networkId kind id (call.fetched parse)) ∧
      ∀ answer, verifiedResource loadPackageSources networkId answer = .notVerified →
        ∃ registry, answer = some registry ∧ registry.status = 404 :=
  ⟨getById_classified parse database networkId kind id call,
    fun _ shown => verifiedResource_notVerified loadPackageSources shown⟩

end

theorem error_page_keeps_status :
    ¬ ∀ (database : Except String Database) (networkId : String) (kind : Kind) (id : String)
      (status : Nat) (notOk : ¬ isOk status) (retryAfter : Option String),
      (getById database networkId kind id
        (.answered (.failed status notOk retryAfter .notJson))).status = 502 := by
  intro always
  have unavailable := always (.error "unread") "mtst" .account "0x8d47282fd52608116741a813b3ae2d" 503
    (by unfold isOk; omega) (some "30")
  exact absurd unavailable (by decide)

end SourceVerification.Viewer
