import SourceVerification.Compile.Verification
import SourceVerification.Registry.Recording

set_option autoImplicit false

namespace SourceVerification.Registry

open Tables Results Compile

/-- A `POST /:networkId/verified-accounts` or `/:networkId/verified-notes`, and what it meets. -/
structure PostRequest where
  -- Of the route.
  kind : Kind
  networkId : String
  -- `accountId` or `noteId`.
  id : Option String
  files : Option Json
  entrypoint : Option Json
  source : Option Json
  api : ApiCompile
  -- Why api-compile could not be reached.
  outage : Option HttpError
  faults : Faults
  now : Time

def PostRequest.resource (request : PostRequest) : Resource :=
  match request.kind with
  | .account => .account (request.id.getD "")
  | .note => .note (request.id.getD "")

def missingId : Kind → Error
  | .account => .http ⟨400, "missing accountId"⟩
  | .note => .http ⟨400, "missing noteId"⟩

def sourceOf : Option Json → String
  | some (.string source) => source
  | _ => "unknown"

/-- What the registry posts to `/verify`: the project, and no file for the resource. -/
def PostRequest.verifyRequest (request : PostRequest) (project : Project) : VerifyRequest where
  files := some (.object (project.files.map fun (path, content) => (path, .string content)))
  entrypoint := some (.string project.entrypoint)
  networkId := request.networkId
  resourceId := request.resource.id
  resource := none
  -- The simulator only runs account procedures.
  debug := request.resource.kind = .account

def PostRequest.answer (request : PostRequest) (project : Project) : Except Error VerifyResponse :=
  match request.outage with
  | some error => .error (.http error)
  | none => (postVerify request.api (request.verifyRequest project)).mapError .http

def PostRequest.input (request : PostRequest) (project : Project) : VerifyInput where
  networkId := request.networkId
  resource := request.resource
  project := project
  source := sourceOf request.source

def postVerified (state : State) (request : PostRequest) : Except Error Bool × State :=
  if request.resource.id = "" then (.error (missingId request.kind), state)
  else
    match openProject request.api.parseToml request.files request.entrypoint with
    | .error error => (.error (.http ⟨400, error⟩), state)
    | .ok project =>
      verifyResource request.faults state (request.input project) (request.answer project) request.now

def runRequests (requests : List PostRequest) : State :=
  requests.foldl (fun state request => (postVerified state request).2) .empty

def IsAccountCode (requests : List PostRequest) (root : Word) : Prop :=
  ∃ request ∈ requests, ∃ network accountId account,
    request.api.client.importAccountById network accountId = .ok (some account) ∧
      account.commitment = root

def IsNoteScript (requests : List PostRequest) (root : Word) : Prop :=
  ∃ request ∈ requests, ∃ network noteId script,
    request.api.client.importNote network noteId = .ok (some script) ∧ script.root = root

structure KindsAgree (requests : List PostRequest) (db : Database) : Prop where
  accounts : ∀ row ∈ db.accounts, IsAccountCode requests row.code
  notes : ∀ row ∈ db.notes, IsNoteScript requests row.script

/-- Where the id is one of the other kind, the project's package is not that resource's. -/
def PostRequest.NamesItsKind (request : PostRequest) : Prop :=
  ∀ project compiled resource,
    openProject request.api.parseToml request.files request.entrypoint = .ok project →
    Checks request.api (request.verifyRequest project) compiled resource →
    resource.kind ≠ request.kind → ¬ Matches request.api.client compiled.package resource

theorem imported_of_read {client : MidenClient} {args : VerifierArgs} {resource : OnChain}
    (read : readResource client args = .ok resource) : ∃ network, match resource with
      | .account account => ∃ accountId, importAccount client args network accountId = .ok account
      | .note script => ∃ noteId, importNoteScript client args network noteId = .ok script := by
  obtain ⟨network, _, rest⟩ := bind_eq_ok.mp read
  refine ⟨network, ?_⟩
  split_ifs at rest
  obtain ⟨_, _, rest⟩ := bind_eq_ok.mp rest
  obtain ⟨id, _, rest⟩ := bind_eq_ok.mp rest
  cases id with
  | account networkId accountId =>
    dsimp only at rest
    split_ifs at rest
    obtain ⟨account, imported, rfl⟩ := map_eq_ok.mp rest
    exact ⟨accountId, imported⟩
  | note noteId =>
    obtain ⟨script, imported, rfl⟩ := map_eq_ok.mp rest
    exact ⟨noteId, imported⟩

theorem importAccount_onChain {client : MidenClient} {args : VerifierArgs} {network accountId : String}
    {account : Account} (onChain : args.resource = none)
    (imported : importAccount client args network accountId = .ok account) :
    client.importAccountById network accountId = .ok (some account) := by
  simp only [importAccount, onChain] at imported
  obtain ⟨held, ran, rest⟩ := bind_eq_ok.mp imported
  cases held with
  | none => cases rest
  | some held => exact Except.ok.inj rest ▸ mapError_eq_ok.mp ran

theorem importNoteScript_onChain {client : MidenClient} {args : VerifierArgs} {network noteId : String}
    {script : NoteScript} (onChain : args.resource = none)
    (imported : importNoteScript client args network noteId = .ok script) :
    client.importNote network noteId = .ok (some script) := by
  simp only [importNoteScript, onChain] at imported
  obtain ⟨held, ran, rest⟩ := bind_eq_ok.mp imported
  cases held with
  | none => cases rest
  | some held => exact Except.ok.inj rest ▸ mapError_eq_ok.mp ran

theorem PostRequest.resource_kind (request : PostRequest) : request.resource.kind = request.kind := by
  unfold PostRequest.resource
  cases request.kind <;> rfl

theorem PostRequest.answer_eq_ok {request : PostRequest} {project : Project} {build : VerifyResponse}
    (answered : request.answer project = .ok build) :
    postVerify request.api (request.verifyRequest project) = .ok build := by
  unfold PostRequest.answer at answered
  cases outage : request.outage with
  | some error => simp [outage] at answered
  | none => exact mapError_eq_ok.mp (by simpa [outage] using answered)

theorem PostRequest.recorded_root {request : PostRequest} {requests : List PostRequest}
    {project : Project} {build : VerifyResponse} (member : request ∈ requests)
    (names : StandardNames request.api.client) (itsKind : request.NamesItsKind)
    (opened : openProject request.api.parseToml request.files request.entrypoint = .ok project)
    (answered : request.answer project = .ok build) (verified : build.verified = true) :
    (request.kind = .account → IsAccountCode requests build.root) ∧
      (request.kind = .note → IsNoteScript requests build.root) := by
  obtain ⟨compiled, resource, checks, root, holds⟩ :=
    postVerify_checked names (request.answer_eq_ok answered)
  have kinds : resource.kind = request.kind := by
    by_contra differs
    exact itsKind project compiled resource opened checks differs (holds verified)
  obtain ⟨network, imported⟩ := imported_of_read checks.reads
  cases resource with
  | account account =>
    obtain ⟨accountId, imported⟩ := imported
    refine ⟨fun _ => ?_, fun note => (nomatch kinds.trans note)⟩
    exact ⟨request, member, network, accountId, account, importAccount_onChain rfl imported, root.symm⟩
  | note script =>
    obtain ⟨noteId, imported⟩ := imported
    refine ⟨fun account => (nomatch kinds.trans account), fun _ => ?_⟩
    exact ⟨request, member, network, noteId, script, importNoteScript_onChain rfl imported, root.symm⟩

theorem postVerified_kinds {requests : List PostRequest} {state : State} {request : PostRequest}
    (member : request ∈ requests) (names : StandardNames request.api.client)
    (itsKind : request.NamesItsKind) (agree : KindsAgree requests state.db) :
    KindsAgree requests (postVerified state request).2.db := by
  unfold postVerified
  split_ifs
  · exact agree
  · cases opened : openProject request.api.parseToml request.files request.entrypoint with
    | error error => exact agree
    | ok project =>
      rcases verifyResource_records request.faults state (request.input project)
        (request.answer project) request.now with
        ⟨accounts, notes⟩ | ⟨build, package, db, answered, verified, recorded, accounts, notes⟩
      · exact ⟨accounts ▸ agree.accounts, notes ▸ agree.notes⟩
      · obtain ⟨accountRoot, noteRoot⟩ :=
          PostRequest.recorded_root member names itsKind opened answered verified
        constructor
        · intro row stored
          rcases recorded.accounts_origin (accounts ▸ stored) with old | ⟨kind, root⟩
          · exact agree.accounts row old
          · exact root ▸ accountRoot (request.resource_kind ▸ kind)
        · intro row stored
          rcases recorded.notes_origin (notes ▸ stored) with old | ⟨kind, root⟩
          · exact agree.notes row old
          · exact root ▸ noteRoot (request.resource_kind ▸ kind)

theorem runRequests_kinds (requests : List PostRequest)
    (names : ∀ request ∈ requests, StandardNames request.api.client)
    (itsKind : ∀ request ∈ requests, request.NamesItsKind) :
    KindsAgree requests (runRequests requests).db := by
  have run : ∀ rest : List PostRequest, (∀ request ∈ rest, request ∈ requests) → ∀ state : State,
      KindsAgree requests state.db →
      KindsAgree requests (rest.foldl (fun state request => (postVerified state request).2) state).db := by
    intro rest
    induction rest with
    | nil => exact fun _ _ agree => agree
    | cons request rest ih =>
      intro inside state agree
      have member := inside request (List.mem_cons_self ..)
      exact ih (fun other later => inside other (List.mem_cons_of_mem _ later)) _
        (postVerified_kinds member (names request member) (itsKind request member) agree)
  exact run requests (fun _ member => member) .empty
    ⟨by simp [State.empty], by simp [State.empty]⟩

def counterPost (id : String) : PostRequest where
  kind := .account
  networkId := "mtst"
  id := some id
  files := some counterFiles
  entrypoint := none
  source := none
  api := counterApi
  outage := none
  faults _ := false
  now := 0

theorem counter_posts_agree :
    KindsAgree [counterPost counterAccountId] (runRequests [counterPost counterAccountId]).db := by
  refine runRequests_kinds _ ?_ ?_
  · intro request member
    obtain rfl := List.mem_singleton.mp member
    exact fun _ _ standard => nomatch standard
  · intro request member
    obtain rfl := List.mem_singleton.mp member
    intro project compiled resource _ checks differs
    have read : readResource counterClient ((counterPost counterAccountId).verifyRequest project).args =
        .ok (.account counterAccount) := rfl
    obtain rfl := Except.ok.inj (read.symm.trans checks.reads)
    exact absurd rfl differs

theorem note_script_recorded_as_code :
    ¬ ∀ requests, (∀ request ∈ requests, StandardNames request.api.client) →
      KindsAgree requests (runRequests requests).db := by
  intro agree
  have names : ∀ request ∈ [counterPost counterNoteId], StandardNames request.api.client := by
    intro request member
    obtain rfl := List.mem_singleton.mp member
    exact fun _ _ standard => nomatch standard
  have stored : accountRow 1 "mtst" counterRoot 0 ∈
      (runRequests [counterPost counterNoteId]).db.accounts := List.mem_singleton_self _
  obtain ⟨request, member, network, accountId, account, imported, code⟩ :=
    (agree _ names).accounts _ stored
  obtain rfl := List.mem_singleton.mp member
  obtain rfl : counterAccount = account := Option.some.inj (Except.ok.inj imported)
  exact absurd code (by decide)

end SourceVerification.Registry
