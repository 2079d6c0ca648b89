import SourceVerification.Registry.MidenImport
import SourceVerification.Registry.Served

set_option autoImplicit false

namespace SourceVerification.Registry

open Compile Results

section

-- `roots` are those of miden-standards' components.
variable (client : MidenClient) (roots : String → List Word)

def midenImport (fault : Option String) (networkId resourceId : String) : ToolRun ImportedResource :=
  match fault with
  | some message => .error message false
  | none =>
    match MidenImport.run client roots networkId resourceId with
    | .ok output => .output output
    | .error (.notFound message) => .error message true
    | .error (.failed message) => .error message false

def getImport (fault : Option String) (networkId resourceId : String) : Answer ImportedResource :=
  importAnswer (midenImport client roots fault networkId resourceId)

/-- Both name one resource of the network. -/
def SameResource (networkId id other : String) : Prop :=
  match parseResourceId client id, parseResourceId client other with
  | .ok (.account network accountId), .ok (.account _ otherId) =>
    accountId = otherId ∧ ∀ named ∈ network, client.newNetworkId networkId = .ok named
  | .ok (.note noteId), .ok (.note otherId) => noteId = otherId
  | _, _ => False

variable {client}

theorem root_imported (resource : OnChain) : (MidenImport.imported roots resource).root = resource.root := by
  cases resource <;> rfl

theorem kind_imported (resource : OnChain) : (MidenImport.imported roots resource).kind = resource.kind := by
  cases resource <;> rfl

theorem readResource_same {networkId id other : String} (same : SameResource client networkId id other) {resource : OnChain}
    (read : readResource client ⟨networkId, other, none⟩ = .ok resource) :
    readResource client ⟨networkId, id, none⟩ = .ok resource := by
  obtain ⟨network, network_named, rest⟩ := bind_eq_ok.mp read
  dsimp only at rest
  split_ifs at rest with supported
  obtain ⟨_, built, rest⟩ := bind_eq_ok.mp rest
  obtain ⟨parsed, names, rest⟩ := bind_eq_ok.mp rest
  unfold SameResource at same
  rw [names] at same
  cases named' : parseResourceId client id with
  | error failure =>
    rw [named'] at same
    cases same
  | ok reads =>
    rw [named'] at same
    refine bind_eq_ok.mpr ⟨network, network_named, ?_⟩
    dsimp only
    rw [if_neg (not_not.mpr supported)]
    refine bind_eq_ok.mpr ⟨_, built, bind_eq_ok.mpr ⟨reads, named', ?_⟩⟩
    cases reads with
    | account ownNetwork accountId =>
      cases parsed with
      | note noteId => cases same
      | account otherNetwork otherId =>
        obtain ⟨rfl, networks⟩ := same
        dsimp only at rest ⊢
        split_ifs at rest with clash
        have agrees : ¬ ownNetwork.any (· ≠ network) = true := by
          cases ownNetwork with
          | none => simp
          | some own =>
            have here := networks own rfl
            rw [mapError_eq_ok.mp network_named, Except.ok.injEq] at here
            simp [here]
        rw [if_neg agrees]
        obtain ⟨account, imported, rfl⟩ := map_eq_ok.mp rest
        refine map_eq_ok.mpr ⟨account, ?_, rfl⟩
        unfold importAccount at imported ⊢
        obtain ⟨held, ran, found⟩ := bind_eq_ok.mp imported
        cases held with
        | none => cases found
        | some held => exact bind_eq_ok.mpr ⟨some held, ran, found⟩
    | note noteId =>
      cases parsed with
      | account otherNetwork otherId => cases same
      | note otherId =>
        obtain rfl : noteId = otherId := same
        obtain ⟨script, imported, rfl⟩ := map_eq_ok.mp rest
        refine map_eq_ok.mpr ⟨script, ?_, rfl⟩
        unfold importNoteScript at imported ⊢
        obtain ⟨held, ran, found⟩ := bind_eq_ok.mp imported
        cases held with
        | none => cases found
        | some held => exact bind_eq_ok.mpr ⟨some held, ran, found⟩

theorem named_of_read {args : VerifierArgs} {resource : OnChain}
    (read : readResource client args = .ok resource) :
    ∃ named, parseResourceId client args.resourceId = .ok named ∧ named.kind = resource.kind := by
  obtain ⟨network, _, rest⟩ := bind_eq_ok.mp read
  split_ifs at rest
  obtain ⟨_, _, rest⟩ := bind_eq_ok.mp rest
  obtain ⟨named, names, rest⟩ := bind_eq_ok.mp rest
  refine ⟨named, names, ?_⟩
  cases named with
  | account networkId accountId =>
    dsimp only at rest
    split_ifs at rest
    obtain ⟨account, _, rfl⟩ := map_eq_ok.mp rest
    rfl
  | note noteId =>
    obtain ⟨script, _, rfl⟩ := map_eq_ok.mp rest
    rfl

theorem midenImport_of_read {networkId resourceId : String} {resource : OnChain}
    (read : readResource client ⟨networkId, resourceId, none⟩ = .ok resource) :
    midenImport client roots none networkId resourceId = .output (MidenImport.imported roots resource) := by
  simp only [midenImport, MidenImport.run_same, read]
  rfl

theorem fetchJson_getImport {networkId resourceId : String} {resource : OnChain}
    (read : readResource client ⟨networkId, resourceId, none⟩ = .ok resource) :
    fetchJson (.answered (getImport client roots none networkId resourceId)) =
      .ok (MidenImport.imported roots resource) := by
  rw [getImport, midenImport_of_read roots read]
  rfl

theorem verifyOnChain_root {package : Compile.Package} {commitment : Word} {resource : OnChain}
    {output : MidenVerifierOutput} (checked : verifyOnChain client package resource = .ok output) :
    (output.answer commitment).2 = resource.root := by
  cases resource with
  | account account =>
    obtain ⟨components, rfl, -⟩ := verifyAccountComponent_tagged client commitment.text checked
    rfl
  | note script =>
    obtain rfl : verifyNoteScript client script package = output := Except.ok.inj checked
    rfl

theorem verifyOnChain_error {package : Compile.Package} {resource : OnChain} {failure : Failure}
    (failed : verifyOnChain client package resource = .error failure) :
    resource.kind = .account ∧ package.exports = [] ∧ failure = .rejected "Package has no exports" := by
  cases resource with
  | account account =>
    simp only [verifyOnChain, verifyAccountComponent] at failed
    split_ifs at failed with custom empty
    exact ⟨rfl, empty, (Except.error.inj failed).symm⟩
  | note script => cases failed

/-- What the two routes make of a resource: where the import fails, the verification fails with the same message, and
where it finds the resource, the verification is of that one's code. -/
theorem importer_agrees (client : MidenClient) (roots : String → List Word) (networkId resourceId : String)
    (package : Compile.Package) (commitment : Word) :
    (∃ message rejected, midenImport client roots none networkId resourceId = .error message rejected ∧
      (getImport client roots none networkId resourceId).status = (if rejected then 404 else 502) ∧
      verify client none ⟨networkId, resourceId, none⟩ package commitment =
        .error ⟨if rejected then 400 else 502, message⟩) ∨
    ∃ resource, midenImport client roots none networkId resourceId = .output resource ∧
      ((∃ verified, verify client none ⟨networkId, resourceId, none⟩ package commitment =
          .ok (verified, resource.root)) ∨
        resource.kind = .account ∧ package.exports = [] ∧
          verify client none ⟨networkId, resourceId, none⟩ package commitment =
            .error ⟨400, "Package has no exports"⟩) := by
  cases read : readResource client ⟨networkId, resourceId, none⟩ with
  | error failure =>
    have stopped : runVerifier client ⟨networkId, resourceId, none⟩ package = .error failure := by
      simp only [runVerifier, read]
      rfl
    have unread : MidenImport.run client roots networkId resourceId = .error (MidenImport.ofVerifier failure) := by
      rw [MidenImport.run_same, read]
      rfl
    left
    cases failure with
    | rejected message =>
      have imports : midenImport client roots none networkId resourceId = .error message true := by
        simp only [midenImport, unread, MidenImport.ofVerifier]
      have verifies : midenVerifier client none ⟨networkId, resourceId, none⟩ package = .error message true := by
        simp only [midenVerifier, stopped]
      refine ⟨message, true, imports, ?_, ?_⟩
      · rw [getImport, imports]
        rfl
      · rw [verify, verifies]
    | failed message =>
      have imports : midenImport client roots none networkId resourceId = .error message false := by
        simp only [midenImport, unread, MidenImport.ofVerifier]
      have verifies : midenVerifier client none ⟨networkId, resourceId, none⟩ package = .error message false := by
        simp only [midenVerifier, stopped]
      refine ⟨message, false, imports, ?_, ?_⟩
      · rw [getImport, imports]
        rfl
      · rw [verify, verifies]
  | ok resource =>
    right
    refine ⟨MidenImport.imported roots resource, midenImport_of_read roots read, ?_⟩
    have checked := runVerifier_eq client ⟨networkId, resourceId, none⟩ package read
    cases printed : verifyOnChain client package resource with
    | ok output =>
      left
      refine ⟨(output.answer commitment).1, ?_⟩
      have answered : verify client none ⟨networkId, resourceId, none⟩ package commitment =
          .ok (output.answer commitment) := by
        simp only [verify, midenVerifier, checked, printed]
        cases output <;> rfl
      rw [answered, root_imported, ← verifyOnChain_root printed]
    | error failure =>
      obtain ⟨kind, empty, rfl⟩ := verifyOnChain_error printed
      exact .inr ⟨(kind_imported roots resource).trans kind, empty, by
        simp only [verify, midenVerifier, checked, printed]
        rfl⟩

theorem postVerify_read {api : ApiCompile} {request : VerifyRequest} {response : VerifyResponse}
    (answered : postVerify api request = .ok response) :
    ∃ resource, readResource api.client request.args = .ok resource ∧ response.root = resource.root := by
  unfold postVerify at answered
  cases opened : openProject api.parseToml request.files request.entrypoint with
  | error error => simp [opened] at answered
  | ok project =>
    simp only [opened] at answered
    split_ifs at answered with networkId resourceId
    cases built : api.queueCompile project request.debug with
    | error error => simp [built] at answered
    | ok build =>
      cases build with
      | failed stderr => simp [built] at answered
      | built compiled =>
        simp only [built] at answered
        cases ran : verify api.client api.toolFault request.args compiled.package
            compiled.package.dependencyCommitment with
        | error error => simp [ran] at answered
        | ok answer =>
          obtain ⟨_, resource, output, read, checked, rfl⟩ := verify_eq_ok api.client ran
          simp only [ran, Except.ok.injEq] at answered
          subst answered
          exact ⟨resource, read, verifyOnChain_root checked⟩

end

/-- A verification that is answered as verified is found by every id of the resource, as long as the chain holds it as
the verifier read it and no cleanup finds it expired. -/
theorem verified_looked_up (roots : String → List Word) (calls later : List ServiceCall) (request : PostRequest)
    (verified : (postVerified (serveAll calls) request).1 = .ok true)
    (itsKind : ∀ named, parseResourceId request.api.client request.resource.id = .ok named →
      named.kind = request.kind) :
    ∃ project build, openProject request.api.parseToml request.files request.entrypoint = .ok project ∧
      request.answer project = .ok build ∧
      ((∀ call ∈ later, Spares (request.entry build) call) →
        ∀ id, SameResource request.api.client request.networkId id request.resource.id →
          ∃ record, getById (.ok (serveAll (calls ++ .post request :: later)).db) request.networkId request.kind id
              (.answered (getImport request.api.client roots none request.networkId id)) = .ok record ∧
            record.Shows (serveAll (calls ++ .post request :: later)) id (request.entry build)) := by
  obtain ⟨project, build, opened, built, -, kept⟩ := verified_kept later verified
  refine ⟨project, build, opened, built, fun spared id same => ?_⟩
  obtain ⟨resource, read, root⟩ := postVerify_read (request.answer_eq_ok built)
  have onChain : readResource request.api.client ⟨request.networkId, request.resource.id, none⟩ = .ok resource := read
  have kind : resource.kind = request.kind := by
    obtain ⟨named, names, held⟩ := named_of_read onChain
    exact held.symm.trans (itsKind named names)
  have still := kept spared
  have imported := fetchJson_getImport roots (readResource_same same onChain)
  rw [root, ← kind, ← kind_imported roots, ← root_imported roots] at still
  rw [← kind, ← kind_imported roots]
  exact getById_shows (serves_integrity integrity_empty _) still imported id

def counterAddress : String := "mtst1azk5rtvwvam2rytnv68sg07qsy44y4ed"

def addressPost : PostRequest :=
  { counterPost counterAccountId with
    api := { counterApi with
      client := { counterClient with
        decodeAddress := fun id => if id = counterAddress then some ("mtst", some counterAccountId) else none } } }

theorem counter_looked_up : ∃ record,
    getById (.ok (serveAll (.post addressPost :: dayAfter)).db) "mtst" .account counterAddress
        (.answered (getImport addressPost.api.client (fun _ => []) none "mtst" counterAddress)) = .ok record ∧
      record.Shows (serveAll (.post addressPost :: dayAfter)) counterAddress
        { packageCommitment := counterCommitment, source := "unknown", createdAt := 0 } := by
  obtain ⟨project, build, opened, built, found⟩ := verified_looked_up (fun _ => []) [] dayAfter addressPost rfl
    fun named names => by
      obtain rfl := Except.ok.inj names
      rfl
  obtain rfl := Except.ok.inj opened
  obtain rfl := Except.ok.inj built
  refine found (dayAfter_spares rfl) counterAddress ⟨rfl, ?_⟩
  intro named here
  obtain rfl := Option.some.inj here
  rfl

end SourceVerification.Registry
