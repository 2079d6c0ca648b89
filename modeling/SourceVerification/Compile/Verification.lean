import SourceVerification.Compile.Verifier

set_option autoImplicit false

namespace SourceVerification.Compile

theorem standardName_ne_customTag (component : AccountComponentInterface) (name commitment : String)
    (standard : component.standardName = some name) : name ≠ customTag commitment := by
  intro same
  subst same
  have start : (customTag commitment).toList.take 2 = ['C', 'u'] := by
    simp [customTag, String.toList_append]
  cases component <;> simp only [AccountComponentInterface.standardName, Option.some.injEq,
    reduceCtorEq] at standard
  all_goals rw [← standard] at start; exact absurd start (by decide)

theorem hasCustomCode_iff {procedures : List Word} (classification : Classification procedures) :
    classification.interface.any (·.standardName.isNone) = true ↔
      ∃ procedure ∈ procedures, classification.standard procedure = false := by
  have bucket : ∀ component : AccountComponentInterface, ∀ procedure ∈ component.customProcedures,
      component.standardName = none := by
    intro component procedure member
    cases component <;> first | rfl | cases member
  simp only [List.any_eq_true, Option.isNone_iff_eq_none]
  constructor
  · rintro ⟨component, member, custom⟩
    obtain ⟨procedure, inside, held⟩ := classification.nonempty component member custom
    exact ⟨procedure, inside, (classification.leftover procedure inside).mpr ⟨component, member, held⟩⟩
  · rintro ⟨procedure, inside, outside⟩
    obtain ⟨component, member, held⟩ := (classification.leftover procedure inside).mp outside
    exact ⟨component, member, bucket component procedure held⟩

section

variable (client : MidenClient)

def AccountMatches (account : Account) (package : Package) : Prop :=
  (∃ procedure ∈ account.procedures,
    (client.fromProcedures account.procedures).standard procedure = false) ∧
  package.componentModelProcedures ≠ [] ∧
  ∀ procedure ∈ package.componentModelProcedures, procedure.digest ∈ account.procedures

def NoteMatches (script : NoteScript) (package : Package) : Prop :=
  client.standardNote script = none ∧
  ∃ procedure, package.componentModelProcedures.head? = some procedure ∧
    procedure.digest = script.root

def Matches (package : Package) : OnChain → Prop
  | .account account => AccountMatches client account package
  | .note script => NoteMatches client script package

def OnChain.root : OnChain → Word
  | .account held => held.commitment
  | .note script => script.root

def verifyOnChain (package : Package) : OnChain → Except Failure MidenVerifierOutput
  | .account account => verifyAccountComponent client account package
  | .note script => .ok (verifyNoteScript client script package)

def MidenVerifierOutput.answer (commitment : Word) : MidenVerifierOutput → Bool × Word
  | .account code components => (components.contains (customTag commitment.text), code)
  | .note code script => (script == customTag commitment.text, code)

theorem runVerifier_eq (args : VerifierArgs) (package : Package) {resource : OnChain}
    (read : readResource client args = .ok resource) :
    runVerifier client args package = verifyOnChain client package resource := by
  simp only [runVerifier, read]
  cases resource <;> rfl

theorem standardNames_no_customTag (interface : List AccountComponentInterface) (commitment : String) :
    customTag commitment ∉ interface.filterMap (·.standardName) := by
  intro member
  obtain ⟨component, _, standard⟩ := List.mem_filterMap.mp member
  exact standardName_ne_customTag component _ commitment standard rfl

theorem verifyAccountComponent_tag (account : Account) (package : Package)
    (exporting : package.exports ≠ [])
    (display : ∀ word, client.display word = word.text) :
    ∃ components, verifyAccountComponent client account package =
        .ok (.account account.commitment components) ∧
      (customTag package.dependencyCommitment.text ∈ components ↔
        AccountMatches client account package) := by
  have absent := standardNames_no_customTag (client.fromProcedures account.procedures).interface
    package.dependencyCommitment.text
  have custom := hasCustomCode_iff (client.fromProcedures account.procedures)
  unfold verifyAccountComponent AccountMatches
  rw [← custom]
  by_cases hasCustomCode :
      (client.fromProcedures account.procedures).interface.any (·.standardName.isNone) = true
  · have held : (!package.componentModelProcedures.isEmpty &&
        package.componentModelProcedures.all fun procedure =>
          account.procedures.contains procedure.digest) = true ↔
        package.componentModelProcedures ≠ [] ∧
          ∀ procedure ∈ package.componentModelProcedures, procedure.digest ∈ account.procedures := by
      simp
    simp only [hasCustomCode, if_true, if_neg exporting, true_and, ← held, display]
    refine ⟨_, rfl, ?_⟩
    split
    · rename_i verified
      exact iff_of_true (List.mem_append_right _ (List.mem_singleton_self _)) verified
    · rename_i unverified
      exact iff_of_false absent unverified
  · simp only [hasCustomCode, if_false, false_and, Bool.false_eq_true]
    exact ⟨_, rfl, iff_of_false absent id⟩

theorem verifyNoteScript_tag (script : NoteScript) (package : Package)
    (display : ∀ word, client.display word = word.text)
    (names : ∀ name, client.standardNote script = some name →
      name ≠ customTag package.dependencyCommitment.text) :
    ∃ printed, verifyNoteScript client script package = .note script.root printed ∧
      (printed = customTag package.dependencyCommitment.text ↔
        NoteMatches client script package) := by
  have blank : "" ≠ customTag package.dependencyCommitment.text := by
    intro same
    have lists := congrArg String.toList same
    simp [customTag, String.toList_append] at lists
  refine ⟨_, rfl, ?_⟩
  unfold NoteMatches
  cases standard : client.standardNote script with
  | some name => exact iff_of_false (names name standard) (by simp)
  | none =>
    cases entrypoint : package.componentModelProcedures.head? with
    | none => exact iff_of_false blank (by simp)
    | some procedure =>
      by_cases same : procedure.digest = script.root
      · simp [same, display]
      · simpa [same] using blank

/-- A run of `POST /verify` that gets as far as checking: the project opens and builds, and the
verifier runs and reads the resource. -/
structure Checks (api : ApiCompile) (request : VerifyRequest) (compiled : Compiled)
    (resource : OnChain) : Prop where
  builds : ∃ project, openProject api.parseToml request.files request.entrypoint = .ok project ∧
    api.queueCompile project request.debug = .ok (.built compiled)
  networkId : request.networkId ≠ ""
  resourceId : request.resourceId ≠ ""
  ran : api.toolFault = none
  reads : readResource api.client request.args = .ok resource

theorem postVerify_checks {api : ApiCompile} {request : VerifyRequest} {compiled : Compiled}
    {resource : OnChain} (checks : Checks api request compiled resource) {verified : Bool} {root : Word}
    (answer : verify api.client none request.args compiled.package
      compiled.package.dependencyCommitment = .ok (verified, root)) :
    ∃ response, postVerify api request = .ok response ∧ response.verified = verified ∧
      response.root = root ∧ response.commitment = compiled.package.dependencyCommitment := by
  obtain ⟨project, opened, built⟩ := checks.builds
  unfold postVerify
  simp only [opened, built, checks.networkId, checks.resourceId, checks.ran, answer, if_false]
  exact ⟨_, rfl, rfl, rfl, rfl⟩

theorem postVerify_verified_iff (api : ApiCompile) (request : VerifyRequest) (compiled : Compiled)
    (resource : OnChain) (checks : Checks api request compiled resource)
    (exporting : compiled.package.exports ≠ [])
    (display : ∀ word, api.client.display word = word.text)
    (names : ∀ script name, api.client.standardNote script = some name →
      name ≠ customTag compiled.package.dependencyCommitment.text) :
    ∃ response, postVerify api request = .ok response ∧
      (response.verified = true ↔ Matches api.client compiled.package resource) ∧
      response.root = resource.root ∧
      response.commitment = compiled.package.dependencyCommitment := by
  cases resource with
  | account account =>
    obtain ⟨components, printed, tagged⟩ :=
      verifyAccountComponent_tag api.client account compiled.package exporting display
    have ran : runVerifier api.client request.args compiled.package =
        .ok (.account account.commitment components) := by
      rw [runVerifier_eq api.client request.args compiled.package checks.reads]
      exact printed
    have answer : verify api.client none request.args compiled.package
        compiled.package.dependencyCommitment =
        .ok (components.contains (customTag compiled.package.dependencyCommitment.text),
          account.commitment) := by
      simp only [verify, midenVerifier, ran]
    obtain ⟨response, answered, verified, root, commitment⟩ := postVerify_checks checks answer
    refine ⟨response, answered, ?_, root, commitment⟩
    rw [verified, List.contains_iff_mem, tagged]
    rfl
  | note script =>
    obtain ⟨text, printed, tagged⟩ :=
      verifyNoteScript_tag api.client script compiled.package display (names script)
    have ran : runVerifier api.client request.args compiled.package =
        .ok (.note script.root text) := by
      rw [runVerifier_eq api.client request.args compiled.package checks.reads]
      exact congrArg Except.ok printed
    have answer : verify api.client none request.args compiled.package
        compiled.package.dependencyCommitment =
        .ok (text == customTag compiled.package.dependencyCommitment.text, script.root) := by
      simp only [verify, midenVerifier, ran]
    obtain ⟨response, answered, verified, root, commitment⟩ := postVerify_checks checks answer
    refine ⟨response, answered, ?_, root, commitment⟩
    rw [verified, beq_iff_eq, tagged]
    rfl

def OnChain.kind : OnChain → Kind
  | .account _ => .account
  | .note _ => .note

/-- The names `StandardNote` gives are not tags of custom code. -/
def StandardNames : Prop :=
  ∀ script name, client.standardNote script = some name →
    ∀ commitment, name ≠ customTag commitment

-- A tag in the output comes from the check, whatever `Display` prints the commitment as.
theorem verifyAccountComponent_tagged {account : Account} {package : Package}
    {output : MidenVerifierOutput} (commitment : String)
    (ran : verifyAccountComponent client account package = .ok output) :
    ∃ components, output = .account account.commitment components ∧
      (customTag commitment ∈ components → AccountMatches client account package) := by
  have absent := standardNames_no_customTag (client.fromProcedures account.procedures).interface
    commitment
  have custom := hasCustomCode_iff (client.fromProcedures account.procedures)
  unfold verifyAccountComponent at ran
  unfold AccountMatches
  rw [← custom]
  dsimp only at ran
  split at ran
  · rename_i hasCustomCode
    split at ran
    · cases ran
    · obtain rfl := Except.ok.inj ran
      refine ⟨_, rfl, fun tagged => ?_⟩
      split at tagged
      · rename_i verified
        simp only [Bool.and_eq_true, Bool.not_eq_true', List.isEmpty_eq_false_iff, List.all_eq_true,
          List.contains_iff_mem] at verified
        exact ⟨hasCustomCode, verified⟩
      · exact absurd tagged absent
  · obtain rfl := Except.ok.inj ran
    exact ⟨_, rfl, fun tagged => absurd tagged absent⟩

theorem verifyNoteScript_tagged (script : NoteScript) (package : Package) (commitment : String)
    (names : StandardNames client) :
    ∃ printed, verifyNoteScript client script package = .note script.root printed ∧
      (printed = customTag commitment → NoteMatches client script package) := by
  refine ⟨_, rfl, ?_⟩
  unfold NoteMatches
  have blank : "" ≠ customTag commitment := by
    intro same
    have lists := congrArg String.toList same
    simp [customTag, String.toList_append] at lists
  cases standard : client.standardNote script with
  | some name => exact fun tagged => absurd tagged (names script name standard commitment)
  | none =>
    cases entrypoint : package.componentModelProcedures.head? with
    | none => exact fun tagged => absurd tagged blank
    | some procedure =>
      intro tagged
      dsimp only at tagged
      split at tagged
      · exact ⟨rfl, procedure, rfl, by assumption⟩
      · exact absurd tagged blank

theorem verify_eq_ok {fault : Option String} {args : VerifierArgs} {package : Package}
    {commitment : Word} {answer : Bool × Word}
    (ran : verify client fault args package commitment = .ok answer) :
    fault = none ∧ ∃ resource output, readResource client args = .ok resource ∧
      verifyOnChain client package resource = .ok output ∧ answer = output.answer commitment := by
  cases fault with
  | some message => cases ran
  | none =>
    cases read : readResource client args with
    | error failure =>
      have stopped : runVerifier client args package = .error failure := by
        simp only [runVerifier, read]
        rfl
      simp only [verify, midenVerifier, stopped] at ran
      cases failure <;> cases ran
    | ok resource =>
      have checked := runVerifier_eq client args package read
      cases printed : verifyOnChain client package resource with
      | error failure =>
        simp only [verify, midenVerifier, checked, printed] at ran
        cases failure <;> cases ran
      | ok output =>
        simp only [verify, midenVerifier, checked, printed] at ran
        refine ⟨rfl, resource, output, rfl, printed, ?_⟩
        cases output <;> exact (Except.ok.inj ran).symm

theorem verify_checked {fault : Option String} {args : VerifierArgs} {package : Package}
    {commitment : Word} {verified : Bool} {root : Word} (names : StandardNames client)
    (ran : verify client fault args package commitment = .ok (verified, root)) :
    fault = none ∧ ∃ resource, readResource client args = .ok resource ∧ root = resource.root ∧
      (verified = true → Matches client package resource) := by
  obtain ⟨ran, resource, output, read, checked, answer⟩ := verify_eq_ok client ran
  refine ⟨ran, resource, read, ?_⟩
  cases resource with
  | account account =>
    obtain ⟨components, rfl, tagged⟩ :=
      verifyAccountComponent_tagged client commitment.text checked
    obtain ⟨rfl, rfl⟩ := Prod.mk.inj answer
    exact ⟨rfl, fun verified => tagged (List.contains_iff_mem.mp verified)⟩
  | note script =>
    obtain ⟨printed, printedEq, tagged⟩ :=
      verifyNoteScript_tagged client script package commitment.text names
    obtain rfl : verifyNoteScript client script package = output := Except.ok.inj checked
    rw [printedEq] at answer
    obtain ⟨rfl, rfl⟩ := Prod.mk.inj answer
    exact ⟨rfl, fun verified => tagged (beq_iff_eq.mp verified)⟩

-- What `POST /verify` answers comes of a check of the package it built.
theorem postVerify_checked {api : ApiCompile} {request : VerifyRequest} {response : VerifyResponse}
    (names : StandardNames api.client) (answered : postVerify api request = .ok response) :
    ∃ compiled resource, Checks api request compiled resource ∧ response.root = resource.root ∧
      (response.verified = true → Matches api.client compiled.package resource) := by
  unfold postVerify at answered
  cases opened : openProject api.parseToml request.files request.entrypoint with
  | error error => simp [opened] at answered
  | ok project =>
    simp only [opened] at answered
    split_ifs at answered with networkId resourceId
    cases built : api.queueCompile project request.debug with
    | error error => simp [built] at answered
    | ok build =>
      cases build with
      | failed stderr => simp [built] at answered
      | built compiled =>
        simp only [built] at answered
        cases ran : verify api.client api.toolFault request.args compiled.package
            compiled.package.dependencyCommitment with
        | error error => simp [ran] at answered
        | ok answer =>
          obtain ⟨verified, root⟩ := answer
          obtain ⟨healthy, resource, read, same, holds⟩ := verify_checked api.client names ran
          simp only [ran, Except.ok.injEq] at answered
          subst answered
          exact ⟨compiled, resource, ⟨⟨project, opened, built⟩, networkId, resourceId, healthy, read⟩,
            same, holds⟩

end

def counterRoot : Word :=
  ⟨"0x1111111111111111111111111111111111111111111111111111111111111111", by decide⟩

def counterCode : Word :=
  ⟨"0x2222222222222222222222222222222222222222222222222222222222222222", by decide⟩

def counterCommitment : Word :=
  ⟨"0x3333333333333333333333333333333333333333333333333333333333333333", by decide⟩

def counterAccountId : String := "0x858c680a7a66d2916230cc8c2a6c98"

def counterNoteId : String :=
  "0xcccccccccccccccccccccccccccccccccccccccccccccccccccccccccccccccc"

def counterAccount : Account where
  procedures := [counterRoot]
  commitment := counterCode

def counterScript : NoteScript where
  root := counterRoot

def counterPackage : Package where
  exports := [.procedure ⟨"::counter::get_count", counterRoot, some .componentModel⟩]
  dependencyCommitment := counterCommitment

def allCustom (procedures : List Word) : Classification procedures where
  interface := if procedures = [] then [] else [.custom procedures]
  standard _ := false
  leftover procedure member := by
    have some_procedure : procedures ≠ [] := List.ne_nil_of_mem member
    simp [some_procedure, AccountComponentInterface.customProcedures, member]
  nonempty component member _ := by
    split at member
    · cases member
    · rename_i some_procedure
      obtain rfl := List.mem_singleton.mp member
      exact List.exists_mem_of_ne_nil procedures some_procedure |>.imp fun _ held => ⟨held, held⟩

def counterClient : MidenClient where
  newNetworkId network := .ok network
  build _ := .ok ()
  parseAccountId id := if id = counterAccountId then some (id, none) else none
  decodeAddress _ := none
  noteIdFromHex id := if id = counterNoteId then some id else none
  importAccountById _ _ := .ok (some counterAccount)
  importNote _ _ := .ok (some counterScript)
  readAccount _ := .error "invalid account"
  readNote _ := .error "invalid note"
  fromProcedures := allCustom
  standardNote _ := none
  display word := word.text

def counterFiles : Json :=
  .object [("Cargo.toml", .string "[package]"), ("miden-project.toml", .string "")]

def counterCompiled : Compiled where
  package := counterPackage
  masp := [1]
  kind := .accountComponent
  manifest := .null
  readOnly := .null
  files := [("Cargo.toml", "[package]"), ("miden-project.toml", "")]
  cargoMidenVersion := none
  debug := none

def counterApi : ApiCompile where
  parseToml _ := some [("package", .object [("name", .string "counter")])]
  queueCompile _ _ := .ok (.built counterCompiled)
  client := counterClient
  toolFault := none

def counterRequest (resourceId : String) : VerifyRequest where
  files := some counterFiles
  entrypoint := none
  networkId := "mtst"
  resourceId := resourceId
  resource := none
  debug := false

theorem counter_checks :
    Checks counterApi (counterRequest counterAccountId) counterCompiled (.account counterAccount) where
  builds := ⟨_, rfl, rfl⟩
  networkId := by decide
  resourceId := by decide
  ran := rfl
  reads := rfl

theorem counter_verified_iff :
    ∃ response, postVerify counterApi (counterRequest counterAccountId) = .ok response ∧
      (response.verified = true ↔ Matches counterClient counterPackage (.account counterAccount)) ∧
      response.root = (OnChain.account counterAccount).root ∧
      response.commitment = counterCommitment :=
  postVerify_verified_iff counterApi (counterRequest counterAccountId) counterCompiled
    (.account counterAccount) counter_checks (List.cons_ne_nil _ _) (fun _ => rfl)
    (fun _ _ standard => nomatch standard)

end SourceVerification.Compile
