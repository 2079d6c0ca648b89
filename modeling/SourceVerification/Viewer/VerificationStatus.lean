import Mathlib.Data.Finset.Card
import SourceVerification.Compile.AccountComponents
import SourceVerification.Compile.PackageMetadata
import SourceVerification.Registry.Lookup
import SourceVerification.Shared.Results

set_option autoImplicit false

namespace SourceVerification.Viewer

open Compile
open Registry (Database ImportedResource StandardAccountComponent VerifiedAccountById
  findVerifiedAccount)

-- `value.name`, which is `undefined` unless an object has it.
def property (name : String) : Json → Option Json
  | .object entries => entries.lookup name
  | _ => none

def abiOf (packageExport : Json) : Option Json := do
  let procedure ← property "Procedure" packageExport
  let signature ← property "signature" procedure
  property "abi" signature

def isAccountProcedure (packageExport : Json) : Bool :=
  match abiOf packageExport with
  | some (.number 3) => true
  | _ => false

-- `none` where JavaScript throws.
def accountProcedureDigest (packageExport : Json) : Option (List String) :=
  if isAccountProcedure packageExport then
    match property "Procedure" packageExport >>= property "digest" with
    | some (.string digest) => some [digest]
    | _ => none
  else some []

def manifestDigests (manifest : Json) : Option (List String) :=
  match property "exports" manifest with
  | some (.array exports) => do
    let digests ← exports.mapM accountProcedureDigest
    some digests.flatten
  | _ => none

structure VerificationStatus where
  verified : Nat
  total : Nat
deriving DecidableEq

def getVerificationStatus (procedures : List String)
    (standardAccountComponents : List StandardAccountComponent) (manifests : List Json) :
    Option VerificationStatus := do
  let digests ← manifests.mapM manifestDigests
  let known := (standardAccountComponents.flatMap (·.procedures) ++ digests.flatten).map toLowerCase
  -- A set, so a procedure listed twice counts once.
  let accountProcedures := (procedures.map toLowerCase).dedup
  some {
    verified := (accountProcedures.filter (· ∈ known)).length
    total := accountProcedures.length }

/-- The status `verifiedAccountRecord` shows of the registry's answer. -/
def verificationStatus (account : VerifiedAccountById) : Option VerificationStatus :=
  getVerificationStatus account.procedures account.standardAccountComponents
    (account.verifiedAccountComponents.map (·.package.manifest))

def importedAccount (roots : String → List Word) (account : Account) : ImportedResource :=
  .account account.commitment
    ((standardAccountComponents roots account.procedures).map fun (name, procedures) =>
      ⟨name, procedures.map (·.text)⟩)
    (account.procedures.map (·.text))

theorem function_abi {text : ExportText} {procedure : ProcedureExport} {abi : CallConv}
    {signature : Json} (written : function text procedure abi = .ok signature) :
    property "abi" signature = some (abiJson abi) := by
  obtain ⟨params, -, written⟩ := Results.bind_eq_ok.mp written
  obtain ⟨results, -, written⟩ := Results.bind_eq_ok.mp written
  obtain rfl := Except.ok.inj written
  rfl

def accountProcedures : PackageExport → List ProcedureExport
  | .procedure procedure => if procedure.abi = some .componentModel then [procedure] else []
  | _ => []

theorem componentModelProcedures_eq (package : Package) :
    package.componentModelProcedures = package.exports.flatMap accountProcedures := by
  unfold Package.componentModelProcedures Package.procedureExports
  induction package.exports with
  | nil => rfl
  | cons packageExport rest ih =>
    cases packageExport with
    | procedure procedure =>
      by_cases account : procedure.abi = some .componentModel <;>
        simpa [accountProcedures, account] using ih
    | constant path => simpa [accountProcedures] using ih
    | type path => simpa [accountProcedures] using ih

section

variable {text : ExportText} {procedure : ProcedureExport} {signature : Json}

theorem signatureJson_abi (written : signatureJson text procedure = .ok signature) :
    property "abi" signature = procedure.abi.map abiJson := by
  unfold signatureJson at written
  cases abi : procedure.abi with
  | none =>
    simp only [abi] at written
    obtain rfl := Except.ok.inj written
    rfl
  | some convention =>
    simp only [abi] at written
    exact function_abi written

-- `Extern` is an object, and the other conventions are other numbers.
theorem abiJson_componentModel (abi : Option CallConv) :
    (match abi.map abiJson with
      | some (.number 3) => true
      | _ => false) = decide (abi = some .componentModel) := by
  cases abi with
  | none => rfl
  | some convention => cases convention <;> rfl

end

theorem exportJson_digest {text : ExportText} {packageExport : PackageExport} {json : Json}
    (written : exportJson text packageExport = .ok json) :
    accountProcedureDigest json =
      some ((accountProcedures packageExport).map (·.digest.text)) := by
  cases packageExport with
  | procedure procedure =>
    obtain ⟨signature, signed, written⟩ := Results.bind_eq_ok.mp written
    obtain rfl := Except.ok.inj written
    have rule : isAccountProcedure (.object [("Procedure", procedureJson text procedure signature)]) =
        decide (procedure.abi = some .componentModel) := by
      rw [← abiJson_componentModel, ← signatureJson_abi signed]
      rfl
    by_cases account : procedure.abi = some .componentModel
    · simp only [accountProcedureDigest, rule, account, decide_true, if_true, accountProcedures]
      rfl
    · simp only [accountProcedureDigest, rule, account, decide_false, accountProcedures]
      rfl
  | constant path =>
    obtain rfl := Except.ok.inj written
    rfl
  | type path =>
    obtain ⟨ty, -, written⟩ := Results.bind_eq_ok.mp written
    obtain rfl := Except.ok.inj written
    rfl

theorem exportJsons_digests {text : ExportText} {exports : List PackageExport} {jsons : List Json}
    (written : exports.mapM (exportJson text) = .ok jsons) :
    jsons.mapM accountProcedureDigest =
      some (exports.map fun packageExport =>
        (accountProcedures packageExport).map (·.digest.text)) := by
  induction exports generalizing jsons with
  | nil =>
    obtain rfl := Except.ok.inj written
    rfl
  | cons packageExport rest ih =>
    rw [List.mapM_cons] at written
    obtain ⟨json, first, written⟩ := Results.bind_eq_ok.mp written
    obtain ⟨others, remaining, written⟩ := Results.bind_eq_ok.mp written
    obtain rfl := Except.ok.inj written
    rw [List.mapM_cons, exportJson_digest first, ih remaining]
    rfl

theorem manifestJson_digests {text : ExportText} {package : Package} {dependencies : List Dependency}
    {manifest : Json} (written : manifestJson text package dependencies = .ok manifest) :
    manifestDigests manifest =
      some (package.componentModelProcedures.map (·.digest.text)) := by
  obtain ⟨jsons, exported, written⟩ := Results.bind_eq_ok.mp written
  obtain rfl := Except.ok.inj written
  show (do
    let digests ← jsons.mapM accountProcedureDigest
    some digests.flatten) = _
  rw [exportJsons_digests exported, componentModelProcedures_eq, List.map_flatMap,
    List.flatMap_def]
  rfl

theorem map_toLowerCase_text (words : List Word) :
    (words.map (·.text)).map toLowerCase = words.map (·.text) := by
  simp

theorem text_injective : Function.Injective Word.text :=
  fun _ _ => Word.eq_of_text

theorem getVerificationStatus_words (procedures : List Word) {standard checked : List Word}
    {standardAccountComponents : List StandardAccountComponent} {manifests : List Json}
    {digests : List (List String)}
    (claims : standardAccountComponents.flatMap (·.procedures) = standard.map (·.text))
    (read : manifests.mapM manifestDigests = some digests)
    (exported : digests.flatten = checked.map (·.text)) :
    getVerificationStatus (procedures.map (·.text)) standardAccountComponents manifests = some {
      verified := {procedure ∈ procedures.toFinset | procedure ∈ standard ++ checked}.card
      total := procedures.toFinset.card } := by
  have known : ∀ procedure : Word,
      procedure.text ∈ (standard ++ checked).map (·.text) ↔ procedure ∈ standard ++ checked :=
    fun procedure => List.mem_map_of_injective text_injective
  have counted : {procedure ∈ procedures.toFinset | procedure ∈ standard ++ checked}.card =
      (procedures.dedup.filter (· ∈ standard ++ checked)).length := by
    rw [← List.toFinset_card_of_nodup ((List.nodup_dedup procedures).filter _)]
    congr 1
    ext procedure
    simp
  rw [counted, List.card_toFinset]
  unfold getVerificationStatus
  rw [read]
  simp only [Option.bind_eq_bind, Option.bind_some, claims, exported, ← List.map_append,
    map_toLowerCase_text]
  rw [List.dedup_map_of_injective text_injective, List.filter_map]
  simp only [Function.comp_def, known, List.length_map]

section

variable (client : MidenClient) (roots : String → List Word)

def Accepted (account : Account) (package : Package) (code : Word) : Prop :=
  ∃ output, verifyOnChain client package (.account account) = .ok output ∧
    output.answer package.dependencyCommitment = (true, code)

/-- A package recorded for a code root: its manifest is stored as it was written, and the verifier
accepted it against one of the accounts with that root. -/
structure Recorded (accounts : Set Account) (code : Word) (manifest : Json) (package : Package) :
    Prop where
  written : ∃ text dependencies, manifestJson text package dependencies = .ok manifest
  accepted : ∃ account ∈ accounts, Accepted client account package code

theorem Accepted.held {account : Account} {package : Package} {code : Word}
    (accepted : Accepted client account package code) :
    account.commitment = code ∧ package.componentModelProcedures ≠ [] ∧
      ∀ procedure ∈ package.componentModelProcedures, procedure.digest ∈ account.procedures := by
  obtain ⟨output, ran, answered⟩ := accepted
  obtain ⟨components, rfl, holds⟩ :=
    verifyAccountComponent_tagged client package.dependencyCommitment.text ran
  obtain ⟨tagged, root⟩ := Prod.mk.inj answered
  exact ⟨root, (holds (List.contains_iff_mem.mp tagged)).2⟩

structure Counts (account : Account) (manifest : Json) (package : Package) : Prop where
  counted : manifestDigests manifest =
    some (package.componentModelProcedures.map (·.digest.text))
  contributes : package.componentModelProcedures ≠ []
  held : ∀ procedure ∈ package.componentModelProcedures, procedure.digest ∈ account.procedures

def Claimed (account : Account) (packages : List Package) (procedure : Word) : Prop :=
  (∃ component ∈ standardAccountComponents roots account.procedures, procedure ∈ component.2) ∨
    ∃ package ∈ packages, ∃ exported ∈ package.componentModelProcedures,
      exported.digest = procedure

instance (account : Account) (packages : List Package) :
    DecidablePred (Claimed roots account packages) :=
  fun procedure => inferInstanceAs (Decidable ((∃ component ∈ _, procedure ∈ Prod.snd component) ∨
    ∃ package ∈ packages, ∃ exported ∈ package.componentModelProcedures,
      exported.digest = procedure))

theorem imported_counts {db : Database} {networkId accountId : String} {account : Account}
    {record : VerifiedAccountById}
    (found : findVerifiedAccount db networkId accountId (.ok (importedAccount roots account)) =
      .ok record) :
    record.procedures = account.procedures.map (·.text) ∧
      record.standardAccountComponents.flatMap (·.procedures) =
        ((standardAccountComponents roots account.procedures).flatMap (·.2)).map (·.text) := by
  obtain ⟨_, imported, found⟩ := Results.bind_eq_ok.mp found
  obtain rfl := Except.ok.inj imported
  obtain ⟨_, _, found⟩ := Results.bind_eq_ok.mp found
  obtain rfl := Except.ok.inj found
  exact ⟨rfl, by rw [List.flatMap_map, List.map_flatMap]⟩

variable {client} in
theorem Recorded.counts {accounts : Set Account} {account : Account} {manifest : Json}
    {package : Package} (recorded : Recorded client accounts account.commitment manifest package)
    (codes : ∀ held ∈ accounts, held.commitment = account.commitment →
      ∀ procedure, procedure ∈ held.procedures ↔ procedure ∈ account.procedures) :
    Counts account manifest package := by
  obtain ⟨text, dependencies, written⟩ := recorded.written
  obtain ⟨held, known, accepted⟩ := recorded.accepted
  obtain ⟨root, contributes, inside⟩ := accepted.held
  exact ⟨manifestJson_digests written, contributes,
    fun procedure exported => (codes held known root _).mp (inside procedure exported)⟩

theorem counts_digests {account : Account} {manifests : List Json} {packages : List Package}
    (counts : List.Forall₂ (Counts account) manifests packages) :
    manifests.mapM manifestDigests =
      some (packages.map fun package => package.componentModelProcedures.map (·.digest.text)) := by
  induction counts with
  | nil => rfl
  | cons first _ ih =>
    rw [List.mapM_cons, first.counted, ih]
    rfl

theorem mem_claims (account : Account) (packages : List Package) (procedure : Word) :
    procedure ∈ (standardAccountComponents roots account.procedures).flatMap (·.2) ++
        packages.flatMap (fun package => package.componentModelProcedures.map (·.digest)) ↔
      Claimed roots account packages procedure := by
  simp only [List.mem_append, List.mem_flatMap, List.mem_map, Claimed]

theorem verified_account_status (accounts : Set Account) (account : Account)
    (codes : ∀ held ∈ accounts, held.commitment = account.commitment →
      ∀ procedure, procedure ∈ held.procedures ↔ procedure ∈ account.procedures)
    (db : Database) (networkId accountId : String) (record : VerifiedAccountById)
    (found : findVerifiedAccount db networkId accountId (.ok (importedAccount roots account)) =
      .ok record)
    (packages : List Package)
    (recorded : List.Forall₂ (Recorded client accounts account.commitment)
      (record.verifiedAccountComponents.map (·.package.manifest)) packages) :
    List.Forall₂ (Counts account)
        (record.verifiedAccountComponents.map (·.package.manifest)) packages ∧
      ∃ status, verificationStatus record = some status ∧
        status.total = account.procedures.toFinset.card ∧
        status.verified =
          {procedure ∈ account.procedures.toFinset | Claimed roots account packages procedure}.card ∧
        (status.verified = status.total ↔
          ∀ procedure ∈ account.procedures, Claimed roots account packages procedure) := by
  have counts := recorded.imp fun _ _ one => one.counts codes
  obtain ⟨procedures, claims⟩ := imported_counts roots found
  have exported : (packages.map fun package =>
      package.componentModelProcedures.map (·.digest.text)).flatten =
        (packages.flatMap fun package =>
          package.componentModelProcedures.map (·.digest)).map (·.text) := by
    simp [List.flatMap_def, List.map_flatten, Function.comp_def]
  have status := getVerificationStatus_words account.procedures claims (counts_digests counts) exported
  rw [← procedures] at status
  simp only [mem_claims] at status
  refine ⟨counts, _, status, rfl, rfl, ?_⟩
  rw [Finset.card_filter_eq_iff]
  simp only [List.mem_toFinset]

end

def counterText : ExportText where
  node _ := some 0
  sourceNode _ := none
  params _ := .ok []
  results _ := .ok []
  attributes _ := .object [("attrs", .array [])]
  constantValue _ := .null
  ty _ := .ok .null

def counterManifest : Json :=
  .object [
    ("exports", .array [.object [("Procedure",
      procedureJson counterText ⟨"::counter::get_count", counterRoot, some .componentModel⟩
        (.object [("abi", .number 3), ("params", .array []), ("results", .array [])]))]]),
    ("dependencies", .array [])]

def walletDatabase : Database where
  packages := [{
    id := 0
    name := "counter"
    type := .accountComponent
    files := [("Cargo.toml", "[package]"), ("miden-project.toml", "")]
    commitment := counterCommitment
    manifest := counterManifest
    readOnly := .null
    entrypoint := some "."
    builtWith := none
    debugCommitment := none
    debugBuiltWith := none
    createdAt := 0
    updatedAt := 0 }]
  accounts := [⟨1, "mtst", counterCode, 0, 0⟩]
  components := [⟨2, 1, 0, counterCommitment, "web-verifier", 0, 0⟩]
  notes := []
  nextId := 3

theorem wallet_all_verified :
    ∃ record status, findVerifiedAccount walletDatabase "mtst" counterAccountId
        (.ok (importedAccount walletComponentRoots walletAccount)) = .ok record ∧
      verificationStatus record = some status ∧ status.total = 3 ∧
        status.verified = status.total := by
  have recorded : Recorded walletClient {walletAccount} counterCode counterManifest counterPackage := {
    written := ⟨counterText, [], rfl⟩
    accepted := ⟨walletAccount, rfl, _, rfl, by decide⟩ }
  obtain ⟨-, status, shown, total, -, all⟩ := verified_account_status walletClient walletComponentRoots
    {walletAccount} walletAccount (fun held same _ _ => by obtain rfl := same; rfl)
    walletDatabase "mtst" counterAccountId _ rfl [counterPackage] (.cons recorded .nil)
  exact ⟨_, status, rfl, shown, by rw [total]; decide, all.mpr (by decide)⟩

end SourceVerification.Viewer
