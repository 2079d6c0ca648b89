import SourceVerification.Compile.Wire

set_option autoImplicit false

namespace SourceVerification.Compile

inductive CallConv
  | fast
  | c
  | wasm
  | componentModel
  | externConv (name : String)
deriving DecidableEq

structure ProcedureExport where
  path : String
  digest : Word
  -- The calling convention of its signature, when it has one.
  abi : Option CallConv

inductive PackageExport
  | procedure (procedure : ProcedureExport)
  | constant (path : String)
  | type (path : String)

structure Package where
  exports : List PackageExport
  dependencyCommitment : Word

def Package.procedureExports (package : Package) : List ProcedureExport :=
  package.exports.filterMap fun
    | .procedure procedure => some procedure
    | _ => none

def Package.componentModelProcedures (package : Package) : List ProcedureExport :=
  package.procedureExports.filter fun procedure => procedure.abi = some .componentModel

structure Account where
  procedures : List Word
  -- The commitment of the account's code.
  commitment : Word

structure NoteScript where
  root : Word

inductive AccountComponentInterface
  | basicWallet
  | noteCreator
  | fungibleFaucet
  | codeInspection
  | authority
  | ownable2Step
  | roleBasedAccessControl
  | authSingleSig
  | authMultisig
  | authMultisigSmart
  | authGuardedMultisig
  | authNoAuth
  | authNetworkAccount
  | authTxFeeCollector
  | customAuth (procedure : Word)
  | custom (procedures : List Word)

def AccountComponentInterface.standardName : AccountComponentInterface → Option String
  | .basicWallet => some "BasicWallet"
  | .noteCreator => some "NoteCreator"
  | .fungibleFaucet => some "FungibleFaucet"
  | .codeInspection => some "CodeInspection"
  | .authority => some "Authority"
  | .ownable2Step => some "Ownable2Step"
  | .roleBasedAccessControl => some "RoleBasedAccessControl"
  | .authSingleSig => some "AuthSingleSig"
  | .authMultisig => some "AuthMultisig"
  | .authMultisigSmart => some "AuthMultisigSmart"
  | .authGuardedMultisig => some "AuthGuardedMultisig"
  | .authNoAuth => some "AuthNoAuth"
  | .authNetworkAccount => some "AuthNetworkAccount"
  | .authTxFeeCollector => some "AuthTxFeeCollector"
  -- Both are code a package can account for.
  | .customAuth _ | .custom _ => none

def AccountComponentInterface.customProcedures : AccountComponentInterface → List Word
  | .customAuth procedure => [procedure]
  | .custom procedures => procedures
  | _ => []

/-- What `AccountComponentInterface::from_procedures` answers: the custom buckets hold the
procedures no standard component claims, and none of them is empty. -/
structure Classification (procedures : List Word) where
  interface : List AccountComponentInterface
  standard : Word → Bool
  leftover : ∀ procedure ∈ procedures, standard procedure = false ↔
    ∃ component ∈ interface, procedure ∈ component.customProcedures
  nonempty : ∀ component ∈ interface, component.standardName = none →
    ∃ procedure ∈ procedures, procedure ∈ component.customProcedures

inductive ClientError
  | accountNotFoundOnChain (message : String)
  | accountIsPrivate (message : String)
  | noteNotFoundOnChain (message : String)
  | noteImportError (reason message : String)
  | other (message : String)

def ClientError.message : ClientError → String
  | .accountNotFoundOnChain message | .accountIsPrivate message | .noteNotFoundOnChain message
  | .noteImportError _ message | .other message => message

/-- The parts of `miden_client` and `miden_standards` that miden-verifier and miden-import call. -/
structure MidenClient where
  newNetworkId : String → Except String String
  -- The keystore and the store of a network.
  build : String → Except String Unit
  parseAccountId : String → Option (String × Option String)
  -- The network of an address and the account ID it holds, if it holds one.
  decodeAddress : String → Option (String × Option String)
  noteIdFromHex : String → Option String
  -- On a network: the import, then the read of what it stored.
  importAccountById : String → String → Except ClientError (Option Account)
  importNote : String → String → Except ClientError (Option NoteScript)
  -- A resource file: base64, then the serialized bytes.
  readAccount : String → Except String Account
  readNote : String → Except String NoteScript
  fromProcedures : (procedures : List Word) → Classification procedures
  standardNote : NoteScript → Option String
  display : Word → String

/-- A failed run: a request that can never verify, or a failure a retry may pass. -/
inductive Failure
  | rejected (message : String)
  | failed (message : String)

def importError (error : ClientError) : Failure :=
  match error with
  | .accountNotFoundOnChain message | .accountIsPrivate message | .noteNotFoundOnChain message =>
    .rejected message
  | .noteImportError reason message =>
    if reason = "No notes fetched from node" ∨ reason = "Incomplete imported note is private" then
      .rejected message
    else
      .failed message
  | .other message => .failed message

inductive ResourceId
  | account (networkId : Option String) (accountId : String)
  | note (noteId : String)

def ResourceId.kind : ResourceId → Kind
  | .account _ _ => .account
  | .note _ => .note

inductive OnChain
  | account (account : Account)
  | note (script : NoteScript)

inductive MidenVerifierOutput
  | account (code : Word) (components : List String)
  | note (code : Word) (script : String)

structure VerifierArgs where
  networkId : String
  resourceId : String
  -- The content of the file at `resource_path`, when given.
  resource : Option String

def customTag (commitment : String) : String :=
  "Custom(" ++ commitment ++ ")"

section Verifier

variable (client : MidenClient)

def parseResourceId (resourceId : String) : Except Failure ResourceId :=
  match client.parseAccountId resourceId with
  | some (accountId, networkId) => .ok (.account networkId accountId)
  | none =>
    match client.decodeAddress resourceId with
    | some (networkId, some accountId) => .ok (.account (some networkId) accountId)
    | some (_, none) =>
      .error (.rejected ("address '" ++ resourceId ++ "' does not contain an account ID"))
    | none =>
      match client.noteIdFromHex resourceId with
      | some noteId => .ok (.note noteId)
      | none =>
        .error (.rejected
          ("'" ++ resourceId ++ "' is not a valid account address, account ID, or note ID"))

def supportedNetworks : List String := ["mtst", "mdev", "mm", "mlcl"]

def importAccount (args : VerifierArgs) (network accountId : String) : Except Failure Account :=
  match args.resource with
  | some resource => (client.readAccount resource).mapError .rejected
  | none => do
    match ← (client.importAccountById network accountId).mapError importError with
    | some account => .ok account
    | none => .error (.failed ("account '" ++ args.resourceId ++ "' not found"))

def importNoteScript (args : VerifierArgs) (network noteId : String) : Except Failure NoteScript :=
  match args.resource with
  | some resource => (client.readNote resource).mapError .rejected
  | none => do
    match ← (client.importNote network noteId).mapError importError with
    | some script => .ok script
    | none => .error (.failed ("note '" ++ args.resourceId ++ "' not found"))

def readResource (args : VerifierArgs) : Except Failure OnChain := do
  let network ← (client.newNetworkId args.networkId).mapError fun error =>
    .rejected ("invalid network ID: " ++ error)
  if network ∉ supportedNetworks then
    .error (.rejected ("unsupported network ID `" ++ network ++
      "`; expected `mtst`, `mdev`, `mm` or `mlcl`"))
  else
    let () ← (client.build network).mapError .failed
    match ← parseResourceId client args.resourceId with
    | .account networkId accountId =>
      if networkId.any (· ≠ network) then
        .error (.rejected ("network ID of resource (" ++ networkId.getD "" ++
          ") does not match provided network ID (" ++ network ++ ")"))
      else
        OnChain.account <$> importAccount client args network accountId
    | .note noteId => OnChain.note <$> importNoteScript client args network noteId

def verifyAccountComponent (account : Account) (package : Package) :
    Except Failure MidenVerifierOutput :=
  let interface := (client.fromProcedures account.procedures).interface
  let components := interface.filterMap (·.standardName)
  let hasCustomCode := interface.any (·.standardName.isNone)
  if hasCustomCode = true then
    if package.exports = [] then
      .error (.rejected "Package has no exports")
    else
      let procedures := package.componentModelProcedures
      -- `all` holds vacuously when the package exports no account procedure.
      let verified := !procedures.isEmpty &&
        procedures.all fun procedure => account.procedures.contains procedure.digest
      let custom := customTag (client.display package.dependencyCommitment)
      .ok (.account account.commitment (if verified then components ++ [custom] else components))
  else
    .ok (.account account.commitment components)

def verifyNoteScript (noteScript : NoteScript) (package : Package) : MidenVerifierOutput :=
  let script :=
    match client.standardNote noteScript with
    | some name => name
    | none =>
      -- The note script's entrypoint.
      match package.componentModelProcedures.head? with
      | some procedure =>
        if procedure.digest = noteScript.root then
          customTag (client.display package.dependencyCommitment)
        else ""
      | none => ""
  .note noteScript.root script

def runVerifier (args : VerifierArgs) (package : Package) : Except Failure MidenVerifierOutput := do
  match ← readResource client args with
  | .account account => verifyAccountComponent client account package
  | .note script => .ok (verifyNoteScript client script package)

inductive ToolRun (α : Type)
  | output (output : α)
  | error (message : String) (rejected : Bool)

def midenVerifier (fault : Option String) (args : VerifierArgs) (package : Package) :
    ToolRun MidenVerifierOutput :=
  match fault with
  | some message => .error message false
  | none =>
    match runVerifier client args package with
    | .ok output => .output output
    | .error (.rejected message) => .error message true
    | .error (.failed message) => .error message false

def verify (fault : Option String) (args : VerifierArgs) (package : Package) (commitment : Word) :
    Except HttpError (Bool × Word) :=
  match midenVerifier client fault args package with
  | .error message rejected => .error ⟨if rejected then 400 else 502, message⟩
  | .output (.account code components) => .ok (components.contains (customTag commitment.text), code)
  | .output (.note code script) => .ok (script == customTag commitment.text, code)

end Verifier

structure Compiled where
  package : Package
  masp : Masp
  kind : TargetType
  manifest : Json
  readOnly : Json
  files : Files
  cargoMidenVersion : Option String
  debug : Option DebugBuild

inductive Build
  | failed (stderr : String)
  | built (compiled : Compiled)

structure ApiCompile where
  parseToml : String → Option (List (String × Json))
  -- `queueCompile`, which throws when the queue is full or a step of the build does.
  queueCompile : Project → Bool → Except HttpError Build
  client : MidenClient
  toolFault : Option String

structure VerifyRequest where
  files : Option Json
  entrypoint : Option Json
  networkId : String
  resourceId : String
  resource : Option String
  debug : Bool

def VerifyRequest.args (request : VerifyRequest) : VerifierArgs where
  networkId := request.networkId
  resourceId := request.resourceId
  resource := request.resource.filter (· ≠ "")

def postVerify (api : ApiCompile) (request : VerifyRequest) : Except HttpError VerifyResponse :=
  match openProject api.parseToml request.files request.entrypoint with
  | .error error => .error ⟨400, error⟩
  | .ok project =>
    if request.networkId = "" then .error ⟨400, "missing networkId"⟩
    else if request.resourceId = "" then .error ⟨400, "missing resourceId"⟩
    else
      match api.queueCompile project request.debug with
      | .error error => .error error
      | .ok (.failed stderr) => .error ⟨400, stderr⟩
      | .ok (.built compiled) =>
        -- `midenPackageMetadata` reads the same file, so it is the package's own commitment.
        let commitment := compiled.package.dependencyCommitment
        match verify api.client api.toolFault request.args compiled.package commitment with
        | .error error => .error error
        | .ok (verified, root) => .ok {
            verified := verified
            root := root
            masp := compiled.masp
            commitment := commitment
            kind := compiled.kind
            manifest := compiled.manifest
            readOnly := compiled.readOnly
            files := compiled.files
            cargoMidenVersion := compiled.cargoMidenVersion
            debug := compiled.debug }

end SourceVerification.Compile
