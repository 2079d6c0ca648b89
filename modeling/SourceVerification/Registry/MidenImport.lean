import SourceVerification.Compile.AccountComponents
import SourceVerification.Registry.Lookup

set_option autoImplicit false

namespace SourceVerification.MidenImport

open Compile (Account ClientError MidenClient NoteScript OnChain)
open Registry (ImportedResource)

inductive Failure
  -- Exits with `NOT_FOUND_EXIT_CODE`.
  | notFound (message : String)
  | failed (message : String)

def importError (error : ClientError) : Failure :=
  match error with
  | .accountNotFoundOnChain _ | .accountIsPrivate _ | .noteNotFoundOnChain _ => .notFound error.message
  | .noteImportError reason _ =>
    if reason = "No notes fetched from node" ∨ reason = "Incomplete imported note is private" then
      .notFound error.message
    else .failed error.message
  | .other _ => .failed error.message

inductive Resource
  | account (networkId : Option String) (accountId : String)
  | note (noteId : String)

inductive Endpoint
  | testnet
  | devnet
  | mainnet
  | localhost

def endpoint : String → Option Endpoint
  | "mtst" => some .testnet
  | "mdev" => some .devnet
  | "mm" => some .mainnet
  | "mlcl" => some .localhost
  | _ => none

section

variable (client : MidenClient) (roots : String → List Word)

def parseResourceId (resourceId : String) : Except Failure Resource :=
  match client.parseAccountId resourceId with
  | some (accountId, networkId) => .ok (.account networkId accountId)
  | none =>
    match client.decodeAddress resourceId with
    | some (networkId, address) =>
      match address with
      | some accountId => .ok (.account (some networkId) accountId)
      | none => .error (.notFound ("address '" ++ resourceId ++ "' does not contain an account ID"))
    | none =>
      match client.noteIdFromHex resourceId with
      | some noteId => .ok (.note noteId)
      | none => .error (.notFound ("'" ++ resourceId ++ "' is not a valid account address, account ID, or note ID"))

def accountOutput (account : Account) : ImportedResource :=
  .account account.commitment
    ((Compile.standardAccountComponents roots account.procedures).map fun (name, procedures) =>
      ⟨name, procedures.map (·.text)⟩)
    (account.procedures.map (·.text))

def noteOutput (script : NoteScript) : ImportedResource :=
  .note script.root

def run (networkId resourceId : String) : Except Failure ImportedResource :=
  match client.newNetworkId networkId with
  | .error error => .error (.notFound ("invalid network ID: " ++ error))
  | .ok network =>
    match endpoint network with
    | none =>
      .error (.notFound ("unsupported network ID `" ++ network ++ "`; expected `mtst`, `mdev`, `mm` or `mlcl`"))
    | some _ =>
      match client.build network with
      | .error error => .error (.failed error)
      | .ok () =>
        match parseResourceId client resourceId with
        | .error failure => .error failure
        | .ok (.account (some other) accountId) =>
          if other ≠ network then
            .error (.notFound
              ("network ID of resource (" ++ other ++ ") does not match provided network ID (" ++ network ++ ")"))
          else importAccount network accountId
        | .ok (.account none accountId) => importAccount network accountId
        | .ok (.note noteId) =>
          match client.importNote network noteId with
          | .error error => .error (importError error)
          | .ok none => .error (.failed ("note '" ++ resourceId ++ "' not found"))
          | .ok (some script) => .ok (noteOutput script)
where
  importAccount (network accountId : String) : Except Failure ImportedResource :=
    match client.importAccountById network accountId with
    | .error error => .error (importError error)
    | .ok none => .error (.failed ("account '" ++ resourceId ++ "' not found"))
    | .ok (some account) => .ok (accountOutput roots account)

end

def imported (roots : String → List Word) : OnChain → ImportedResource
  | .account account => accountOutput roots account
  | .note script => noteOutput script

def ofVerifier : Compile.Failure → Failure
  | .rejected message => .notFound message
  | .failed message => .failed message

theorem importError_same (error : ClientError) : importError error = ofVerifier (Compile.importError error) := by
  cases error with
  | noteImportError reason message =>
    dsimp only [importError, Compile.importError]
    split_ifs <;> rfl
  | accountNotFoundOnChain | accountIsPrivate | noteNotFoundOnChain | other => rfl

theorem endpoint_isSome (network : String) : (endpoint network).isSome = decide (network ∈ Compile.supportedNetworks) := by
  unfold endpoint Compile.supportedNetworks
  split <;> simp_all

section

variable {client : MidenClient} {roots : String → List Word}

def named : Compile.ResourceId → Resource
  | .account networkId accountId => .account networkId accountId
  | .note noteId => .note noteId

theorem parseResourceId_same (resourceId : String) : parseResourceId client resourceId =
    (named <$> Compile.parseResourceId client resourceId).mapError ofVerifier := by
  unfold parseResourceId Compile.parseResourceId
  cases client.parseAccountId resourceId with
  | some account => rfl
  | none =>
    cases client.decodeAddress resourceId with
    | some address =>
      obtain ⟨networkId, account⟩ := address
      cases account <;> rfl
    | none => cases client.noteIdFromHex resourceId <;> rfl

theorem importAccount_same (networkId network resourceId accountId : String) :
    run.importAccount client roots resourceId network accountId =
      (imported roots <$> OnChain.account <$>
        Compile.importAccount client ⟨networkId, resourceId, none⟩ network accountId).mapError ofVerifier := by
  unfold run.importAccount Compile.importAccount
  cases client.importAccountById network accountId with
  | error error => exact congrArg Except.error (importError_same error)
  | ok account => cases account <;> rfl

theorem importNote_same (networkId network resourceId noteId : String) :
    (match client.importNote network noteId with
    | .error error => .error (importError error)
    | .ok none => .error (.failed ("note '" ++ resourceId ++ "' not found"))
    | .ok (some script) => .ok (noteOutput script)) =
      (imported roots <$> OnChain.note <$>
        Compile.importNoteScript client ⟨networkId, resourceId, none⟩ network noteId).mapError ofVerifier := by
  unfold Compile.importNoteScript
  cases client.importNote network noteId with
  | error error => exact congrArg Except.error (importError_same error)
  | ok script => cases script <;> rfl

theorem run_same (networkId resourceId : String) : run client roots networkId resourceId =
    (imported roots <$> Compile.readResource client ⟨networkId, resourceId, none⟩).mapError ofVerifier := by
  unfold run Compile.readResource
  cases client.newNetworkId networkId with
  | error error => rfl
  | ok network =>
    dsimp only [Except.mapError, bind, Except.bind]
    have known := endpoint_isSome network
    cases point : endpoint network with
    | none =>
      have unsupported : network ∉ Compile.supportedNetworks := by simpa [point] using known
      rw [if_pos unsupported]
      rfl
    | some _ =>
      have supported : network ∈ Compile.supportedNetworks := by simpa [point] using known
      rw [if_neg (not_not.mpr supported)]
      cases client.build network with
      | error error => rfl
      | ok _ =>
        dsimp only
        rw [parseResourceId_same]
        cases Compile.parseResourceId client resourceId with
        | error failure => rfl
        | ok resource =>
          cases resource with
          | account other accountId =>
            cases other with
            | none => exact importAccount_same networkId network resourceId accountId
            | some other =>
              dsimp only [Functor.map, Except.map, Except.mapError, named]
              by_cases elsewhere : other = network
              next =>
                have here : Option.any (· ≠ network) (some other) ≠ true := by simp [elsewhere]
                rw [if_neg (not_not.mpr elsewhere), if_neg here]
                exact importAccount_same networkId network resourceId accountId
              next =>
                have there : Option.any (· ≠ network) (some other) = true := by simp [elsewhere]
                rw [if_pos elsewhere, if_pos there]
                rfl
          | note noteId => exact importNote_same networkId network resourceId noteId

end

end SourceVerification.MidenImport
