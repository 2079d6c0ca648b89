import Mathlib.Data.List.Perm.Basic
import SourceVerification.Compile.ReadOnly
import SourceVerification.Compile.Verifier

set_option autoImplicit false

namespace SourceVerification.ReadOnly

open Compile (Package PackageExport ProcedureExport)

def PROTOCOL_PREFIX : String := "::miden::protocol::"

def PROTOCOL_STATE_CHANGING : List String :=
  ["active_note::remove_all_assets", "active_note::remove_asset", "faucet::burn", "faucet::mint",
   "input_note::remove_all_assets", "input_note::remove_asset", "native_account::add_asset",
   "native_account::incr_nonce", "native_account::remove_asset", "native_account::set_item",
   "native_account::set_map_item", "native_account::upgrade", "output_note::add_asset",
   "output_note::add_attachment", "output_note::add_attachment_from_memory",
   "output_note::add_word_attachment", "output_note::create", "output_note::seal",
   "tx::update_expiration_block_delta"]

def PROTOCOL_READ_ONLY : List String :=
  ["account_id::eq", "account_id::eqz", "account_id::shape_suffix", "account_id::testz",
   "account_id::validate_structure", "active_account::compute_storage_commitment",
   "active_account::get_asset", "active_account::get_code_commitment", "active_account::get_id",
   "active_account::get_item", "active_account::get_map_item", "active_account::get_nonce",
   "active_account::get_num_procedures", "active_account::get_procedure_root",
   "active_account::get_vault_root", "active_account::has_asset", "active_account::has_procedure",
   "active_account::has_storage_slot", "active_note::find_attachment", "active_note::get_asset",
   "active_note::get_attachments_commitment", "active_note::get_bounded_storage",
   "active_note::get_initial_assets", "active_note::get_initial_assets_info",
   "active_note::get_initial_num_assets", "active_note::get_metadata", "active_note::get_note_id",
   "active_note::get_recipient", "active_note::get_script_root", "active_note::get_sender",
   "active_note::get_serial_number", "active_note::get_storage", "active_note::get_storage_info",
   "active_note::is_private", "active_note::is_public",
   "active_note::write_attachment_commitments_to_memory", "active_note::write_attachment_to_memory",
   "active_note::write_storage_to_memory", "asset::fungible_value_into_amount_unchecked",
   "asset::id_into_asset_class", "asset::id_into_composition", "asset::id_into_faucet_id",
   "asset::id_to_asset_class", "asset::id_to_composition", "asset::id_to_faucet_id", "asset::load",
   "asset::store", "input_note::find_attachment", "input_note::find_note", "input_note::get_asset",
   "input_note::get_attachments_commitment", "input_note::get_initial_assets",
   "input_note::get_initial_assets_info", "input_note::get_initial_num_assets", "input_note::get_metadata",
   "input_note::get_note_id", "input_note::get_recipient", "input_note::get_script_root",
   "input_note::get_sender", "input_note::get_serial_number", "input_note::get_storage_info",
   "input_note::write_attachment_commitments_to_memory", "input_note::write_attachment_to_memory",
   "native_account::compute_commitment", "native_account::compute_delta_commitment",
   "native_account::get_code_upgrade_commitment", "native_account::get_id",
   "native_account::get_initial_asset", "native_account::get_initial_commitment",
   "native_account::get_initial_item", "native_account::get_initial_map_item",
   "native_account::get_initial_storage_commitment", "native_account::get_initial_vault_root",
   "native_account::has_initial_asset", "native_account::has_state_changed",
   "native_account::was_procedure_called", "note::compute_and_store_recipient", "note::compute_recipient",
   "note::compute_storage_commitment", "note::find_attachment_idx", "note::metadata_into_attachment_schemes",
   "note::metadata_into_note_type", "note::metadata_into_sender", "note::metadata_into_tag",
   "output_note::compute_note_id", "output_note::find_attachment", "output_note::get_assets",
   "output_note::get_assets_info", "output_note::get_attachments_commitment", "output_note::get_metadata",
   "output_note::get_recipient", "output_note::is_sealed",
   "output_note::write_attachment_commitments_to_memory", "output_note::write_attachment_to_memory",
   "tx::compute_fee", "tx::execute_foreign_procedure", "tx::get_block_commitment", "tx::get_block_timestamp",
   "tx::get_expiration_block_delta", "tx::get_fee_asset_id", "tx::get_input_notes_commitment",
   "tx::get_num_input_notes", "tx::get_num_output_notes", "tx::get_output_notes_commitment",
   "tx::get_reference_block_commitment", "tx::get_reference_block_number", "tx::get_tx_script_root"]

-- `strip_prefix`, or all of the path without it.
def relativeName (path : String) : String :=
  if PROTOCOL_PREFIX.toList.isPrefixOf path.toList then String.ofList (path.toList.drop PROTOCOL_PREFIX.toList.length)
  else path

/-- The class of a path. One in neither list counts as unknown. -/
def classOf (path : String) : Access :=
  let name := relativeName path
  if name ∈ PROTOCOL_STATE_CHANGING then .stateChanging
  else if name ∈ PROTOCOL_READ_ONLY then .readOnly
  else .unknown

def collect (entries : List (Word × Access)) : Word → Option Access :=
  entries.foldl (fun map (digest, access) => Function.update map digest (some access)) fun _ => none

def protocolAccess (protocol : Package) : Word → Option Access :=
  collect (protocol.procedureExports.map fun procedure => (procedure.digest, classOf procedure.path))

/-- Each digest counts as no less than any path that is exported with it. -/
def Covers (protocol : Package) : Prop :=
  ∀ procedure ∈ protocol.procedureExports, ∃ access,
    protocolAccess protocol procedure.digest = some access ∧ classOf procedure.path ≤ access

/-- Of the exports with one digest, the last one is in the most severe class. -/
def LastMostSevere (exports : List ProcedureExport) : Prop :=
  ∀ earlier last later, exports = earlier ++ last :: later → (∀ other ∈ later, other.digest ≠ last.digest) →
    ∀ other ∈ earlier, other.digest = last.digest → classOf other.path ≤ classOf last.path

theorem collect_concat (entries : List (Word × Access)) (digest : Word) (access : Access) :
    collect (entries ++ [(digest, access)]) = Function.update (collect entries) digest (some access) := by
  rw [collect, List.foldl_append]
  rfl

theorem collect_append (entries : List (Word × Access)) {later : List (Word × Access)} {digest : Word}
    (others : ∀ entry ∈ later, entry.1 ≠ digest) : collect (entries ++ later) digest = collect entries digest := by
  induction later using List.reverseRecOn with
  | nil => rw [List.append_nil]
  | append_singleton later entry ih =>
    have earlier := ih fun other member => others other (List.mem_append_left _ member)
    have apart := others entry (List.mem_append_right _ (List.mem_singleton_self _))
    rw [← List.append_assoc, collect_concat, Function.update_of_ne apart.symm, earlier]

theorem protocolAccess_last {protocol : Package} {earlier later : List ProcedureExport} {last : ProcedureExport}
    (exports : protocol.procedureExports = earlier ++ last :: later)
    (others : ∀ other ∈ later, other.digest ≠ last.digest) :
    protocolAccess protocol last.digest = some (classOf last.path) := by
  rw [protocolAccess, exports, List.append_cons, List.map_append, collect_append, List.map_append]
  · rw [List.map_singleton, collect_concat, Function.update_self]
  · intro entry member
    obtain ⟨other, inside, rfl⟩ := List.mem_map.mp member
    exact others other inside

theorem exists_last {exports : List ProcedureExport} {procedure : ProcedureExport} (member : procedure ∈ exports) :
    ∃ earlier last later, exports = earlier ++ last :: later ∧ last.digest = procedure.digest ∧
      (∀ other ∈ later, other.digest ≠ last.digest) ∧ (procedure = last ∨ procedure ∈ earlier) := by
  induction exports using List.reverseRecOn with
  | nil => cases member
  | append_singleton exports final ih =>
    by_cases same : final.digest = procedure.digest
    next =>
      refine ⟨exports, final, [], rfl, same, by simp, ?_⟩
      exact (List.mem_append.mp member).symm.imp_left List.mem_singleton.mp
    next =>
      have inside : procedure ∈ exports := by
        refine (List.mem_append.mp member).resolve_right fun last => same ?_
        rw [List.mem_singleton.mp last]
      obtain ⟨earlier, last, later, rfl, named, others, place⟩ := ih inside
      refine ⟨earlier, last, later ++ [final], by simp, named, fun other member => ?_, place⟩
      rcases List.mem_append.mp member with before | after
      · exact others other before
      · rw [List.mem_singleton.mp after, named]
        exact same

theorem covers_iff (protocol : Package) : Covers protocol ↔ LastMostSevere protocol.procedureExports := by
  constructor
  · intro covers earlier last later exports others other member same
    obtain ⟨access, known, below⟩ := covers other (exports ▸ List.mem_append_left _ member)
    rw [same, protocolAccess_last exports others] at known
    exact Option.some.inj known ▸ below
  · intro severe procedure member
    obtain ⟨earlier, last, later, exports, named, others, place⟩ := exists_last member
    refine ⟨classOf last.path, named ▸ protocolAccess_last exports others, ?_⟩
    rcases place with rfl | before
    · exact le_refl _
    · exact severe earlier last later exports others procedure before named.symm

theorem procedureExports_perm {protocol other : Package} (reordered : other.exports.Perm protocol.exports) :
    other.procedureExports.Perm protocol.procedureExports :=
  reordered.filterMap _

theorem exists_moved {protocol : Package} {procedure : ProcedureExport}
    (member : procedure ∈ protocol.procedureExports) : ∃ other : Package, other.exports.Perm protocol.exports ∧
      protocolAccess other procedure.digest = some (classOf procedure.path) := by
  obtain ⟨exported, inside, shape⟩ := List.mem_filterMap.mp member
  obtain ⟨before, after, split⟩ := List.append_of_mem inside
  let other : Package := { protocol with exports := before ++ after ++ [exported] }
  have exports : other.procedureExports = ({ protocol with exports := before ++ after } : Package).procedureExports ++ [procedure] := by
    simp [other, Package.procedureExports, shape]
  have moved : (before ++ (after ++ [exported])).Perm (before ++ exported :: after) :=
    (List.perm_append_singleton exported after).append_left before
  refine ⟨other, ?_, protocolAccess_last exports (by simp)⟩
  rw [split]
  simpa [other] using moved

theorem protocolAccess_severe_iff (protocol : Package) :
    (Covers protocol ↔ LastMostSevere protocol.procedureExports) ∧
    ((∀ other : Package, other.exports.Perm protocol.exports → Covers other) ↔
      ∀ first ∈ protocol.procedureExports, ∀ second ∈ protocol.procedureExports, first.digest = second.digest →
        classOf first.path = classOf second.path) := by
  refine ⟨covers_iff protocol, fun covers => ?_, fun alike other reordered => ?_⟩
  · have below : ∀ first ∈ protocol.procedureExports, ∀ second ∈ protocol.procedureExports,
        first.digest = second.digest → classOf first.path ≤ classOf second.path := by
      intro first member second after same
      obtain ⟨other, reordered, known⟩ := exists_moved after
      obtain ⟨access, counted, severe⟩ := covers other reordered first ((procedureExports_perm reordered).mem_iff.mpr member)
      rw [same, known] at counted
      exact Option.some.inj counted ▸ severe
    intro first member second after same
    exact le_antisymm (below first member second after same) (below second after first member same.symm)
  · refine (covers_iff other).mpr fun earlier last later exports _ first member same => ?_
    have inside : ∀ one ∈ earlier ++ last :: later, one ∈ protocol.procedureExports := by
      intro one member
      exact (procedureExports_perm reordered).mem_iff.mp (exports ▸ member)
    exact le_of_eq (alike first (inside _ (by simp [member])) last (inside _ (by simp)) same)

def sharedDigest : Package where
  exports := [
    .procedure ⟨"::miden::protocol::active_note::remove_all_assets", getterRoot, none⟩,
    .procedure ⟨"::miden::protocol::asset::load", getterRoot, none⟩]
  dependencyCommitment := hashRoot

theorem sharedDigest_counts_readOnly : ¬ ∀ protocol : Package, Covers protocol := by
  intro covers
  obtain ⟨access, known, severe⟩ := covers sharedDigest ⟨"::miden::protocol::active_note::remove_all_assets", getterRoot, none⟩
    (List.mem_cons_self ..)
  have counted : protocolAccess sharedDigest getterRoot = some .readOnly := by decide +kernel
  have class_of : classOf "::miden::protocol::active_note::remove_all_assets" = .stateChanging := by decide +kernel
  rw [counted] at known
  rw [class_of, ← Option.some.inj known] at severe
  exact absurd severe (by decide)

end SourceVerification.ReadOnly
