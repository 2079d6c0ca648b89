import SourceVerification.Registry.CleanupPlayground
import SourceVerification.Registry.Recording

set_option autoImplicit false

namespace SourceVerification.Registry

open Tables

def Database.PackageUsed (db : Database) (id : RowId) : Prop :=
  (∃ row ∈ db.components, row.packageId = id) ∨ ∃ row ∈ db.notes, row.packageId = id

def Database.AccountUsed (db : Database) (id : RowId) : Prop :=
  ∃ row ∈ db.components, row.verifiedAccountId = id

/-- What holds of the rows whenever no call is under way. -/
structure Database.Sound (db : Database) : Prop extends db.Keyed where
  accountUsed : ∀ row ∈ db.accounts, db.AccountUsed row.id
  packageUsed : ∀ row ∈ db.packages, db.PackageUsed row.id

structure Integrity (state : State) : Prop extends state.db.Sound where
  released : ∀ row ∈ state.db.packages, (state.store.get row.commitment .release).isSome
  debugged : ∀ row ∈ state.db.packages, row.debugCommitment.isSome →
    (state.store.get row.commitment .debug).isSome

theorem integrity_empty : Integrity State.empty where
  packageIds := List.nodup_nil
  packageCommitments := List.nodup_nil
  accountIds := List.nodup_nil
  accountKeys := List.nodup_nil
  componentKeys := List.nodup_nil
  noteKeys := List.nodup_nil
  componentPackage := by simp [State.empty]
  componentAccount := by simp [State.empty]
  notePackage := by simp [State.empty]
  packageFresh := by simp [State.empty]
  accountFresh := by simp [State.empty]
  accountUsed := by simp [State.empty]
  packageUsed := by simp [State.empty]
  released := by simp [State.empty]
  debugged := by simp [State.empty]

theorem Recorded.packages_mem {db next : Database} {input : VerifyInput} {build : VerifyResponse}
    {now : Time} {package : PackageRow} (recorded : Recorded db input build now package next)
    (row : PackageRow) : row ∈ next.packages ↔ row ∈ db.packages ∨ row = package := by
  cases recorded with
  | component _ _ _ _ _ packageStep accountStep _ rows =>
    rw [rows, ← packageStep.rows.mem_iff row, ← accountStep.packages]
  | note _ _ _ packageStep _ rows => rw [rows, ← packageStep.rows.mem_iff row]

theorem Recorded.package_commitment {db next : Database} {input : VerifyInput}
    {build : VerifyResponse} {now : Time} {package : PackageRow}
    (recorded : Recorded db input build now package next) : package.commitment = build.commitment := by
  cases recorded with
  | component _ _ _ _ _ packageStep _ _ _ => exact packageStep.commitment_eq
  | note _ _ _ packageStep _ _ => exact packageStep.commitment_eq

theorem Recorded.package_fresh {db next : Database} {input : VerifyInput} {build : VerifyResponse}
    {now : Time} {package : PackageRow} (recorded : Recorded db input build now package next) :
    package ∈ db.packages ∨ package.debugCommitment = none := by
  cases recorded with
  | component _ _ _ _ _ packageStep _ _ _ => exact packageStep.fresh.imp_right fun new => new.2.2
  | note _ _ _ packageStep _ _ => exact packageStep.fresh.imp_right fun new => new.2.2

theorem Recorded.components_kept {db next : Database} {input : VerifyInput} {build : VerifyResponse}
    {now : Time} {package : PackageRow} (recorded : Recorded db input build now package next)
    {row : ComponentRow} (member : row ∈ db.components) : row ∈ next.components := by
  cases recorded with
  | component _ _ _ _ _ packageStep accountStep _ rows =>
    rw [← packageStep.components, ← accountStep.components] at member
    exact rows ▸ List.mem_append_left _ member
  | note _ _ _ packageStep _ rows => exact rows ▸ packageStep.components ▸ member

theorem Recorded.notes_kept {db next : Database} {input : VerifyInput} {build : VerifyResponse}
    {now : Time} {package : PackageRow} (recorded : Recorded db input build now package next)
    {row : NoteRow} (member : row ∈ db.notes) : row ∈ next.notes := by
  cases recorded with
  | component _ _ _ _ _ packageStep accountStep _ rows =>
    rw [← packageStep.notes, ← accountStep.notes] at member
    exact rows ▸ member
  | note _ _ _ packageStep _ rows =>
    rw [← packageStep.notes] at member
    exact rows ▸ List.mem_append_left _ member

theorem Recorded.accountUsed {db next : Database} {input : VerifyInput} {build : VerifyResponse}
    {now : Time} {package : PackageRow} (recorded : Recorded db input build now package next)
    (used : ∀ row ∈ db.accounts, db.AccountUsed row.id) :
    ∀ row ∈ next.accounts, next.AccountUsed row.id := by
  have kept : ∀ row ∈ db.accounts, next.AccountUsed row.id := by
    intro row old
    obtain ⟨component, inside, under⟩ := used row old
    exact ⟨component, recorded.components_kept inside, under⟩
  intro row member
  cases recorded with
  | component _ packaged accounted account _ packageStep accountStep _ rows =>
    subst rows
    rcases (accountStep.rows.mem_iff row).mp member with old | new
    · exact kept row (packageStep.accounts ▸ old)
    · exact new ▸ ⟨_, List.mem_append_right _ (List.mem_singleton_self _), rfl⟩
  | note _ packaged _ packageStep _ rows =>
    subst rows
    exact kept row (packageStep.accounts ▸ member)

theorem Recorded.packageUsed {db next : Database} {input : VerifyInput} {build : VerifyResponse}
    {now : Time} {package : PackageRow} (recorded : Recorded db input build now package next)
    (used : ∀ row ∈ db.packages, db.PackageUsed row.id) :
    ∀ row ∈ next.packages, next.PackageUsed row.id := by
  intro row member
  rcases (recorded.packages_mem row).mp member with old | new
  · rcases used row old with ⟨component, inside, made⟩ | ⟨note, inside, made⟩
    · exact .inl ⟨component, recorded.components_kept inside, made⟩
    · exact .inr ⟨note, recorded.notes_kept inside, made⟩
  · cases recorded with
    | component _ _ _ _ _ _ _ _ rows =>
      subst rows
      exact new ▸ .inl ⟨_, List.mem_append_right _ (List.mem_singleton_self _), rfl⟩
    | note _ _ _ _ _ rows =>
      subst rows
      exact new ▸ .inr ⟨_, List.mem_append_right _ (List.mem_singleton_self _), rfl⟩

theorem Recorded.sound {db next : Database} {input : VerifyInput} {build : VerifyResponse}
    {now : Time} {package : PackageRow} (recorded : Recorded db input build now package next)
    (sound : db.Sound) : next.Sound where
  toKeyed := recorded.keyed sound.toKeyed
  accountUsed := recorded.accountUsed sound.accountUsed
  packageUsed := recorded.packageUsed sound.packageUsed

theorem spared_iff {Row Key : Type} {key : Row → Key} {rows : List Row} {ids : List Key}
    {used : Key → Prop} {row : Row} (member : row ∈ rows) :
    (¬ ∃ other, (other ∈ rows ∧ key other ∈ ids ∧ ¬ used (key other)) ∧ key other = key row) ↔
      (key row ∈ ids → used (key row)) := by
  constructor
  · intro kept listed
    by_contra unused
    exact kept ⟨row, ⟨member, listed, unused⟩, rfl⟩
  · rintro used ⟨other, ⟨_, listed, unused⟩, same⟩
    exact unused (same ▸ used (same ▸ listed))

namespace Database

theorem accountUnused_iff {db : Database} {id : RowId} :
    db.accountUnused id = true ↔ ¬ db.AccountUsed id := by
  simp [accountUnused, AccountUsed]

theorem packageUnused_iff {db : Database} {id : RowId} :
    db.packageUnused id = true ↔ ¬ db.PackageUsed id := by
  simp [packageUnused, PackageUsed]

@[simp] theorem deleteUnusedAccounts_components (db : Database) (ids : List RowId) :
    (db.deleteUnusedAccounts ids).2.components = db.components := by
  refine List.filter_eq_self.mpr fun row member => ?_
  simp only [decide_eq_true_eq, List.mem_map, List.mem_filter, accountUnused_iff]
  rintro ⟨account, ⟨_, _, unused⟩, same⟩
  exact unused ⟨row, member, same.symm⟩

@[simp] theorem deleteUnusedAccounts_notes (db : Database) (ids : List RowId) :
    (db.deleteUnusedAccounts ids).2.notes = db.notes := rfl

@[simp] theorem deleteUnusedAccounts_packages (db : Database) (ids : List RowId) :
    (db.deleteUnusedAccounts ids).2.packages = db.packages := rfl

theorem mem_deleteUnusedAccounts {db : Database} {ids : List RowId} {row : AccountRow} :
    row ∈ (db.deleteUnusedAccounts ids).2.accounts ↔
      row ∈ db.accounts ∧ (row.id ∈ ids → db.AccountUsed row.id) := by
  simp only [deleteUnusedAccounts, deleteAccounts, List.mem_filter, decide_eq_true_eq, List.mem_map,
    accountUnused_iff]
  exact and_congr_right fun member => spared_iff member

@[simp] theorem deleteUnusedPackages_components (db : Database) (ids : List RowId) :
    (db.deleteUnusedPackages ids).2.components = db.components := by
  refine List.filter_eq_self.mpr fun row member => ?_
  simp only [decide_eq_true_eq, List.mem_map, List.mem_filter, packageUnused_iff]
  rintro ⟨package, ⟨_, _, unused⟩, same⟩
  exact unused (.inl ⟨row, member, same.symm⟩)

@[simp] theorem deleteUnusedPackages_notes (db : Database) (ids : List RowId) :
    (db.deleteUnusedPackages ids).2.notes = db.notes := by
  refine List.filter_eq_self.mpr fun row member => ?_
  simp only [decide_eq_true_eq, List.mem_map, List.mem_filter, packageUnused_iff]
  rintro ⟨package, ⟨_, _, unused⟩, same⟩
  exact unused (.inr ⟨row, member, same.symm⟩)

@[simp] theorem deleteUnusedPackages_accounts (db : Database) (ids : List RowId) :
    (db.deleteUnusedPackages ids).2.accounts = db.accounts := rfl

theorem mem_deletedPackages {db : Database} {ids : List RowId} {row : PackageRow} :
    row ∈ (db.deleteUnusedPackages ids).1 ↔
      row ∈ db.packages ∧ row.id ∈ ids ∧ ¬ db.PackageUsed row.id := by
  simp [deleteUnusedPackages, packageUnused_iff]

theorem mem_deleteUnusedPackages {db : Database} {ids : List RowId} {row : PackageRow} :
    row ∈ (db.deleteUnusedPackages ids).2.packages ↔
      row ∈ db.packages ∧ (row.id ∈ ids → db.PackageUsed row.id) := by
  simp only [deleteUnusedPackages, deletePackages, List.mem_filter, decide_eq_true_eq, List.mem_map,
    packageUnused_iff]
  exact and_congr_right fun member => spared_iff member

end Database

section DeleteExpired

variable (db : Database) (cutoff : Time)

@[simp] theorem deleteExpired_components :
    (deleteExpired db cutoff).2.components = db.components.filter fun row => !row.expired cutoff := by
  simp [deleteExpired, Database.deleteExpiredRecords]

@[simp] theorem deleteExpired_notes :
    (deleteExpired db cutoff).2.notes = db.notes.filter fun row => !row.expired cutoff := by
  simp [deleteExpired, Database.deleteExpiredRecords]

theorem mem_deleteExpired_accounts {row : AccountRow} :
    row ∈ (deleteExpired db cutoff).2.accounts ↔ row ∈ db.accounts ∧
      ((∃ component ∈ db.components, component.expired cutoff ∧
          component.verifiedAccountId = row.id) →
        (deleteExpired db cutoff).2.AccountUsed row.id) := by
  simp [deleteExpired, Database.mem_deleteUnusedAccounts, Database.deleteExpiredRecords,
    Database.AccountUsed, and_assoc]

theorem mem_deleteExpired_packages {row : PackageRow} :
    row ∈ (deleteExpired db cutoff).2.packages ↔ row ∈ db.packages ∧
      (((∃ component ∈ db.components, component.expired cutoff ∧ component.packageId = row.id) ∨
          ∃ note ∈ db.notes, note.expired cutoff ∧ note.packageId = row.id) →
        (deleteExpired db cutoff).2.PackageUsed row.id) := by
  simp [deleteExpired, Database.mem_deleteUnusedPackages, Database.deleteExpiredRecords,
    Database.PackageUsed, and_assoc]

theorem deleted_packages {row : PackageRow} (deleted : row ∈ (deleteExpired db cutoff).1.packages) :
    row ∈ db.packages ∧ row ∉ (deleteExpired db cutoff).2.packages := by
  have gone : row ∈ db.packages ∧
      (((∃ component ∈ db.components, component.expired cutoff ∧ component.packageId = row.id) ∨
        ∃ note ∈ db.notes, note.expired cutoff ∧ note.packageId = row.id) ∧
      ¬ (deleteExpired db cutoff).2.PackageUsed row.id) := by
    simpa [deleteExpired, Database.mem_deletedPackages, Database.deleteExpiredRecords,
      Database.PackageUsed, and_assoc] using deleted
  refine ⟨gone.1, fun kept => ?_⟩
  exact gone.2.2 (((mem_deleteExpired_packages db cutoff).mp kept).2 gone.2.1)

theorem deleteExpired_packages_sublist :
    (deleteExpired db cutoff).2.packages.Sublist db.packages := List.filter_sublist

theorem deleteExpired_accounts_sublist :
    (deleteExpired db cutoff).2.accounts.Sublist db.accounts := List.filter_sublist

variable {db}

theorem deleteExpired_keyed (keyed : db.Keyed) : (deleteExpired db cutoff).2.Keyed where
  packageIds := keyed.packageIds.sublist ((deleteExpired_packages_sublist db cutoff).map _)
  packageCommitments :=
    keyed.packageCommitments.sublist ((deleteExpired_packages_sublist db cutoff).map _)
  accountIds := keyed.accountIds.sublist ((deleteExpired_accounts_sublist db cutoff).map _)
  accountKeys := keyed.accountKeys.sublist ((deleteExpired_accounts_sublist db cutoff).map _)
  componentKeys := deleteExpired_components db cutoff ▸ nodup_filter _ _ keyed.componentKeys
  noteKeys := deleteExpired_notes db cutoff ▸ nodup_filter _ _ keyed.noteKeys
  componentPackage := by
    intro row member
    have old : row ∈ db.components := List.mem_of_mem_filter (deleteExpired_components db cutoff ▸ member)
    obtain ⟨package, inside, id, commitment⟩ := keyed.componentPackage row old
    refine ⟨package, (mem_deleteExpired_packages db cutoff).mpr ⟨inside, fun _ => ?_⟩, id, commitment⟩
    exact .inl ⟨row, member, id.symm⟩
  componentAccount := by
    intro row member
    have old : row ∈ db.components := List.mem_of_mem_filter (deleteExpired_components db cutoff ▸ member)
    obtain ⟨account, inside, id⟩ := keyed.componentAccount row old
    refine ⟨account, (mem_deleteExpired_accounts db cutoff).mpr ⟨inside, fun _ => ?_⟩, id⟩
    exact ⟨row, member, id.symm⟩
  notePackage := by
    intro row member
    have old : row ∈ db.notes := List.mem_of_mem_filter (deleteExpired_notes db cutoff ▸ member)
    obtain ⟨package, inside, id, commitment⟩ := keyed.notePackage row old
    refine ⟨package, (mem_deleteExpired_packages db cutoff).mpr ⟨inside, fun _ => ?_⟩, id, commitment⟩
    exact .inr ⟨row, member, id.symm⟩
  packageFresh := fun row member =>
    keyed.packageFresh row ((deleteExpired_packages_sublist db cutoff).subset member)
  accountFresh := fun row member =>
    keyed.accountFresh row ((deleteExpired_accounts_sublist db cutoff).subset member)

theorem deleteExpired_sound (sound : db.Sound) : (deleteExpired db cutoff).2.Sound where
  toKeyed := deleteExpired_keyed cutoff sound.toKeyed
  accountUsed := by
    intro row member
    obtain ⟨old, used⟩ := (mem_deleteExpired_accounts db cutoff).mp member
    obtain ⟨component, inside, under⟩ := sound.accountUsed row old
    by_cases gone : component.expired cutoff
    · exact used ⟨component, inside, gone, under⟩
    · exact ⟨component, by simp [inside, gone], under⟩
  packageUsed := by
    intro row member
    obtain ⟨old, used⟩ := (mem_deleteExpired_packages db cutoff).mp member
    rcases sound.packageUsed row old with ⟨component, inside, made⟩ | ⟨note, inside, made⟩
    · by_cases gone : component.expired cutoff
      · exact used (.inl ⟨component, inside, gone, made⟩)
      · exact .inl ⟨component, by simp [inside, gone], made⟩
    · by_cases gone : note.expired cutoff
      · exact used (.inr ⟨note, inside, gone, made⟩)
      · exact .inr ⟨note, by simp [inside, gone], made⟩

end DeleteExpired

theorem deleteArtifacts_get (faults : Faults) (store : MaspStore) (commitments : List Word)
    {commitment : Word} (kept : commitment ∉ commitments) (variant : MaspVariant) :
    (deleteArtifacts faults store commitments).2.get commitment variant =
      store.get commitment variant := by
  induction commitments generalizing store with
  | nil => rfl
  | cons first rest ih =>
    obtain ⟨differs, later⟩ : commitment ≠ first ∧ commitment ∉ rest := by simpa using kept
    unfold deleteArtifacts
    split
    · rfl
    · dsimp only
      split
      · simp [MaspStore.get_delete, differs]
      · rw [ih _ later]
        simp [MaspStore.get_delete, differs]

theorem cleanupPlaygroundResources_integrity (faults : Faults) {state : State} (now : Time)
    (sound : Integrity state) : Integrity (cleanupPlaygroundResources faults state now).2 := by
  have kept : ∀ row ∈ (deleteExpired state.db (now - PLAYGROUND_TTL_MS)).2.packages,
      row.commitment ∉ (deleteExpired state.db (now - PLAYGROUND_TTL_MS)).1.packages.map (·.commitment) := by
    intro row member listed
    obtain ⟨gone, deleted, same⟩ := List.mem_map.mp listed
    obtain ⟨old, absent⟩ := deleted_packages _ _ deleted
    have inside := (deleteExpired_packages_sublist _ _).subset member
    exact absent (List.inj_on_of_nodup_map sound.packageCommitments old inside same ▸ member)
  have after : ∀ store : MaspStore,
      (∀ row ∈ (deleteExpired state.db (now - PLAYGROUND_TTL_MS)).2.packages, ∀ variant,
        store.get row.commitment variant = state.store.get row.commitment variant) →
      Integrity { db := (deleteExpired state.db (now - PLAYGROUND_TTL_MS)).2, store := store } := by
    intro store same
    refine { deleteExpired_sound _ sound.toSound with released := ?_, debugged := ?_ }
    · intro row member
      rw [same row member]
      exact sound.released row ((deleteExpired_packages_sublist _ _).subset member)
    · intro row member built
      rw [same row member]
      exact sound.debugged row ((deleteExpired_packages_sublist _ _).subset member) built
  have deletes := fun row member =>
    deleteArtifacts_get faults state.store _ (kept row member)
  unfold cleanupPlaygroundResources
  dsimp only
  split
  · exact sound
  · split
    · rename_i store ran
      exact after store fun row member variant => by rw [← deletes row member variant, ran]
    · rename_i store ran
      exact after store fun row member variant => by rw [← deletes row member variant, ran]

theorem Integrity.put {state : State} (sound : Integrity state) (commitment : Word) (masp : Masp)
    (variant : MaspVariant) :
    Integrity { state with store := state.store.put commitment masp variant } where
  toSound := sound.toSound
  released := by
    intro row member
    rw [MaspStore.get_put]
    split
    · rfl
    · exact sound.released row member
  debugged := by
    intro row member built
    rw [MaspStore.get_put]
    split
    · rfl
    · exact sound.debugged row member built

theorem Integrity.record {state : State} {input : VerifyInput} {build : VerifyResponse} {now : Time}
    {package : PackageRow} {db : Database} (sound : Integrity state)
    (recorded : Recorded state.db input build now package db)
    (released : (state.store.get build.commitment .release).isSome) :
    Integrity { state with db := db } where
  toSound := recorded.sound sound.toSound
  released := by
    intro row member
    rcases (recorded.packages_mem row).mp member with old | rfl
    · exact sound.released row old
    · exact recorded.package_commitment ▸ released
  debugged := by
    intro row member built
    rcases (recorded.packages_mem row).mp member with old | rfl
    · exact sound.debugged row old built
    · rcases recorded.package_fresh with old | new
      · exact sound.debugged row old built
      · simp [new] at built

theorem updatePackage_sound {db : Database} (sound : db.Sound) (id : RowId)
    (update : PackageRow → PackageRow) (sameId : ∀ row, (update row).id = row.id)
    (sameCommitment : ∀ row, (update row).commitment = row.commitment) :
    (db.updatePackage id update).Sound := by
  have field : ∀ {Field : Type} (get : PackageRow → Field), (∀ row, get (update row) = get row) →
      (db.updatePackage id update).packages.map get = db.packages.map get := by
    intro Field get same
    simp only [Database.updatePackage, List.map_map]
    refine List.map_congr_left fun row _ => ?_
    simp only [Function.comp_apply]
    split
    · exact same row
    · rfl
  have kept : ∀ package ∈ db.packages, ∃ row ∈ (db.updatePackage id update).packages,
      row.id = package.id ∧ row.commitment = package.commitment := by
    intro package member
    refine ⟨_, List.mem_map.mpr ⟨package, member, rfl⟩, ?_, ?_⟩
    · split
      · exact sameId package
      · rfl
    · split
      · exact sameCommitment package
      · rfl
  have origin : ∀ row ∈ (db.updatePackage id update).packages, ∃ package ∈ db.packages,
      package.id = row.id := by
    intro row member
    have listed : row.id ∈ db.packages.map (·.id) := by
      rw [← field (·.id) sameId]
      exact List.mem_map_of_mem member
    exact List.mem_map.mp listed
  exact {
    packageIds := by rw [field (·.id) sameId]; exact sound.packageIds
    packageCommitments := by
      rw [field (·.commitment) sameCommitment]; exact sound.packageCommitments
    accountIds := sound.accountIds
    accountKeys := sound.accountKeys
    componentKeys := sound.componentKeys
    noteKeys := sound.noteKeys
    componentPackage := by
      intro row member
      obtain ⟨package, inside, sameId, sameCommitment⟩ := sound.componentPackage row member
      obtain ⟨updated, listed, id, commitment⟩ := kept package inside
      exact ⟨updated, listed, id.trans sameId, commitment.trans sameCommitment⟩
    componentAccount := sound.componentAccount
    notePackage := by
      intro row member
      obtain ⟨package, inside, sameId, sameCommitment⟩ := sound.notePackage row member
      obtain ⟨updated, listed, id, commitment⟩ := kept package inside
      exact ⟨updated, listed, id.trans sameId, commitment.trans sameCommitment⟩
    packageFresh := by
      intro row member
      obtain ⟨package, inside, same⟩ := origin row member
      exact same ▸ sound.packageFresh package inside
    accountFresh := sound.accountFresh
    accountUsed := sound.accountUsed
    packageUsed := by
      intro row member
      obtain ⟨package, inside, same⟩ := origin row member
      exact same ▸ sound.packageUsed package inside }

theorem Integrity.update {state : State} (sound : Integrity state) {id : RowId}
    {update : PackageRow → PackageRow} (sameId : ∀ row, (update row).id = row.id)
    (sameCommitment : ∀ row, (update row).commitment = row.commitment)
    (debugged : ∀ row ∈ state.db.packages, row.id = id → (update row).debugCommitment.isSome →
      (state.store.get row.commitment .debug).isSome) :
    Integrity { state with db := state.db.updatePackage id update } where
  toSound := updatePackage_sound sound.toSound id update sameId sameCommitment
  released := by
    intro row member
    obtain ⟨package, inside, rfl⟩ := List.mem_map.mp member
    dsimp only
    split
    · exact sameCommitment package ▸ sound.released package inside
    · exact sound.released package inside
  debugged := by
    intro row member
    obtain ⟨package, inside, rfl⟩ := List.mem_map.mp member
    dsimp only
    split
    · rename_i same
      exact sameCommitment package ▸ debugged package inside same
    · exact sound.debugged package inside

theorem storeDebugBuild_integrity (faults : Faults) {state : State} {packageId : RowId}
    {commitment : Word} (debug : Option DebugBuild) (now : Time) (sound : Integrity state)
    (stored : ∃ row ∈ state.db.packages, row.id = packageId ∧ row.commitment = commitment) :
    Integrity (storeDebugBuild faults state packageId commitment debug now).2 := by
  obtain ⟨package, inside, rfl, rfl⟩ := stored
  unfold storeDebugBuild
  split
  · exact sound
  · exact sound
  · rename_i masp debugCommitment cargoMidenVersion
    split
    · exact sound
    · dsimp only
      split
      · exact sound.put _ _ _
      · refine (sound.put package.commitment masp .debug).update (fun _ => rfl) (fun _ => rfl) ?_
        intro row member same _
        obtain rfl := List.inj_on_of_nodup_map sound.packageIds member inside same
        simp [MaspStore.get_put]

theorem releaseStore_integrity {state : State} (sound : Integrity state) (build : VerifyResponse) :
    Integrity { state with store := releaseStore state build } ∧
      ((releaseStore state build).get build.commitment .release).isSome := by
  unfold releaseStore
  cases stored : state.db.getPackage build.commitment with
  | none => exact ⟨sound.put _ _ _, by simp [MaspStore.get_put]⟩
  | some row =>
    obtain ⟨member, same⟩ := getPackage_eq_some stored
    exact ⟨sound, same ▸ sound.released row member⟩

theorem verifyResource_integrity (faults : Faults) {state : State} (input : VerifyInput)
    (answer : Except Error VerifyResponse) (now : Time) (sound : Integrity state) :
    Integrity (verifyResource faults state input answer now).2 := by
  rcases verifyResource_cases faults state input answer now with same | ⟨build, _, _, outcome⟩
  · rw [same]
    exact sound
  · obtain ⟨stored, released⟩ := releaseStore_integrity sound build
    rcases outcome with same | ⟨package, db, recorded, outcome⟩
    · rw [same]
      exact stored
    · have after := stored.record recorded released
      rcases outcome with same | same
      · rw [same]
        exact after
      · rw [same]
        have inside := (recorded.packages_mem package).mpr (.inr rfl)
        exact storeDebugBuild_integrity _ _ _ after
          ⟨package, inside, rfl, recorded.package_commitment⟩

theorem postDebugBuild_integrity (parse : String → Option (List (String × Json))) (faults : Faults)
    {state : State} (commitment : String) (answer : Files → String → Except Error DebugBuild)
    (now : Time) (sound : Integrity state) :
    Integrity (postDebugBuild parse faults state commitment answer now).2 := by
  rcases postDebugBuild_cases parse faults state commitment answer now with
    same | ⟨dbPackage, member, entrypoint, debug, next, _, _, stored, outcome⟩
  · rw [same]
    exact sound
  · have built : Integrity next :=
      stored ▸ storeDebugBuild_integrity faults (some debug) now sound ⟨dbPackage, member, rfl, rfl⟩
    rcases outcome with same | ⟨_, same⟩
    · rw [same]
      exact built
    · rw [same]
      exact built.update (fun _ => rfl) (fun _ => rfl) fun row member _ => built.debugged row member

inductive Call
  | verify (input : VerifyInput) (answer : Except Error VerifyResponse) (faults : Faults) (now : Time)
  | debugBuild (parse : String → Option (List (String × Json))) (commitment : String)
      (answer : Files → String → Except Error DebugBuild) (faults : Faults) (now : Time)
  | cleanup (faults : Faults) (now : Time)

def State.call (state : State) : Call → State
  | .verify input answer faults now => (verifyResource faults state input answer now).2
  | .debugBuild parse commitment answer faults now =>
    (postDebugBuild parse faults state commitment answer now).2
  | .cleanup faults now => (cleanupPlaygroundResources faults state now).2

def State.run (calls : List Call) : State :=
  calls.foldl State.call .empty

theorem call_integrity {state : State} (sound : Integrity state) (call : Call) :
    Integrity (state.call call) := by
  cases call with
  | verify input answer faults now => exact verifyResource_integrity faults input answer now sound
  | debugBuild parse commitment answer faults now =>
    exact postDebugBuild_integrity parse faults commitment answer now sound
  | cleanup faults now => exact cleanupPlaygroundResources_integrity faults now sound

theorem calls_integrity {state : State} (sound : Integrity state) (calls : List Call) :
    Integrity (calls.foldl State.call state) := by
  induction calls generalizing state with
  | nil => exact sound
  | cons call rest ih => exact ih (call_integrity sound call)

theorem run_integrity (calls : List Call) : Integrity (State.run calls) :=
  calls_integrity integrity_empty calls

end SourceVerification.Registry
