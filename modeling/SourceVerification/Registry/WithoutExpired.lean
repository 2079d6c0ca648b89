import SourceVerification.Registry.Integrity

set_option autoImplicit false

namespace SourceVerification.Registry

open Tables

namespace Database

variable (db : Database) (cutoff : Time)

def keepsAccount (row : AccountRow) : Bool :=
  db.components.any fun component => !component.expired cutoff && component.verifiedAccountId = row.id

def keepsPackage (row : PackageRow) : Bool :=
  (db.components.any fun component => !component.expired cutoff && component.packageId = row.id) ||
    db.notes.any fun note => !note.expired cutoff && note.packageId = row.id

def withoutExpired : Database where
  packages := db.packages.filter (db.keepsPackage cutoff)
  accounts := db.accounts.filter (db.keepsAccount cutoff)
  components := db.components.filter fun row => !row.expired cutoff
  notes := db.notes.filter fun row => !row.expired cutoff
  nextId := db.nextId

def onlyExpired : Deleted where
  components := db.components.filter (·.expired cutoff)
  notes := db.notes.filter (·.expired cutoff)
  accounts := db.accounts.filter fun row => !db.keepsAccount cutoff row
  packages := db.packages.filter fun row => !db.keepsPackage cutoff row

variable {db cutoff}

theorem keepsAccount_iff {row : AccountRow} : db.keepsAccount cutoff row = true ↔
    ∃ component ∈ db.components, component.expired cutoff = false ∧ component.verifiedAccountId = row.id := by
  simp [keepsAccount]

theorem keepsPackage_iff {row : PackageRow} : db.keepsPackage cutoff row = true ↔
    (∃ component ∈ db.components, component.expired cutoff = false ∧ component.packageId = row.id) ∨
      ∃ note ∈ db.notes, note.expired cutoff = false ∧ note.packageId = row.id := by
  simp [keepsPackage]

theorem account_deleted_iff (sound : db.Sound) {row : AccountRow} (member : row ∈ db.accounts) :
    ((∃ component ∈ db.components, component.expired cutoff = true ∧
        component.verifiedAccountId = row.id) ∧
      ¬ (deleteExpired db cutoff).2.AccountUsed row.id) ↔ db.keepsAccount cutoff row = false := by
  have used : (deleteExpired db cutoff).2.AccountUsed row.id ↔ db.keepsAccount cutoff row = true := by
    simp [AccountUsed, keepsAccount_iff, and_assoc]
  rw [used, Bool.not_eq_true, and_iff_right_iff_imp]
  intro unkept
  obtain ⟨component, inside, under⟩ := sound.accountUsed row member
  refine ⟨component, inside, ?_, under⟩
  by_contra stays
  have kept := keepsAccount_iff.mpr ⟨component, inside, by simpa using stays, under⟩
  rw [unkept] at kept
  cases kept

theorem package_deleted_iff (sound : db.Sound) {row : PackageRow} (member : row ∈ db.packages) :
    (((∃ component ∈ db.components, component.expired cutoff = true ∧ component.packageId = row.id) ∨
        ∃ note ∈ db.notes, note.expired cutoff = true ∧ note.packageId = row.id) ∧
      ¬ (deleteExpired db cutoff).2.PackageUsed row.id) ↔ db.keepsPackage cutoff row = false := by
  have used : (deleteExpired db cutoff).2.PackageUsed row.id ↔ db.keepsPackage cutoff row = true := by
    simp [PackageUsed, keepsPackage_iff, and_assoc]
  rw [used, Bool.not_eq_true, and_iff_right_iff_imp]
  intro unkept
  have stays (kept : db.keepsPackage cutoff row = true) : False := by
    rw [unkept] at kept
    cases kept
  rcases sound.packageUsed row member with ⟨component, inside, made⟩ | ⟨note, inside, made⟩
  · refine .inl ⟨component, inside, ?_, made⟩
    by_contra live
    exact stays (keepsPackage_iff.mpr (.inl ⟨component, inside, by simpa using live, made⟩))
  · refine .inr ⟨note, inside, ?_, made⟩
    by_contra live
    exact stays (keepsPackage_iff.mpr (.inr ⟨note, inside, by simpa using live, made⟩))

theorem filter_eq_filter {Row : Type} {rows : List Row} {listed wanted : Row → Bool}
    (same : ∀ row ∈ rows, row ∈ rows.filter listed ↔ wanted row = true) :
    rows.filter listed = rows.filter wanted := by
  refine List.filter_congr fun row member => ?_
  rw [Bool.eq_iff_iff, ← same row member, List.mem_filter, and_iff_right member]

theorem deleteExpired_accounts (sound : db.Sound) :
    (deleteExpired db cutoff).2.accounts = db.accounts.filter (db.keepsAccount cutoff) := by
  refine filter_eq_filter fun row member => ?_
  have kept : row ∈ (deleteExpired db cutoff).2.accounts ↔ _ := mem_deleteExpired_accounts db cutoff
  have gone : _ ↔ db.keepsAccount cutoff row = false := account_deleted_iff sound member
  rw [← Bool.not_eq_false, ← gone, not_and, not_not]
  exact kept.trans (and_iff_right member)

theorem deleteExpired_packages (sound : db.Sound) :
    (deleteExpired db cutoff).2.packages = db.packages.filter (db.keepsPackage cutoff) := by
  refine filter_eq_filter fun row member => ?_
  have kept : row ∈ (deleteExpired db cutoff).2.packages ↔ _ := mem_deleteExpired_packages db cutoff
  have gone : _ ↔ db.keepsPackage cutoff row = false := package_deleted_iff sound member
  rw [← Bool.not_eq_false, ← gone, not_and, not_not]
  exact kept.trans (and_iff_right member)

theorem deleteExpired_withoutExpired (sound : db.Sound) :
    (deleteExpired db cutoff).2 = db.withoutExpired cutoff := by
  have ids : (deleteExpired db cutoff).2.nextId = db.nextId := rfl
  rw [withoutExpired, ← deleteExpired_accounts sound, ← deleteExpired_packages sound,
    ← deleteExpired_components, ← deleteExpired_notes, ← ids]

theorem deleteExpired_onlyExpired (sound : db.Sound) :
    (deleteExpired db cutoff).1 = db.onlyExpired cutoff := by
  have accounts : (deleteExpired db cutoff).1.accounts =
      db.accounts.filter fun row => !db.keepsAccount cutoff row := by
    refine filter_eq_filter fun row member => ?_
    have inside : row ∈ db.accounts := member
    rw [Bool.not_eq_true', ← account_deleted_iff sound inside, AccountUsed, deleteExpired_components]
    simp [accountUnused_iff, AccountUsed, inside, and_assoc]
  have packages : (deleteExpired db cutoff).1.packages =
      db.packages.filter fun row => !db.keepsPackage cutoff row := by
    refine filter_eq_filter fun row member => ?_
    have inside : row ∈ db.packages := member
    rw [Bool.not_eq_true', ← package_deleted_iff sound inside]
    change row ∈ (deleteExpired db cutoff).1.packages ↔ _
    simp [deleteExpired, mem_deletedPackages, deleteExpiredRecords, PackageUsed, inside,
      and_assoc]
  rw [onlyExpired, ← accounts, ← packages]
  rfl

theorem keepsAccount_withoutExpired :
    (db.withoutExpired cutoff).keepsAccount cutoff = db.keepsAccount cutoff := by
  funext row
  rw [Bool.eq_iff_iff]
  simp [keepsAccount_iff, withoutExpired, and_assoc]

theorem keepsPackage_withoutExpired :
    (db.withoutExpired cutoff).keepsPackage cutoff = db.keepsPackage cutoff := by
  funext row
  rw [Bool.eq_iff_iff]
  simp [keepsPackage_iff, withoutExpired, and_assoc]

theorem withoutExpired_twice :
    (db.withoutExpired cutoff).withoutExpired cutoff = db.withoutExpired cutoff := by
  rw [withoutExpired]
  simp only [keepsAccount_withoutExpired, keepsPackage_withoutExpired]
  simp [withoutExpired]

theorem onlyExpired_withoutExpired :
    (db.withoutExpired cutoff).onlyExpired cutoff =
      { components := [], notes := [], accounts := [], packages := [] } := by
  rw [onlyExpired]
  simp only [keepsAccount_withoutExpired, keepsPackage_withoutExpired]
  simp [withoutExpired]

end Database

def Deleted.counts (deleted : Deleted) : CleanupCounts where
  verifiedAccountComponents := deleted.components.length
  verifiedAccounts := deleted.accounts.length
  verifiedNotes := deleted.notes.length
  packages := deleted.packages.length
  masps := deleted.packages.length

theorem deleteArtifacts_all (store : MaspStore) (commitments : List Word) :
    (deleteArtifacts (fun _ => false) store commitments).1 = .ok () ∧
      ∀ commitment variant, (deleteArtifacts (fun _ => false) store commitments).2.get commitment variant =
        if commitment ∈ commitments then none else store.get commitment variant := by
  induction commitments generalizing store with
  | nil => simp [deleteArtifacts]
  | cons first rest ih =>
    obtain ⟨done, gone⟩ := ih ((store.delete first .release).delete first .debug)
    refine ⟨done, fun commitment variant => (gone commitment variant).trans ?_⟩
    by_cases later : commitment ∈ rest
    · simp [later]
    · by_cases same : commitment = first
      · cases variant <;> simp [MaspStore.get_delete, same]
      · simp [later, same, MaspStore.get_delete]

structure CleanedUp (before : State) (cutoff : Time) (after : State) : Prop where
  db : after.db = before.db.withoutExpired cutoff
  deleted : ∀ row ∈ before.db.packages, before.db.keepsPackage cutoff row = false → ∀ variant,
    after.store.get row.commitment variant = none
  kept : ∀ commitment, (∀ row ∈ before.db.packages, row.commitment = commitment →
    before.db.keepsPackage cutoff row = true) → ∀ variant,
      after.store.get commitment variant = before.store.get commitment variant

theorem cleanupPlaygroundResources_ok {state : State} (sound : state.db.Sound) (now : Time) :
    cleanupPlaygroundResources (fun _ => false) state now =
      (.ok (state.db.onlyExpired (now - PLAYGROUND_TTL_MS)).counts, {
        db := state.db.withoutExpired (now - PLAYGROUND_TTL_MS)
        store := (deleteArtifacts (fun _ => false) state.store
          ((state.db.onlyExpired (now - PLAYGROUND_TTL_MS)).packages.map (·.commitment))).2 }) := by
  have rows : _ = state.db.withoutExpired (now - PLAYGROUND_TTL_MS) :=
    Database.deleteExpired_withoutExpired sound
  have deleted : _ = state.db.onlyExpired (now - PLAYGROUND_TTL_MS) :=
    Database.deleteExpired_onlyExpired sound
  have done := (deleteArtifacts_all state.store
    ((state.db.onlyExpired (now - PLAYGROUND_TTL_MS)).packages.map (·.commitment))).1
  unfold cleanupPlaygroundResources
  simp only [Bool.false_eq_true, if_false, rows, deleted]
  generalize deleteArtifacts (fun _ => false) state.store
    ((state.db.onlyExpired (now - PLAYGROUND_TTL_MS)).packages.map (·.commitment)) = artifacts at done ⊢
  obtain ⟨outcome, store⟩ := artifacts
  obtain rfl : outcome = .ok () := done
  rfl

structure Splits (before : Database) (deleted : Deleted) (after : Database) : Prop where
  packages : (deleted.packages ++ after.packages).Perm before.packages
  accounts : (deleted.accounts ++ after.accounts).Perm before.accounts
  components : (deleted.components ++ after.components).Perm before.components
  notes : (deleted.notes ++ after.notes).Perm before.notes

theorem splits_withoutExpired (db : Database) (cutoff : Time) :
    Splits db (db.onlyExpired cutoff) (db.withoutExpired cutoff) where
  packages := List.perm_append_comm.trans (List.filter_append_perm (db.keepsPackage cutoff) db.packages)
  accounts := List.perm_append_comm.trans (List.filter_append_perm (db.keepsAccount cutoff) db.accounts)
  components := List.filter_append_perm (ComponentRow.expired cutoff) db.components
  notes := List.filter_append_perm (NoteRow.expired cutoff) db.notes

theorem cleanedUp (state : State) (cutoff : Time) :
    CleanedUp state cutoff {
      db := state.db.withoutExpired cutoff
      store := (deleteArtifacts (fun _ => false) state.store
        ((state.db.onlyExpired cutoff).packages.map (·.commitment))).2 } where
  db := rfl
  deleted row member unkept variant := by
    have listed : row.commitment ∈ (state.db.onlyExpired cutoff).packages.map (·.commitment) :=
      List.mem_map_of_mem (List.mem_filter.mpr ⟨member, by simp [unkept]⟩)
    rw [(deleteArtifacts_all _ _).2, if_pos listed]
  kept commitment stay variant := by
    have unlisted : commitment ∉ (state.db.onlyExpired cutoff).packages.map (·.commitment) := by
      intro listed
      obtain ⟨row, deleted, same⟩ := List.mem_map.mp listed
      obtain ⟨member, unkept⟩ := List.mem_filter.mp deleted
      simp [stay row member same] at unkept
    rw [(deleteArtifacts_all _ _).2, if_neg unlisted]

/-- A cleanup deletes the expired records, the accounts and packages that no other record is of, and
those packages' artifacts; a second one deletes nothing. -/
theorem cleanup_deletes_only_expired {state : State} (sound : Integrity state) (now : Time) :
    ∃ after, cleanupPlaygroundResources (fun _ => false) state now =
        (.ok (state.db.onlyExpired (now - PLAYGROUND_TTL_MS)).counts, after) ∧
      CleanedUp state (now - PLAYGROUND_TTL_MS) after ∧
      Splits state.db (state.db.onlyExpired (now - PLAYGROUND_TTL_MS)) after.db ∧
      cleanupPlaygroundResources (fun _ => false) after now = (.ok ⟨0, 0, 0, 0, 0⟩, after) := by
  have ran := cleanupPlaygroundResources_ok sound.toSound now
  refine ⟨_, ran, cleanedUp state _, splits_withoutExpired _ _, ?_⟩
  have still := cleanupPlaygroundResources_integrity (fun _ => false) now sound
  rw [ran] at still
  rw [cleanupPlaygroundResources_ok still.toSound, Database.onlyExpired_withoutExpired,
    Database.withoutExpired_twice]
  rfl

def throwaway : Word :=
  ⟨"0x8888888888888888888888888888888888888888888888888888888888888888", by decide⟩

def playgroundCall : Call :=
  .verify {
      networkId := "mtst"
      resource := .note throwaway.text
      project := { files := [], entrypoint := ".", name := "note" }
      source := PLAYGROUND_SOURCE }
    (.ok {
      masp := [1]
      commitment := throwaway
      kind := .note
      manifest := .null
      readOnly := .null
      files := []
      verified := true
      root := throwaway
      cargoMidenVersion := none
      debug := none })
    (fun _ => false) 0

theorem playground_note_deleted :
    ∃ after, cleanupPlaygroundResources (fun _ => false) (State.run [playgroundCall])
        (2 * PLAYGROUND_TTL_MS) = (.ok ⟨0, 0, 1, 1, 1⟩, after) ∧
      after.db.packages = [] ∧ after.store.get throwaway .release = none := by
  obtain ⟨after, ran, left, -⟩ := cleanup_deletes_only_expired
    (calls_integrity integrity_empty [playgroundCall]) (2 * PLAYGROUND_TTL_MS)
  have deleted := left.deleted _ (List.mem_singleton_self _) (by rfl) .release
  exact ⟨after, ran, by rw [left.db]; rfl, deleted⟩

end SourceVerification.Registry
