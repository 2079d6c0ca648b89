import SourceVerification.Concurrent.Sequential

set_option autoImplicit false

namespace SourceVerification.Concurrent

open Registry Versions Tables Runs
open Compile (counterCommitment)

section Cleanup

variable {p : Pid} {world : World} {cutoff : Time}

theorem deleteUnusedAccounts_again (db : Database) (ids : List RowId) :
    db.accounts.filter (·.id ∈ (db.deleteUnusedAccounts ids).1.map (·.id)) =
      (db.deleteUnusedAccounts ids).1 :=
  filter_key_mem db.accounts (·.id) fun id => id ∈ ids ∧ db.accountUnused id

theorem deleteUnusedPackages_again (db : Database) (ids : List RowId) :
    db.packages.filter (·.id ∈ (db.deleteUnusedPackages ids).1.map (·.id)) =
      (db.deleteUnusedPackages ids).1 :=
  filter_key_mem db.packages (·.id) fun id => id ∈ ids ∧ db.packageUnused id

def Sweeps (p : Pid) (cutoff : Time) (world : World) (pc : CleanupPc) (deleted : Deleted)
    (db : Database) : Prop :=
  ∃ final, Solo p world (.cleanup cutoff pc) final (.cleanup cutoff (.ended (.ok (counts deleted)))) ∧
    final.Quiet ∧ final.committed = { db := db, store := (deleteArtifacts (fun _ => false) world.store
      (deleted.packages.map (·.commitment))).2 }

theorem Sweeps.step {pc after : CleanupPc} {effect : Effect} {deleted : Deleted} {db : Database}
    (taken : pc.next p world cutoff = some (effect, after))
    (store : (effect.apply p world).store = world.store)
    (rest : Sweeps p cutoff (effect.apply p world) after deleted db) :
    Sweeps p cutoff world pc deleted db := by
  obtain ⟨final, solo, quiet, same⟩ := rest
  exact ⟨final, .cleanup taken solo, quiet, store ▸ same⟩

theorem solo_deletingArtifacts {deleted : Deleted} (quiet : world.Quiet) (rows : List PackageRow) :
    ∃ final, Solo p world
        (.cleanup cutoff (.deletingArtifacts deleted
          (rows.flatMap fun row => [(row.commitment, .release), (row.commitment, .debug)])))
        final (.cleanup cutoff (.ended (.ok (counts deleted)))) ∧ final.Quiet ∧
      final.committed = { world.committed with
        store := (deleteArtifacts (fun _ => false) world.store (rows.map (·.commitment))).2 } := by
  induction rows generalizing world with
  | nil => exact ⟨world, .cleanup rfl .refl, quiet, rfl⟩
  | cons row rest ih =>
    let removed := (Effect.remove row.commitment .debug).apply p
      ((Effect.remove row.commitment .release).apply p world)
    have still : removed.Quiet := ⟨quiet.packages, quiet.accounts, quiet.components, quiet.notes⟩
    obtain ⟨final, solo, settled, same⟩ := ih still
    exact ⟨final, .cleanup rfl (.cleanup rfl solo), settled, same⟩

theorem sweeps_committing {deleted : Deleted} (alone : world.Alone p) :
    Sweeps p cutoff world (.committing deleted) deleted (world.seenBy p) := by
  obtain ⟨final, solo, settled, same⟩ := @solo_deletingArtifacts p (Effect.commit.apply p world) cutoff
    deleted alone.quiet_commit deleted.packages
  refine ⟨final, .cleanup rfl solo, settled, ?_⟩
  rw [same, alone.committed_commit]
  rfl

theorem World.Alone.seenBy_deletePackages (alone : world.Alone p) (ids : List RowId) :
    ((Effect.deletePackages ids).apply p world).seenBy p = (world.seenBy p).deletePackages ids := by
  simp [World.seenBy, Effect.apply, Database.deletePackages, alone.packages.view_delete,
    alone.components.view_delete, alone.notes.view_delete]

theorem World.Alone.seenBy_deleteAccounts (alone : world.Alone p) (ids : List RowId) :
    ((Effect.deleteAccounts ids).apply p world).seenBy p = (world.seenBy p).deleteAccounts ids := by
  simp [World.seenBy, Effect.apply, Database.deleteAccounts, alone.accounts.view_delete,
    alone.components.view_delete]

theorem sweeps_deletingPackages {deleted : Deleted} {ids : List RowId} (alone : world.Alone p) :
    Sweeps p cutoff world (.deletingPackages deleted ids)
      { deleted with packages := (world.seenBy p).packages.filter (·.id ∈ ids) }
      ((world.seenBy p).deletePackages ids) := by
  have deletes : (CleanupPc.deletingPackages deleted ids).next p world cutoff =
      some (.deletePackages ids, .committing
        { deleted with packages := (view p world.packages).filter (·.id ∈ ids) }) := by
    simp only [CleanupPc.next, alone.packages.held, alone.components.held, alone.notes.held]
    rfl
  refine .step deletes rfl ?_
  rw [← alone.seenBy_deletePackages]
  exact sweeps_committing (alone.apply _)

theorem sweeps_unusedPackages {deleted : Deleted} {db : Database} (alone : world.Alone p)
    (sees : world.seenBy p = db) (first : deleted.packages = []) :
    Sweeps p cutoff world (deletingUnusedPackages deleted)
      { deleted with packages := (db.deleteUnusedPackages (packageIds deleted)).1 }
      (db.deleteUnusedPackages (packageIds deleted)).2 := by
  subst sees
  unfold deletingUnusedPackages
  split_ifs with none
  · have nothing : (world.seenBy p).deleteUnusedPackages [] = ([], world.seenBy p) := by
      simp [Database.deleteUnusedPackages, Database.deletePackages]
    rw [none, nothing, ← first]
    exact sweeps_committing alone
  · refine .step rfl rfl ?_
    have unused : ((view p world.packages).filter fun row => row.id ∈ packageIds deleted ∧
          (view p world.components).all (·.packageId ≠ row.id) ∧
          (view p world.notes).all (·.packageId ≠ row.id)) =
        ((world.seenBy p).deleteUnusedPackages (packageIds deleted)).1 := by
      refine List.filter_congr fun row _ => ?_
      simp [Database.packageUnused, World.seenBy]
    rw [unused]
    have swept : Sweeps p cutoff world (.deletingPackages deleted
        (((world.seenBy p).deleteUnusedPackages (packageIds deleted)).1.map (·.id))) _ _ :=
      sweeps_deletingPackages alone
    rw [deleteUnusedPackages_again] at swept
    exact swept

theorem sweeps_deletingAccounts {deleted : Deleted} {ids : List RowId} (alone : world.Alone p)
    (first : deleted.packages = []) :
    Sweeps p cutoff world (.deletingAccounts deleted ids)
      { deleted with
        accounts := (world.seenBy p).accounts.filter (·.id ∈ ids)
        packages := (((world.seenBy p).deleteAccounts ids).deleteUnusedPackages
          (packageIds deleted)).1 }
      (((world.seenBy p).deleteAccounts ids).deleteUnusedPackages (packageIds deleted)).2 := by
  have deletes : (CleanupPc.deletingAccounts deleted ids).next p world cutoff =
      some (.deleteAccounts ids, deletingUnusedPackages
        { deleted with accounts := (view p world.accounts).filter (·.id ∈ ids) }) := by
    simp only [CleanupPc.next, alone.accounts.held, alone.components.held]
    rfl
  exact .step deletes rfl
    (sweeps_unusedPackages (alone.apply _) (alone.seenBy_deleteAccounts ids) first)

theorem sweeps_unused {deleted : Deleted} {db : Database} (alone : world.Alone p)
    (sees : world.seenBy p = db) (first : deleted.accounts = []) (second : deleted.packages = []) :
    let (accounts, db) := db.deleteUnusedAccounts (accountIds deleted)
    let (packages, db) := db.deleteUnusedPackages (packageIds deleted)
    Sweeps p cutoff world (deletingUnused deleted)
      { deleted with accounts := accounts, packages := packages } db := by
  subst sees
  unfold deletingUnused
  split_ifs with none
  · have nothing : (world.seenBy p).deleteUnusedAccounts [] = ([], world.seenBy p) := by
      simp [Database.deleteUnusedAccounts, Database.deleteAccounts]
    rw [none, nothing, ← first]
    exact sweeps_unusedPackages alone rfl second
  · refine .step rfl rfl ?_
    have unused : ((view p world.accounts).filter fun row => row.id ∈ accountIds deleted ∧
          (view p world.components).all (·.verifiedAccountId ≠ row.id)) =
        ((world.seenBy p).deleteUnusedAccounts (accountIds deleted)).1 := rfl
    rw [unused]
    have swept : Sweeps p cutoff world (.deletingAccounts deleted
        (((world.seenBy p).deleteUnusedAccounts (accountIds deleted)).1.map (·.id))) _ _ :=
      sweeps_deletingAccounts alone second
    rw [deleteUnusedAccounts_again] at swept
    exact swept

theorem sweeps_beginning (alone : world.Alone p) :
    Sweeps p cutoff world .beginning (deleteExpired (world.seenBy p) cutoff).1
      (deleteExpired (world.seenBy p) cutoff).2 := by
  let components := (view p world.components).filter (·.expired cutoff)
  let notes := (view p world.notes).filter (·.expired cutoff)
  let withoutComponents := (Effect.deleteComponents components).apply p world
  let withoutNotes := (Effect.deleteNotes notes).apply p withoutComponents
  have deletesComponents : (CleanupPc.deletingComponents components).next p world cutoff =
      some (.deleteComponents components, .scanningNotes
        { components := components, notes := [], accounts := [], packages := [] }) := by
    simp only [CleanupPc.next, alone.components.held, components, filter_mem_filter]
    rfl
  have deletesNotes : (CleanupPc.deletingNotes
      { components := components, notes := [], accounts := [], packages := [] } notes).next p
        withoutComponents cutoff =
      some (.deleteNotes notes, deletingUnused
        { components := components, notes := notes, accounts := [], packages := [] }) := by
    have others : withoutComponents.notes = world.notes := rfl
    simp only [CleanupPc.next, others, alone.notes.held, notes, filter_mem_filter]
    rfl
  have sees : withoutNotes.seenBy p = (((world.seenBy p).deleteExpiredRecords cutoff).2).2 := by
    simp only [World.seenBy, Effect.apply, withoutNotes, withoutComponents,
      alone.components.view_delete, alone.notes.view_delete, components, notes,
      filter_not_mem_filter, Database.deleteExpiredRecords]
  have still : withoutNotes.Alone p := (alone.apply _).apply _
  refine .step rfl rfl (.step rfl rfl (.step deletesComponents rfl (.step rfl rfl ?_)))
  exact .step deletesNotes rfl (sweeps_unused still sees rfl rfl)

theorem deleteArtifacts_ok (store : MaspStore) (commitments : List Word) :
    (deleteArtifacts (fun _ => false) store commitments).1 = .ok () := by
  induction commitments generalizing store with
  | nil => rfl
  | cons commitment rest ih => exact ih _

end Cleanup

theorem advance_cleanupPlayground {state : State} {p : Pid} {now : Time} (quiet : state.world.Quiet)
    (called : state.calls p = some (.cleanup (now - PLAYGROUND_TTL_MS) .beginning)) :
    ∃ steps next result, Runs.exec Concurrent.step (fun _ _ => true) state (advances p steps) =
        some next ∧
      next.calls p = some (.cleanup (now - PLAYGROUND_TTL_MS) (.ended result)) ∧ next.world.Quiet ∧
      (result, next.world.committed) =
        cleanupPlaygroundResources (fun _ => false) state.world.committed now := by
  obtain ⟨final, solo, still, same⟩ : Sweeps p _ state.world .beginning _ _ :=
    sweeps_beginning (quiet.inserting p).alone
  obtain ⟨steps, next, ran, rfl, reached⟩ := solo.exec rfl called
  refine ⟨steps, next, _, ran, reached, still, ?_⟩
  rw [same, quiet.seenBy]
  let expired := deleteExpired state.world.committed.db (now - PLAYGROUND_TTL_MS)
  have ends : deleteArtifacts (fun _ => false) state.world.committed.store
      (expired.1.packages.map (·.commitment)) = (.ok (), _) :=
    Prod.ext (deleteArtifacts_ok ..) rfl
  simp only [cleanupPlaygroundResources, Bool.false_eq_true, if_false]
  rw [ends]
  rfl

def adderAfterDay : List Action :=
  playgroundDay ++ verifies 1 "miden-verify" (verifiedBuild adderCode adderCommitment [2]) 9

theorem playground_cleaned_alone : ∃ before steps next,
    exec Concurrent.step (fun _ _ => true) State.initial adderAfterDay = some before ∧
      (Versions.committed before.world.packages).map (·.commitment) = [counterCommitment, adderCommitment] ∧
      before.world.store.get counterCommitment .release = some [1] ∧
      exec Concurrent.step (fun _ _ => true)
        (before.take 2 .idle (.cleanup (90000000 - PLAYGROUND_TTL_MS) .beginning)) (advances 2 steps) = some next ∧
      next.calls 2 = some (.cleanup (90000000 - PLAYGROUND_TTL_MS) (.ended (.ok {
        verifiedAccountComponents := 1
        verifiedAccounts := 1
        verifiedNotes := 0
        packages := 1
        masps := 1 }))) ∧
      next.world.committed.db.packages.map (·.commitment) = [adderCommitment] ∧
      next.world.committed.db.accounts.map (·.code) = [adderCode] ∧
      next.world.committed.db.components.map (·.packageCommitment) = [adderCommitment] ∧
      next.world.committed.store.get counterCommitment .release = none ∧
      next.world.committed.store.get adderCommitment .release = some [2] := by
  have reached : (exec Concurrent.step (fun _ _ => true) State.initial adderAfterDay).any (fun before =>
      let cleaned := cleanupPlaygroundResources (fun _ => false) before.world.committed 90000000
      before.world.Quiet ∧
        (Versions.committed before.world.packages).map (·.commitment) = [counterCommitment, adderCommitment] ∧
        before.world.store.get counterCommitment .release = some [1] ∧
        cleaned.1 = .ok ⟨1, 1, 0, 1, 1⟩ ∧
        cleaned.2.db.packages.map (·.commitment) = [adderCommitment] ∧
        cleaned.2.db.accounts.map (·.code) = [adderCode] ∧
        cleaned.2.db.components.map (·.packageCommitment) = [adderCommitment] ∧
        cleaned.2.store.get counterCommitment .release = none ∧
        cleaned.2.store.get adderCommitment .release = some [2]) = true := by decide +kernel
  obtain ⟨before, ran, shown⟩ := (Option.any_eq_true _ _).mp reached
  obtain ⟨quiet, packages, stored, counted, left⟩ := of_decide_eq_true shown
  have still : (before.take 2 .idle (.cleanup (90000000 - PLAYGROUND_TTL_MS) .beginning)).world.Quiet := quiet
  obtain ⟨steps, next, result, cleans, ended, -, same⟩ := advance_cleanupPlayground still (take_calls_self ..)
  have answered : result = .ok ⟨1, 1, 0, 1, 1⟩ := (congrArg Prod.fst same).trans counted
  have committed : next.world.committed = _ := congrArg Prod.snd same
  refine ⟨before, steps, next, ran, packages, stored, cleans, ?_⟩
  rw [ended, answered, committed]
  exact ⟨rfl, left⟩

end SourceVerification.Concurrent
