import SourceVerification.Registry.CleanupPlayground
import SourceVerification.Shared.Statements

set_option autoImplicit false

namespace SourceVerification.Concurrent

open Registry Versions

abbrev Pid := Nat

structure World where
  packages : Table Pid PackageRow
  accounts : Table Pid AccountRow
  components : Table Pid ComponentRow
  notes : Table Pid NoteRow
  store : MaspStore
  nextId : RowId
  clock : Time

def World.empty : World where
  packages := []
  accounts := []
  components := []
  notes := []
  store _ := none
  nextId := 0
  clock := 0

inductive Effect
  | idle
  | put (commitment : Word) (masp : Masp) (variant : MaspVariant)
  | remove (commitment : Word) (variant : MaspVariant)
  | insertPackage (row : PackageRow)
  | insertAccount (row : AccountRow)
  | insertComponent (row : ComponentRow)
  | insertNote (row : NoteRow)
  | deleteComponents (rows : List ComponentRow)
  | deleteNotes (rows : List NoteRow)
  -- With what the foreign keys cascade to.
  | deleteAccounts (ids : List RowId)
  | deletePackages (ids : List RowId)
  | updateDebug (packageId : RowId) (debugCommitment : Word) (builtWith : Option String)
  | commit
  | rollback

def withDebugAt (packageId : RowId) (debugCommitment : Word) (builtWith : Option String) (now : Time)
    (row : PackageRow) : PackageRow :=
  if row.id = packageId then row.withDebug debugCommitment builtWith now else row

theorem withDebugAt_id (packageId : RowId) (debugCommitment : Word) (builtWith : Option String)
    (now : Time) (row : PackageRow) :
    (withDebugAt packageId debugCommitment builtWith now row).id = row.id := by
  unfold withDebugAt
  split_ifs <;> rfl

theorem withDebugAt_commitment (packageId : RowId) (debugCommitment : Word)
    (builtWith : Option String) (now : Time) (row : PackageRow) :
    (withDebugAt packageId debugCommitment builtWith now row).commitment = row.commitment := by
  unfold withDebugAt
  split_ifs <;> rfl

def Effect.apply (p : Pid) (world : World) : Effect → World
  | .idle => world
  | .put commitment masp variant => { world with store := world.store.put commitment masp variant }
  | .remove commitment variant => { world with store := world.store.delete commitment variant }
  | .insertPackage row =>
    { world with packages := insert p world.packages row, nextId := world.nextId + 1 }
  | .insertAccount row =>
    { world with accounts := insert p world.accounts row, nextId := world.nextId + 1 }
  | .insertComponent row =>
    { world with components := insert p world.components row, nextId := world.nextId + 1 }
  | .insertNote row => { world with notes := insert p world.notes row, nextId := world.nextId + 1 }
  | .deleteComponents rows => { world with components := delete p world.components (· ∈ rows) }
  | .deleteNotes rows => { world with notes := delete p world.notes (· ∈ rows) }
  | .deleteAccounts ids => { world with
      accounts := delete p world.accounts (·.id ∈ ids)
      components := delete p world.components (·.verifiedAccountId ∈ ids) }
  | .deletePackages ids => { world with
      packages := delete p world.packages (·.id ∈ ids)
      components := delete p world.components (·.packageId ∈ ids)
      notes := delete p world.notes (·.packageId ∈ ids) }
  | .updateDebug packageId debugCommitment builtWith => { world with
      packages :=
        update (withDebugAt packageId debugCommitment builtWith world.clock) world.packages }
  | .commit => { world with
      packages := Versions.commit p world.packages
      accounts := Versions.commit p world.accounts
      components := Versions.commit p world.components
      notes := Versions.commit p world.notes }
  | .rollback => { world with
      packages := Versions.rollback p world.packages
      accounts := Versions.rollback p world.accounts
      components := Versions.rollback p world.components
      notes := Versions.rollback p world.notes }

namespace Effect

def onPackages : Effect → Statement PackageRow
  | .insertPackage row => .insert row
  | .deletePackages ids => .delete (·.id ∈ ids)
  | .commit => .commit
  | .rollback => .rollback
  | _ => .keep

def onAccounts : Effect → Statement AccountRow
  | .insertAccount row => .insert row
  | .deleteAccounts ids => .delete (·.id ∈ ids)
  | .commit => .commit
  | .rollback => .rollback
  | _ => .keep

def onComponents : Effect → Statement ComponentRow
  | .insertComponent row => .insert row
  | .deleteComponents rows => .delete (· ∈ rows)
  | .deleteAccounts ids => .delete (·.verifiedAccountId ∈ ids)
  | .deletePackages ids => .delete (·.packageId ∈ ids)
  | .commit => .commit
  | .rollback => .rollback
  | _ => .keep

def onNotes : Effect → Statement NoteRow
  | .insertNote row => .insert row
  | .deleteNotes rows => .delete (· ∈ rows)
  | .deletePackages ids => .delete (·.packageId ∈ ids)
  | .commit => .commit
  | .rollback => .rollback
  | _ => .keep

def rewrites (now : Time) : Effect → PackageRow → PackageRow
  | .updateDebug packageId debugCommitment builtWith =>
    withDebugAt packageId debugCommitment builtWith now
  | _ => id

def ends : Effect → Bool
  | .commit => true
  | .rollback => true
  | _ => false

variable (p : Pid) (world : World) (effect : Effect)

theorem packages_apply : (effect.apply p world).packages =
    update (effect.rewrites world.clock) (effect.onPackages.apply p world.packages) := by
  cases effect <;> simp [apply, rewrites, onPackages, Statement.apply, update]

theorem accounts_apply :
    (effect.apply p world).accounts = effect.onAccounts.apply p world.accounts := by
  cases effect <;> rfl

theorem components_apply :
    (effect.apply p world).components = effect.onComponents.apply p world.components := by
  cases effect <;> rfl

theorem notes_apply : (effect.apply p world).notes = effect.onNotes.apply p world.notes := by
  cases effect <;> rfl

theorem nextId_le_apply : world.nextId ≤ (effect.apply p world).nextId := by
  cases effect <;> simp [apply]

variable {effect}

@[simp] theorem onPackages_ends : effect.onPackages.ends = effect.ends := by
  cases effect <;> rfl

@[simp] theorem onComponents_ends : effect.onComponents.ends = effect.ends := by
  cases effect <;> rfl

@[simp] theorem onNotes_ends : effect.onNotes.ends = effect.ends := by
  cases effect <;> rfl

theorem onPackages_eq_insert {row : PackageRow} :
    effect.onPackages = .insert row ↔ effect = .insertPackage row := by
  cases effect <;> simp [onPackages]

theorem onAccounts_eq_insert {row : AccountRow} :
    effect.onAccounts = .insert row ↔ effect = .insertAccount row := by
  cases effect <;> simp [onAccounts]

theorem onComponents_eq_insert {row : ComponentRow} :
    effect.onComponents = .insert row ↔ effect = .insertComponent row := by
  cases effect <;> simp [onComponents]

theorem onNotes_eq_insert {row : NoteRow} :
    effect.onNotes = .insert row ↔ effect = .insertNote row := by
  cases effect <;> simp [onNotes]

@[simp] theorem rewrites_id (now : Time) (row : PackageRow) :
    (effect.rewrites now row).id = row.id := by
  cases effect with
  | updateDebug => exact withDebugAt_id ..
  | _ => rfl

@[simp] theorem rewrites_commitment (now : Time) (row : PackageRow) :
    (effect.rewrites now row).commitment = row.commitment := by
  cases effect with
  | updateDebug => exact withDebugAt_commitment ..
  | _ => rfl

end Effect

end SourceVerification.Concurrent
