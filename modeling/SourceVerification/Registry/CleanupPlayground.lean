import Mathlib.Data.List.Dedup
import SourceVerification.Registry.VerifyResource

set_option autoImplicit false

namespace SourceVerification.Registry

namespace Database

def deleteAccounts (db : Database) (ids : List RowId) : Database :=
  { db with
    accounts := db.accounts.filter (·.id ∉ ids)
    components := db.components.filter (·.verifiedAccountId ∉ ids) }

def deletePackages (db : Database) (ids : List RowId) : Database :=
  { db with
    packages := db.packages.filter (·.id ∉ ids)
    components := db.components.filter (·.packageId ∉ ids)
    notes := db.notes.filter (·.packageId ∉ ids) }

def accountUnused (db : Database) (id : RowId) : Bool :=
  db.components.all (·.verifiedAccountId ≠ id)

def packageUnused (db : Database) (id : RowId) : Bool :=
  db.components.all (·.packageId ≠ id) && db.notes.all (·.packageId ≠ id)

def deleteUnusedAccounts (db : Database) (ids : List RowId) : List AccountRow × Database :=
  let accounts := db.accounts.filter fun row => row.id ∈ ids ∧ db.accountUnused row.id
  (accounts, db.deleteAccounts (accounts.map (·.id)))

def deleteUnusedPackages (db : Database) (ids : List RowId) : List PackageRow × Database :=
  let packages := db.packages.filter fun row => row.id ∈ ids ∧ db.packageUnused row.id
  (packages, db.deletePackages (packages.map (·.id)))

def deleteExpiredRecords (db : Database) (cutoff : Time) :
    List ComponentRow × List NoteRow × Database :=
  (db.components.filter (·.expired cutoff), db.notes.filter (·.expired cutoff), { db with
    components := db.components.filter fun row => !row.expired cutoff
    notes := db.notes.filter fun row => !row.expired cutoff })

end Database

structure Deleted where
  components : List ComponentRow
  notes : List NoteRow
  accounts : List AccountRow
  packages : List PackageRow

def deleteExpired (db : Database) (cutoff : Time) : Deleted × Database :=
  let (components, notes, db) := db.deleteExpiredRecords cutoff
  let (accounts, db) := db.deleteUnusedAccounts (components.map (·.verifiedAccountId)).dedup
  let (packages, db) :=
    db.deleteUnusedPackages (components.map (·.packageId) ++ notes.map (·.packageId)).dedup
  ({ components := components, notes := notes, accounts := accounts, packages := packages }, db)

structure CleanupCounts where
  verifiedAccountComponents : Nat
  verifiedAccounts : Nat
  verifiedNotes : Nat
  packages : Nat
  masps : Nat
deriving DecidableEq

def deleteArtifacts (faults : Faults) (store : MaspStore) : List Word → Except Error Unit × MaspStore
  | [] => (.ok (), store)
  | commitment :: rest =>
    if faults (.deleteArtifact commitment .release) then (.error fault, store)
    else
      let store := store.delete commitment .release
      if faults (.deleteArtifact commitment .debug) then (.error fault, store)
      else deleteArtifacts faults (store.delete commitment .debug) rest

def cleanupPlaygroundResources (faults : Faults) (state : State) (now : Time) :
    Except Error CleanupCounts × State :=
  let (deleted, db) := deleteExpired state.db (now - PLAYGROUND_TTL_MS)
  if faults .transaction then (.error fault, state)
  else
    -- Deleted after the rows, so a row never outlives its artifact.
    match deleteArtifacts faults state.store (deleted.packages.map (·.commitment)) with
    | (.error error, store) => (.error error, { db := db, store := store })
    | (.ok (), store) =>
      (.ok {
        verifiedAccountComponents := deleted.components.length
        verifiedAccounts := deleted.accounts.length
        verifiedNotes := deleted.notes.length
        packages := deleted.packages.length
        masps := deleted.packages.length }, { db := db, store := store })

end SourceVerification.Registry
