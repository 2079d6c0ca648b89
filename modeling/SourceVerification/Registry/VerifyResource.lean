import SourceVerification.Registry.Schema

set_option autoImplicit false

namespace SourceVerification.Registry

structure Database where
  packages : List PackageRow
  accounts : List AccountRow
  components : List ComponentRow
  notes : List NoteRow
  nextId : RowId

structure State where
  db : Database
  store : MaspStore

def State.empty : State where
  db := { packages := [], accounts := [], components := [], notes := [], nextId := 0 }
  store _ := none

inductive Operation
  | getPackage
  | putRelease
  | transaction
  | putDebug
  | updatePackage
  | deleteArtifact (commitment : Word) (variant : MaspVariant)

abbrev Faults := Operation → Bool

def fault : Error := .message "operation failed"

namespace Database

def getPackage (db : Database) (commitment : Word) : Option PackageRow :=
  db.packages.find? (·.commitment = commitment)

def findAccount (db : Database) (networkId : String) (code : Word) : Option AccountRow :=
  db.accounts.find? fun row => row.networkId = networkId ∧ row.code = code

def findComponent (db : Database) (verifiedAccountId : RowId) (packageCommitment : Word) :
    Option ComponentRow :=
  db.components.find? fun row =>
    row.verifiedAccountId = verifiedAccountId ∧ row.packageCommitment = packageCommitment

def findNote (db : Database) (networkId : String) (script : Word) : Option NoteRow :=
  db.notes.find? fun row => row.networkId = networkId ∧ row.script = script

def insertPackageRow (db : Database) (project : Project) (build : VerifyResponse) (now : Time) :
    Option RowId × Database :=
  if (db.getPackage build.commitment).isSome then (none, db)
  else
    (some db.nextId, { db with
      packages := db.packages ++ [packageRow db.nextId project build now]
      nextId := db.nextId + 1 })

def insertAccountRow (db : Database) (networkId : String) (code : Word) (now : Time) :
    Except Error (RowId × Database) :=
  if (db.findAccount networkId code).isSome then .error (.violation .accountsNetworkIdCode)
  else
    .ok (db.nextId, { db with
      accounts := db.accounts ++ [accountRow db.nextId networkId code now]
      nextId := db.nextId + 1 })

def hasPackage (db : Database) (id : RowId) : Bool := db.packages.any (·.id = id)
def hasAccount (db : Database) (id : RowId) : Bool := db.accounts.any (·.id = id)

def insertComponentRow (db : Database) (verifiedAccountId packageId : RowId)
    (packageCommitment : Word) (source : String) (now : Time) : Except Error Database :=
  if db.hasAccount verifiedAccountId && db.hasPackage packageId then
    .ok { db with
      components := db.components ++
        [componentRow db.nextId verifiedAccountId packageId packageCommitment source now]
      nextId := db.nextId + 1 }
  else .error (.violation .componentForeignKey)

def insertNoteRow (db : Database) (networkId : String) (script : Word) (packageId : RowId)
    (packageCommitment : Word) (source : String) (now : Time) : Except Error Database :=
  if (db.findNote networkId script).isSome then .error (.violation .notesNetworkIdScript)
  else if db.hasPackage packageId then
    .ok { db with
      notes := db.notes ++
        [noteRow db.nextId networkId script packageId packageCommitment source now]
      nextId := db.nextId + 1 }
  else .error (.violation .noteForeignKey)

def updatePackage (db : Database) (id : RowId) (update : PackageRow → PackageRow) : Database :=
  { db with packages := db.packages.map fun row => if row.id = id then update row else row }

end Database

def insertPackage (db : Database) (project : Project) (build : VerifyResponse) (now : Time) :
    Except Error (RowId × Database) :=
  match db.insertPackageRow project build now with
  | (some id, db) => .ok (id, db)
  | (none, db) =>
    match db.getPackage build.commitment with
    | some existing => .ok (existing.id, db)
    | none => .error (.message "insert package conflicted, but no row has its commitment")

def accountRowId (db : Database) (networkId : String) (code : Word) (now : Time) :
    Except Error (RowId × Database) :=
  match db.findAccount networkId code with
  | some verifiedAccount => .ok (verifiedAccount.id, db)
  | none => db.insertAccountRow networkId code now

def insertAccountComponent (db : Database) (networkId : String) (code : Word) (packageId : RowId)
    (packageCommitment : Word) (source : String) (now : Time) : Except Error Database := do
  let (verifiedAccountId, db) ← accountRowId db networkId code now
  if (db.findComponent verifiedAccountId packageCommitment).isSome then
    .error componentAlreadyVerified
  else
    db.insertComponentRow verifiedAccountId packageId packageCommitment source now

def insertNote (db : Database) (networkId : String) (script : Word) (packageId : RowId)
    (packageCommitment : Word) (source : String) (now : Time) : Except Error Database :=
  if (db.findNote networkId script).isSome then .error noteAlreadyVerified
  else db.insertNoteRow networkId script packageId packageCommitment source now

structure VerifyInput where
  networkId : String
  resource : Resource
  project : Project
  source : String

def packageRowId (db : Database) (project : Project) (build : VerifyResponse)
    (stored : Option PackageRow) (now : Time) : Except Error (RowId × Database) :=
  match stored with
  | some row => .ok (row.id, db)
  | none => insertPackage db project build now

def insertRecord (db : Database) (input : VerifyInput) (build : VerifyResponse) (packageId : RowId)
    (now : Time) : Except Error Database :=
  match input.resource with
  | .account _ =>
    insertAccountComponent db input.networkId build.root packageId build.commitment input.source now
  | .note _ =>
    insertNote db input.networkId build.root packageId build.commitment input.source now

def record (db : Database) (input : VerifyInput) (build : VerifyResponse)
    (stored : Option PackageRow) (now : Time) : Except Error (RowId × Database) := do
  let (packageId, db) ← packageRowId db input.project build stored now
  let db ← insertRecord db input build packageId now
  .ok (packageId, db)

def storeDebugBuild (faults : Faults) (state : State) (packageId : RowId) (commitment : Word)
    (debug : Option DebugBuild) (now : Time) : Except Error Bool × State :=
  match debug with
  | none => (.ok false, state)
  | some (.failed _) => (.ok false, state)
  | some (.built masp debugCommitment cargoMidenVersion) =>
    if faults .putDebug then (.error fault, state)
    else
      let state := { state with store := state.store.put commitment masp .debug }
      if faults .updatePackage then (.error fault, state)
      else
        (.ok true, { state with
          db := state.db.updatePackage packageId (·.withDebug debugCommitment cargoMidenVersion now) })

/-- Verifies the project and, when it is the resource's, records it. `answer` is api-compile's. -/
def verifyResource (faults : Faults) (state : State) (input : VerifyInput)
    (answer : Except Error VerifyResponse) (now : Time) : Except Error Bool × State :=
  match answer with
  | .error error => (.error error, state)
  | .ok build =>
    if build.verified = false then (.ok false, state)
    else if faults .getPackage then (.error fault, state)
    else
      let stored := state.db.getPackage build.commitment
      if stored.isNone && faults .putRelease then (.error fault, state)
      else
        -- Stored before the rows, so a package never exists without its artifact.
        let store :=
          if stored.isNone then state.store.put build.commitment build.masp .release
          else state.store
        match record state.db input build stored now with
        | .error error => (.error error, { state with store := store })
        | .ok (packageId, db) =>
          if faults .transaction then (.error fault, { state with store := store })
          else
            let recorded : State := { db := db, store := store }
            if (stored.bind (·.debugCommitment)).isNone then
              -- After the commit, so its failure can't undo the record.
              (.ok true,
                (storeDebugBuild faults recorded packageId build.commitment build.debug now).2)
            else (.ok true, recorded)

def postDebugBuild (parse : String → Option (List (String × Json))) (faults : Faults)
    (state : State) (commitment : String) (answer : Files → String → Except Error DebugBuild)
    (now : Time) : Except Error Word × State :=
  match parseRoot commitment with
  | none => (.error (.http ⟨400, "invalid package commitment"⟩), state)
  | some commitment =>
    if faults .getPackage then (.error fault, state)
    else
      match state.db.getPackage commitment with
      | none => (.error (.http ⟨404, "package not found"⟩), state)
      | some dbPackage =>
        match dbPackage.debugCommitment with
        | some debugCommitment => (.ok debugCommitment, state)
        | none =>
          match dbPackage.entrypoint <|> inferEntrypoint parse dbPackage.files dbPackage.name with
          | none => (.error (.http ⟨422, "ambiguous entrypoint"⟩), state)
          | some entrypoint =>
            match answer dbPackage.files entrypoint with
            | .error error => (.error error, state)
            | .ok (.failed error) => (.error (.http ⟨422, error⟩), state)
            | .ok (.built masp debugCommitment cargoMidenVersion) =>
              match storeDebugBuild faults state dbPackage.id commitment
                (some (.built masp debugCommitment cargoMidenVersion)) now with
              | (.error error, state) => (.error error, state)
              | (.ok _, state) =>
                if dbPackage.entrypoint.isSome then (.ok debugCommitment, state)
                else if faults .updatePackage then (.error fault, state)
                else
                  -- The release build reproduced from it, so it is the right one.
                  (.ok debugCommitment, { state with
                    db := state.db.updatePackage dbPackage.id (·.withEntrypoint entrypoint now) })

end SourceVerification.Registry
