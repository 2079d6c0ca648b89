import SourceVerification.Registry.VerifyResource

set_option autoImplicit false

namespace SourceVerification.Registry

structure Timestamp where
  time : Time
deriving DecidableEq

def toISOString (time : Time) : Timestamp := ⟨time⟩

structure Package where
  id : RowId
  name : String
  type : TargetType
  files : Files
  commitment : Word
  manifest : Json
  entrypoint : Option String
  builtWith : Option String
  debugCommitment : Option Word
  debugBuiltWith : Option String
  readOnly : Json
  createdAt : Timestamp
  updatedAt : Timestamp

structure VerifiedAccountComponent where
  id : RowId
  verifiedAccountId : RowId
  packageId : RowId
  packageCommitment : Word
  source : String
  createdAt : Timestamp
  updatedAt : Timestamp
  package : Package
  -- The commitment of the package's debug build.
  debugPackage : Option Word

structure VerifiedAccount where
  id : RowId
  networkId : String
  code : Word
  createdAt : Timestamp
  updatedAt : Timestamp
  verifiedAccountComponents : List VerifiedAccountComponent

structure StandardAccountComponent where
  name : String
  procedures : List String

structure VerifiedAccountById extends VerifiedAccount where
  accountId : String
  standardAccountComponents : List StandardAccountComponent
  procedures : List String

structure VerifiedNote where
  id : RowId
  networkId : String
  script : Word
  source : String
  packageId : RowId
  packageCommitment : Word
  createdAt : Timestamp
  updatedAt : Timestamp
  package : Package

structure VerifiedNoteById extends VerifiedNote where
  noteId : String

inductive ImportedResource
  | account (code : Word) (standardAccountComponents : List StandardAccountComponent)
      (procedures : List String)
  | note (code : Word)

def notFound : Kind → Error
  | .account => .http ⟨404, "verified account not found"⟩
  | .note => .http ⟨404, "verified note not found"⟩

def toPackage (row : PackageRow) : Package where
  id := row.id
  name := row.name
  type := row.type
  files := row.files
  commitment := row.commitment
  manifest := row.manifest
  entrypoint := row.entrypoint
  builtWith := row.builtWith
  debugCommitment := row.debugCommitment
  debugBuiltWith := row.debugBuiltWith
  readOnly := row.readOnly
  createdAt := toISOString row.createdAt
  updatedAt := toISOString row.updatedAt

def toVerifiedAccountComponent (row : ComponentRow) (package : PackageRow) :
    VerifiedAccountComponent where
  id := row.id
  verifiedAccountId := row.verifiedAccountId
  packageId := row.packageId
  packageCommitment := row.packageCommitment
  source := row.source
  createdAt := toISOString row.createdAt
  updatedAt := toISOString row.updatedAt
  package := toPackage package
  debugPackage := package.debugCommitment

def toVerifiedAccount (row : AccountRow) (components : List VerifiedAccountComponent) :
    VerifiedAccount where
  id := row.id
  networkId := row.networkId
  code := row.code
  createdAt := toISOString row.createdAt
  updatedAt := toISOString row.updatedAt
  verifiedAccountComponents := components

def toVerifiedNote (row : NoteRow) (package : PackageRow) : VerifiedNote where
  id := row.id
  networkId := row.networkId
  script := row.script
  source := row.source
  packageId := row.packageId
  packageCommitment := row.packageCommitment
  createdAt := toISOString row.createdAt
  updatedAt := toISOString row.updatedAt
  package := toPackage package

def missingPackage : Error := .message "cannot read properties of null"

def Database.packageOf (db : Database) (packageId : RowId) : Except Error PackageRow :=
  match db.packages.find? (·.id = packageId) with
  | some package => .ok package
  | none => .error missingPackage

def Database.componentsOf (db : Database) (verifiedAccountId : RowId) : List ComponentRow :=
  db.components.filter (·.verifiedAccountId = verifiedAccountId)

def readVerifiedAccount (db : Database) (networkId : String) (code : Word) :
    Except Error VerifiedAccount :=
  match db.findAccount networkId code with
  | none => .error (notFound .account)
  | some row => do
    let components ← (db.componentsOf row.id).mapM fun component => do
      let package ← db.packageOf component.packageId
      .ok (toVerifiedAccountComponent component package)
    .ok (toVerifiedAccount row components)

def readVerifiedNote (db : Database) (networkId : String) (script : Word) :
    Except Error VerifiedNote :=
  match db.findNote networkId script with
  | none => .error (notFound .note)
  | some row => do
    let package ← db.packageOf row.packageId
    .ok (toVerifiedNote row package)

def importedAs (kind : Kind) (imported : Except Error ImportedResource) :
    Except Error ImportedResource :=
  match imported with
  | .ok resource => .ok resource
  | .error (.http error) => if error.status = 404 then .error (notFound kind) else .error (.http error)
  | .error error => .error error

def findVerifiedAccount (db : Database) (networkId accountId : String)
    (imported : Except Error ImportedResource) : Except Error VerifiedAccountById := do
  match ← importedAs .account imported with
  | .account code standardAccountComponents procedures =>
    let account ← readVerifiedAccount db networkId code
    .ok { account with
      accountId := accountId
      standardAccountComponents := standardAccountComponents
      procedures := procedures }
  | .note _ => .error (notFound .account)

def findVerifiedNote (db : Database) (networkId noteId : String)
    (imported : Except Error ImportedResource) : Except Error VerifiedNoteById := do
  match ← importedAs .note imported with
  | .note script =>
    let note ← readVerifiedNote db networkId script
    .ok { note with noteId := noteId }
  -- The other kind's id resolves too, but to a root no record of this kind carries.
  | .account _ _ _ => .error (notFound .note)

def getAccountByCode (db : Database) (networkId code : String) : Except Error VerifiedAccount :=
  match parseRoot code with
  | none => .error (.http ⟨400, "invalid code"⟩)
  | some code => readVerifiedAccount db networkId code

def getNoteByScript (db : Database) (networkId script : String) : Except Error VerifiedNote :=
  match parseRoot script with
  | none => .error (.http ⟨400, "invalid script"⟩)
  | some script => readVerifiedNote db networkId script

end SourceVerification.Registry
