import SourceVerification.Compile.Wire

set_option autoImplicit false

namespace SourceVerification.Registry

-- A random UUID, which no row has had before: a counter hands them out.
abbrev RowId := Nat

abbrev Time := Int

structure PackageRow where
  id : RowId
  name : String
  type : TargetType
  files : Files
  commitment : Word
  manifest : Json
  readOnly : Json
  entrypoint : Option String
  builtWith : Option String
  -- The debug build of the same sources, once it has one.
  debugCommitment : Option Word
  debugBuiltWith : Option String
  createdAt : Time
  updatedAt : Time

structure AccountRow where
  id : RowId
  networkId : String
  code : Word
  createdAt : Time
  updatedAt : Time
deriving DecidableEq

structure ComponentRow where
  id : RowId
  verifiedAccountId : RowId
  packageId : RowId
  packageCommitment : Word
  source : String
  createdAt : Time
  updatedAt : Time
deriving DecidableEq

structure NoteRow where
  id : RowId
  networkId : String
  script : Word
  source : String
  packageId : RowId
  packageCommitment : Word
  createdAt : Time
  updatedAt : Time
deriving DecidableEq

def packageRow (id : RowId) (project : Project) (build : VerifyResponse) (now : Time) : PackageRow where
  id := id
  name := project.name
  type := build.kind
  files := build.files
  commitment := build.commitment
  manifest := build.manifest
  readOnly := build.readOnly
  entrypoint := some project.entrypoint
  builtWith := build.cargoMidenVersion
  debugCommitment := none
  debugBuiltWith := none
  createdAt := now
  updatedAt := now

def accountRow (id : RowId) (networkId : String) (code : Word) (now : Time) : AccountRow where
  id := id
  networkId := networkId
  code := code
  createdAt := now
  updatedAt := now

def componentRow (id verifiedAccountId packageId : RowId) (packageCommitment : Word)
    (source : String) (now : Time) : ComponentRow where
  id := id
  verifiedAccountId := verifiedAccountId
  packageId := packageId
  packageCommitment := packageCommitment
  source := source
  createdAt := now
  updatedAt := now

def noteRow (id : RowId) (networkId : String) (script : Word) (packageId : RowId)
    (packageCommitment : Word) (source : String) (now : Time) : NoteRow where
  id := id
  networkId := networkId
  script := script
  source := source
  packageId := packageId
  packageCommitment := packageCommitment
  createdAt := now
  updatedAt := now

def PackageRow.withDebug (row : PackageRow) (commitment : Word) (builtWith : Option String)
    (now : Time) : PackageRow :=
  { row with debugCommitment := some commitment, debugBuiltWith := builtWith, updatedAt := now }

def PackageRow.withEntrypoint (row : PackageRow) (entrypoint : String) (now : Time) : PackageRow :=
  { row with entrypoint := some entrypoint, updatedAt := now }

inductive Violation
  | packagesCommitment
  | accountsNetworkIdCode
  | notesNetworkIdScript
  | componentForeignKey
  | noteForeignKey
deriving DecidableEq

inductive Error
  | http (error : HttpError)
  | violation (violation : Violation)
  | message (text : String)
deriving DecidableEq

def PLAYGROUND_SOURCE : String := "miden-playground"
def PLAYGROUND_TTL_MS : Time := 24 * 60 * 60 * 1000

def expired (cutoff : Time) (source : String) (createdAt : Time) : Bool :=
  source = PLAYGROUND_SOURCE ∧ createdAt < cutoff

def ComponentRow.expired (cutoff : Time) (row : ComponentRow) : Bool :=
  Registry.expired cutoff row.source row.createdAt

def NoteRow.expired (cutoff : Time) (row : NoteRow) : Bool :=
  Registry.expired cutoff row.source row.createdAt

def componentAlreadyVerified : Error := .http ⟨409, "account component already verified"⟩
def noteAlreadyVerified : Error := .http ⟨409, "note already verified"⟩

end SourceVerification.Registry
