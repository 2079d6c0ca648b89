import SourceVerification.Concurrent.World
import SourceVerification.Registry.Lookup

set_option autoImplicit false

namespace SourceVerification.Concurrent

open Registry Versions

structure Work where
  build : VerifyResponse
  -- The package's row, as it was read before.
  stored : Option PackageRow
  -- When the transaction began, which `now()` answers in it.
  began : Time

inductive TxPc
  | insertingPackage
  | findingPackage
  | findingAccount (packageId : RowId)
  | insertingAccount (packageId : RowId)
  | findingComponent (packageId verifiedAccountId : RowId)
  | insertingComponent (packageId verifiedAccountId : RowId)
  | findingNote (packageId : RowId)
  | insertingNote (packageId : RowId)
  -- With the id of the record the transaction has inserted.
  | committing (packageId recordId : RowId)
  | rollingBack (error : Error)

inductive VerifyPc
  | asking
  | reading (build : VerifyResponse)
  | storing (build : VerifyResponse)
  | beginning (build : VerifyResponse) (stored : Option PackageRow)
  | transaction (work : Work) (pc : TxPc)
  | storingDebug (build : VerifyResponse) (packageId recordId : RowId) (masp : Masp)
      (debugCommitment : Word) (builtWith : Option String)
  | updatingDebug (build : VerifyResponse) (packageId recordId : RowId) (debugCommitment : Word)
      (builtWith : Option String)
  -- Returned false.
  | unverified
  -- Returned true.
  | returned (build : VerifyResponse) (recordId : RowId)
  | threw (build : Option VerifyResponse) (error : Error)

inductive Outcome
  | go (effect : Effect) (pc : TxPc)
  | commit (packageId recordId : RowId)
  | abort (error : Error)

def recording (input : VerifyInput) (packageId : RowId) : TxPc :=
  match input.resource with
  | .account _ => .findingAccount packageId
  | .note _ => .findingNote packageId

def hasParent {Row : Type} (p : Pid) (table : Table Pid Row) (id : Row → RowId) (reference : RowId) :
    Bool :=
  table.any fun version => id version.row = reference ∧
    (version.status = .committed ∨ version.status = .pending p)

/-- One statement of the transaction; `none` while it waits for another one to end. A verification
deletes nothing, so a row being deleted is another's. -/
def TxPc.next (p : Pid) (world : World) (input : VerifyInput) (work : Work) : TxPc → Option Outcome
  | .insertingPackage =>
    if held p world.packages (·.commitment = work.build.commitment) then none
    else if (view p world.packages).any (·.commitment = work.build.commitment) then
      some (.go .idle .findingPackage)
    else
      some (.go (.insertPackage (packageRow world.nextId input.project work.build work.began))
        (recording input world.nextId))
  | .findingPackage =>
    match (view p world.packages).find? (·.commitment = work.build.commitment) with
    | some existing => some (.go .idle (recording input existing.id))
    | none =>
      some (.go .idle (.rollingBack
        (.message "insert package conflicted, but no row has its commitment")))
  | .findingAccount packageId =>
    match (view p world.accounts).find? fun row =>
        row.networkId = input.networkId ∧ row.code = work.build.root with
    | some verifiedAccount => some (.go .idle (.findingComponent packageId verifiedAccount.id))
    | none => some (.go .idle (.insertingAccount packageId))
  | .insertingAccount packageId =>
    if held p world.accounts (fun row => row.networkId = input.networkId ∧ row.code = work.build.root)
    then none
    else if (view p world.accounts).any fun row =>
        row.networkId = input.networkId ∧ row.code = work.build.root then
      some (.abort (.violation .accountsNetworkIdCode))
    else
      some (.go
        (.insertAccount (accountRow world.nextId input.networkId work.build.root work.began))
        (.findingComponent packageId world.nextId))
  | .findingComponent packageId verifiedAccountId =>
    match (view p world.components).find? fun row => row.verifiedAccountId = verifiedAccountId ∧
        row.packageCommitment = work.build.commitment with
    | some _ => some (.go .idle (.rollingBack componentAlreadyVerified))
    | none => some (.go .idle (.insertingComponent packageId verifiedAccountId))
  | .insertingComponent packageId verifiedAccountId =>
    if held p world.accounts (·.id = verifiedAccountId) || held p world.packages (·.id = packageId)
    then none
    else if hasParent p world.accounts (·.id) verifiedAccountId &&
        hasParent p world.packages (·.id) packageId then
      some (.go
        (.insertComponent (componentRow world.nextId verifiedAccountId packageId
          work.build.commitment input.source work.began))
        (.committing packageId world.nextId))
    else some (.abort (.violation .componentForeignKey))
  | .findingNote packageId =>
    match (view p world.notes).find? fun row =>
        row.networkId = input.networkId ∧ row.script = work.build.root with
    | some _ => some (.go .idle (.rollingBack noteAlreadyVerified))
    | none => some (.go .idle (.insertingNote packageId))
  | .insertingNote packageId =>
    if held p world.notes (fun row => row.networkId = input.networkId ∧ row.script = work.build.root)
    then none
    else if (view p world.notes).any fun row =>
        row.networkId = input.networkId ∧ row.script = work.build.root then
      some (.abort (.violation .notesNetworkIdScript))
    else if held p world.packages (·.id = packageId) then none
    else if hasParent p world.packages (·.id) packageId then
      some (.go
        (.insertNote (noteRow world.nextId input.networkId work.build.root packageId
          work.build.commitment input.source work.began))
        (.committing packageId world.nextId))
    else some (.abort (.violation .noteForeignKey))
  | .committing packageId recordId => some (.commit packageId recordId)
  | .rollingBack error => some (.abort error)

def recorded (work : Work) (packageId recordId : RowId) : VerifyPc :=
  match (work.stored.bind (·.debugCommitment)).isNone, work.build.debug with
  | true, some (.built masp debugCommitment cargoMidenVersion) =>
    .storingDebug work.build packageId recordId masp debugCommitment cargoMidenVersion
  | _, _ => .returned work.build recordId

def VerifyPc.answered : Except Error VerifyResponse → VerifyPc
  | .error error => .threw none error
  | .ok build => if build.verified then .reading build else .unverified

def VerifyPc.next (p : Pid) (world : World) (input : VerifyInput) :
    VerifyPc → Option (Effect × VerifyPc)
  | .asking => none
  | .reading build =>
    match (Versions.committed world.packages).find? (·.commitment = build.commitment) with
    | some stored => some (.idle, .beginning build (some stored))
    | none => some (.idle, .storing build)
  -- Stored before the rows, so a package never exists without its artifact.
  | .storing build => some (.put build.commitment build.masp .release, .beginning build none)
  | .beginning build stored =>
    some (.idle, .transaction { build := build, stored := stored, began := world.clock }
      (match stored with
        | some row => recording input row.id
        | none => .insertingPackage))
  | .transaction work pc =>
    (pc.next p world input work).map fun
      | .go effect pc => (effect, .transaction work pc)
      | .commit packageId recordId => (.commit, recorded work packageId recordId)
      | .abort error => (.rollback, .threw (some work.build) error)
  | .storingDebug build packageId recordId masp debugCommitment builtWith =>
    some (.put build.commitment masp .debug,
      .updatingDebug build packageId recordId debugCommitment builtWith)
  | .updatingDebug build packageId recordId debugCommitment builtWith =>
    if held p world.packages (·.id = packageId) then none
    else some (.updateDebug packageId debugCommitment builtWith, .returned build recordId)
  | .unverified => none
  | .returned _ _ => none
  | .threw _ _ => none

def VerifyPc.fail : VerifyPc → Option (Effect × VerifyPc)
  | .asking => none
  | .reading build => some (.idle, .threw (some build) fault)
  | .storing build => some (.idle, .threw (some build) fault)
  | .beginning build _ => some (.idle, .threw (some build) fault)
  | .transaction work _ => some (.rollback, .threw (some work.build) fault)
  -- After the commit, so its failure can't undo the record.
  | .storingDebug build _ recordId _ _ _ => some (.idle, .returned build recordId)
  | .updatingDebug build _ recordId _ _ => some (.idle, .returned build recordId)
  | .unverified => none
  | .returned _ _ => none
  | .threw _ _ => none

/-- Each `DELETE` first reads the rows it is to delete, then waits for those other transactions hold. -/
inductive CleanupPc
  | beginning
  | scanningComponents
  | deletingComponents (rows : List ComponentRow)
  | scanningNotes (deleted : Deleted)
  | deletingNotes (deleted : Deleted) (rows : List NoteRow)
  | scanningAccounts (deleted : Deleted)
  | deletingAccounts (deleted : Deleted) (ids : List RowId)
  | scanningPackages (deleted : Deleted)
  | deletingPackages (deleted : Deleted) (ids : List RowId)
  | committing (deleted : Deleted)
  | deletingArtifacts (deleted : Deleted) (rest : List (Word × MaspVariant))
  | ended (result : Except Error CleanupCounts)

def accountIds (deleted : Deleted) : List RowId :=
  (deleted.components.map (·.verifiedAccountId)).dedup

def packageIds (deleted : Deleted) : List RowId :=
  (deleted.components.map (·.packageId) ++ deleted.notes.map (·.packageId)).dedup

def deletingUnusedPackages (deleted : Deleted) : CleanupPc :=
  if packageIds deleted = [] then .committing deleted else .scanningPackages deleted

def deletingUnused (deleted : Deleted) : CleanupPc :=
  if accountIds deleted = [] then deletingUnusedPackages deleted else .scanningAccounts deleted

def artifacts (deleted : Deleted) : List (Word × MaspVariant) :=
  deleted.packages.flatMap fun row => [(row.commitment, .release), (row.commitment, .debug)]

def counts (deleted : Deleted) : CleanupCounts where
  verifiedAccountComponents := deleted.components.length
  verifiedAccounts := deleted.accounts.length
  verifiedNotes := deleted.notes.length
  packages := deleted.packages.length
  masps := deleted.packages.length

def CleanupPc.next (p : Pid) (world : World) (cutoff : Time) :
    CleanupPc → Option (Effect × CleanupPc)
  | .beginning => some (.idle, .scanningComponents)
  | .scanningComponents =>
    some (.idle, .deletingComponents ((view p world.components).filter (·.expired cutoff)))
  | .deletingComponents rows =>
    if held p world.components (· ∈ rows) then none
    else some (.deleteComponents rows, .scanningNotes {
      components := (view p world.components).filter (· ∈ rows)
      notes := []
      accounts := []
      packages := [] })
  | .scanningNotes deleted =>
    some (.idle, .deletingNotes deleted ((view p world.notes).filter (·.expired cutoff)))
  | .deletingNotes deleted rows =>
    if held p world.notes (· ∈ rows) then none
    else some (.deleteNotes rows,
      deletingUnused { deleted with notes := (view p world.notes).filter (· ∈ rows) })
  | .scanningAccounts deleted =>
    some (.idle, .deletingAccounts deleted (((view p world.accounts).filter fun row =>
      row.id ∈ accountIds deleted ∧
        (view p world.components).all (·.verifiedAccountId ≠ row.id)).map (·.id)))
  | .deletingAccounts deleted ids =>
    if held p world.accounts (·.id ∈ ids) || held p world.components (·.verifiedAccountId ∈ ids)
    then none
    else some (.deleteAccounts ids, deletingUnusedPackages
      { deleted with accounts := (view p world.accounts).filter (·.id ∈ ids) })
  | .scanningPackages deleted =>
    some (.idle, .deletingPackages deleted (((view p world.packages).filter fun row =>
      row.id ∈ packageIds deleted ∧
        (view p world.components).all (·.packageId ≠ row.id) ∧
        (view p world.notes).all (·.packageId ≠ row.id)).map (·.id)))
  | .deletingPackages deleted ids =>
    if held p world.packages (·.id ∈ ids) || held p world.components (·.packageId ∈ ids) ||
        held p world.notes (·.packageId ∈ ids) then none
    else some (.deletePackages ids,
      .committing { deleted with packages := (view p world.packages).filter (·.id ∈ ids) })
  -- Deleted after the rows, so a row never outlives its artifact.
  | .committing deleted => some (.commit, .deletingArtifacts deleted (artifacts deleted))
  | .deletingArtifacts deleted ((commitment, variant) :: rest) =>
    some (.remove commitment variant, .deletingArtifacts deleted rest)
  | .deletingArtifacts deleted [] => some (.idle, .ended (.ok (counts deleted)))
  | .ended _ => none

def CleanupPc.fail : CleanupPc → Option (Effect × CleanupPc)
  | .ended _ => none
  | .deletingArtifacts _ _ => some (.idle, .ended (.error fault))
  | _ => some (.rollback, .ended (.error fault))

structure Download where
  masp : Masp
  debugCommitment : Option Word
  -- What `Content-Disposition` names it after.
  name : String

inductive DownloadPc
  | reading
  | getting (commitment : Word) (variant : MaspVariant) (dbPackage : Option PackageRow)
  | ended (answer : Except Error Download)

def maspNotFound : MaspVariant → Error
  | .release => .http ⟨404, "package masp not found"⟩
  | .debug => .http ⟨404, "package debug masp not found"⟩

def debugCommitmentOf (variant : MaspVariant) (dbPackage : Option PackageRow) : Option Word :=
  match variant with
  | .release => none
  | .debug => dbPackage.bind (·.debugCommitment)

def DownloadPc.next (world : World) (file : String) : DownloadPc → Option (Effect × DownloadPc)
  | .reading =>
    match parseMaspKey file with
    | none => some (.idle, .ended (.error (.http ⟨400, "invalid package commitment"⟩)))
    | some (commitment, variant) =>
      let dbPackage := (Versions.committed world.packages).find? (·.commitment = commitment)
      if variant = .debug ∧ (debugCommitmentOf variant dbPackage).isNone then
        some (.idle, .ended (.error (maspNotFound variant)))
      else some (.idle, .getting commitment variant dbPackage)
  | .getting commitment variant dbPackage =>
    match world.store.get commitment variant with
    | none => some (.idle, .ended (.error (maspNotFound variant)))
    | some masp => some (.idle, .ended (.ok {
        masp := masp
        debugCommitment := debugCommitmentOf variant dbPackage
        name := maspDownloadName ((dbPackage.map (·.name)).getD "") commitment variant }))
  | .ended _ => none

def DownloadPc.fail : DownloadPc → Option (Effect × DownloadPc)
  | .ended _ => none
  | _ => some (.idle, .ended (.error fault))

inductive Call
  | verify (input : VerifyInput) (pc : VerifyPc)
  | cleanup (cutoff : Time) (pc : CleanupPc)
  | download (file : String) (pc : DownloadPc)

def Call.next (p : Pid) (world : World) : Call → Option (Effect × Call)
  | .verify input pc => (pc.next p world input).map fun (effect, pc) => (effect, .verify input pc)
  | .cleanup cutoff pc => (pc.next p world cutoff).map fun (effect, pc) => (effect, .cleanup cutoff pc)
  | .download file pc => (pc.next world file).map fun (effect, pc) => (effect, .download file pc)

def Call.fail : Call → Option (Effect × Call)
  | .verify input pc => pc.fail.map fun (effect, pc) => (effect, .verify input pc)
  | .cleanup cutoff pc => pc.fail.map fun (effect, pc) => (effect, .cleanup cutoff pc)
  | .download file pc => pc.fail.map fun (effect, pc) => (effect, .download file pc)

inductive Request
  | verify (input : VerifyInput)
  | cleanup
  | download (file : String)

def Request.begin (now : Time) : Request → Call
  | .verify input => .verify input .asking
  | .cleanup => .cleanup (now - PLAYGROUND_TTL_MS) .beginning
  | .download file => .download file .reading

inductive Action
  | start (p : Pid) (request : Request)
  -- api-compile answers a verification.
  | answer (p : Pid) (answer : Except Error VerifyResponse)
  | advance (p : Pid)
  | fail (p : Pid)
  | tick (duration : Nat)

structure State where
  world : World
  calls : Pid → Option Call

def State.initial : State where
  world := .empty
  calls _ := none

def State.take (state : State) (p : Pid) (effect : Effect) (call : Call) : State where
  world := effect.apply p state.world
  calls := Function.update state.calls p (some call)

def step (state : State) : Action → Option State
  | .start p request =>
    match state.calls p with
    | none => some (state.take p .idle (request.begin state.world.clock))
    | some _ => none
  | .answer p answer =>
    match state.calls p with
    | some (.verify input .asking) => some (state.take p .idle (.verify input (.answered answer)))
    | _ => none
  | .advance p =>
    match state.calls p with
    | some call => (call.next p state.world).map fun (effect, call) => state.take p effect call
    | none => none
  | .fail p =>
    match state.calls p with
    | some call => call.fail.map fun (effect, call) => state.take p effect call
    | none => none
  | .tick duration =>
    some { state with world := { state.world with clock := state.world.clock + duration } }

end SourceVerification.Concurrent
