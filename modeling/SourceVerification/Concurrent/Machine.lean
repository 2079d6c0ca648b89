import SourceVerification.Compile.Verification
import SourceVerification.Concurrent.Calls
import SourceVerification.Registry.Recording
import SourceVerification.Shared.Runs

set_option autoImplicit false

namespace SourceVerification.Concurrent

open Registry Versions Tables Compile

inductive TxStep (p : Pid) (world : World) (input : VerifyInput) (work : Work) :
    TxPc → Outcome → Prop
  | packageInserted (free : held p world.packages (·.commitment = work.build.commitment) = false)
      (absent : ∀ row ∈ view p world.packages, row.commitment ≠ work.build.commitment) :
      TxStep p world input work .insertingPackage
        (.go (.insertPackage (packageRow world.nextId input.project work.build work.began))
          (recording input world.nextId))
  | packageConflict : TxStep p world input work .insertingPackage (.go .idle .findingPackage)
  | packageFound {row : PackageRow} (member : row ∈ view p world.packages)
      (same : row.commitment = work.build.commitment) :
      TxStep p world input work .findingPackage (.go .idle (recording input row.id))
  | packageGone {error : Error}
      (absent : ∀ row ∈ view p world.packages, row.commitment ≠ work.build.commitment) :
      TxStep p world input work .findingPackage (.go .idle (.rollingBack error))
  | accountFound {packageId : RowId} {row : AccountRow} (member : row ∈ view p world.accounts)
      (same : row.networkId = input.networkId ∧ row.code = work.build.root) :
      TxStep p world input work (.findingAccount packageId)
        (.go .idle (.findingComponent packageId row.id))
  | accountAbsent {packageId : RowId} :
      TxStep p world input work (.findingAccount packageId)
        (.go .idle (.insertingAccount packageId))
  | accountInserted {packageId : RowId}
      (free : held p world.accounts (fun row =>
        row.networkId = input.networkId ∧ row.code = work.build.root) = false)
      (absent : ∀ row ∈ view p world.accounts,
        ¬ (row.networkId = input.networkId ∧ row.code = work.build.root)) :
      TxStep p world input work (.insertingAccount packageId)
        (.go (.insertAccount (accountRow world.nextId input.networkId work.build.root work.began))
          (.findingComponent packageId world.nextId))
  | accountViolation {packageId : RowId} {row : AccountRow} (member : row ∈ view p world.accounts)
      (same : row.networkId = input.networkId ∧ row.code = work.build.root) :
      TxStep p world input work (.insertingAccount packageId)
        (.abort (.violation .accountsNetworkIdCode))
  | componentFound {packageId accountId : RowId} {row : ComponentRow}
      (member : row ∈ view p world.components)
      (same : row.verifiedAccountId = accountId ∧ row.packageCommitment = work.build.commitment) :
      TxStep p world input work (.findingComponent packageId accountId)
        (.go .idle (.rollingBack componentAlreadyVerified))
  | componentAbsent {packageId accountId : RowId}
      (absent : ∀ row ∈ view p world.components,
        ¬ (row.verifiedAccountId = accountId ∧ row.packageCommitment = work.build.commitment)) :
      TxStep p world input work (.findingComponent packageId accountId)
        (.go .idle (.insertingComponent packageId accountId))
  | componentInserted {packageId accountId : RowId}
      (account : hasParent p world.accounts (·.id) accountId = true)
      (package : hasParent p world.packages (·.id) packageId = true) :
      TxStep p world input work (.insertingComponent packageId accountId)
        (.go (.insertComponent (componentRow world.nextId accountId packageId
            work.build.commitment input.source work.began))
          (.committing packageId world.nextId))
  | componentViolation {packageId accountId : RowId}
      (orphan : ¬ (hasParent p world.accounts (·.id) accountId = true ∧
        hasParent p world.packages (·.id) packageId = true)) :
      TxStep p world input work (.insertingComponent packageId accountId)
        (.abort (.violation .componentForeignKey))
  | noteFound {packageId : RowId} {row : NoteRow} (member : row ∈ view p world.notes)
      (same : row.networkId = input.networkId ∧ row.script = work.build.root) :
      TxStep p world input work (.findingNote packageId)
        (.go .idle (.rollingBack noteAlreadyVerified))
  | noteAbsent {packageId : RowId} :
      TxStep p world input work (.findingNote packageId) (.go .idle (.insertingNote packageId))
  | noteConflict {packageId : RowId} {row : NoteRow} (member : row ∈ view p world.notes)
      (same : row.networkId = input.networkId ∧ row.script = work.build.root) :
      TxStep p world input work (.insertingNote packageId)
        (.abort (.violation .notesNetworkIdScript))
  | noteInserted {packageId : RowId}
      (free : held p world.notes (fun row =>
        row.networkId = input.networkId ∧ row.script = work.build.root) = false)
      (absent : ∀ row ∈ view p world.notes,
        ¬ (row.networkId = input.networkId ∧ row.script = work.build.root))
      (package : hasParent p world.packages (·.id) packageId = true) :
      TxStep p world input work (.insertingNote packageId)
        (.go (.insertNote (noteRow world.nextId input.networkId work.build.root packageId
            work.build.commitment input.source work.began))
          (.committing packageId world.nextId))
  | noteViolation {packageId : RowId}
      (orphan : ¬ hasParent p world.packages (·.id) packageId = true) :
      TxStep p world input work (.insertingNote packageId) (.abort (.violation .noteForeignKey))
  | commits {packageId recordId : RowId} :
      TxStep p world input work (.committing packageId recordId) (.commit packageId recordId)
  | rollsBack {error : Error} : TxStep p world input work (.rollingBack error) (.abort error)

theorem TxPc.next_step {p : Pid} {world : World} {input : VerifyInput} {work : Work} {pc : TxPc}
    {outcome : Outcome} (taken : pc.next p world input work = some outcome) :
    TxStep p world input work pc outcome := by
  cases pc with
  | insertingPackage =>
    simp only [TxPc.next] at taken
    split_ifs at taken with held found
    · obtain rfl := Option.some.inj taken
      exact .packageConflict
    · obtain rfl := Option.some.inj taken
      exact .packageInserted (by simpa using held) (by simpa using found)
  | findingPackage =>
    simp only [TxPc.next] at taken
    split at taken
    · rename_i row found
      obtain rfl := Option.some.inj taken
      obtain ⟨member, same⟩ := find?_key_eq_some found
      exact .packageFound member same
    · rename_i absent
      obtain rfl := Option.some.inj taken
      exact .packageGone (find?_key_eq_none.mp absent)
  | findingAccount packageId =>
    simp only [TxPc.next] at taken
    split at taken
    · rename_i row found
      obtain rfl := Option.some.inj taken
      obtain ⟨member, same⟩ := find?_key_eq_some found
      exact .accountFound member same
    · obtain rfl := Option.some.inj taken
      exact .accountAbsent
  | insertingAccount packageId =>
    simp only [TxPc.next] at taken
    split_ifs at taken with held found
    · obtain rfl := Option.some.inj taken
      obtain ⟨row, member, same⟩ := List.any_eq_true.mp found
      exact .accountViolation member (by simpa using same)
    · obtain rfl := Option.some.inj taken
      exact .accountInserted (by simpa using held) (by simpa using found)
  | findingComponent packageId accountId =>
    simp only [TxPc.next] at taken
    split at taken
    · rename_i row found
      obtain rfl := Option.some.inj taken
      obtain ⟨member, same⟩ := find?_key_eq_some found
      exact .componentFound member same
    · rename_i absent
      obtain rfl := Option.some.inj taken
      exact .componentAbsent (find?_key_eq_none.mp absent)
  | insertingComponent packageId accountId =>
    simp only [TxPc.next] at taken
    split_ifs at taken with held found
    · obtain rfl := Option.some.inj taken
      obtain ⟨account, package⟩ := Bool.and_eq_true_iff.mp found
      exact .componentInserted account package
    · obtain rfl := Option.some.inj taken
      exact .componentViolation fun both => found (Bool.and_eq_true_iff.mpr both)
  | findingNote packageId =>
    simp only [TxPc.next] at taken
    split at taken
    · rename_i row found
      obtain rfl := Option.some.inj taken
      obtain ⟨member, same⟩ := find?_key_eq_some found
      exact .noteFound member same
    · obtain rfl := Option.some.inj taken
      exact .noteAbsent
  | insertingNote packageId =>
    simp only [TxPc.next] at taken
    split_ifs at taken with held found packageHeld package
    · obtain rfl := Option.some.inj taken
      obtain ⟨row, member, same⟩ := List.any_eq_true.mp found
      exact .noteConflict member (by simpa using same)
    · obtain rfl := Option.some.inj taken
      exact .noteInserted (by simpa using held) (by simpa using found) package
    · obtain rfl := Option.some.inj taken
      exact .noteViolation package
  | committing packageId recordId =>
    obtain rfl := Option.some.inj taken
    exact .commits
  | rollingBack error =>
    obtain rfl := Option.some.inj taken
    exact .rollsBack

inductive VerifyStep (p : Pid) (world : World) (input : VerifyInput) :
    VerifyPc → Effect → VerifyPc → Prop
  | found {build : VerifyResponse} {stored : PackageRow}
      (member : stored ∈ Versions.committed world.packages)
      (same : stored.commitment = build.commitment) :
      VerifyStep p world input (.reading build) .idle (.beginning build (some stored))
  | missed {build : VerifyResponse} : VerifyStep p world input (.reading build) .idle (.storing build)
  | stores {build : VerifyResponse} :
      VerifyStep p world input (.storing build) (.put build.commitment build.masp .release)
        (.beginning build none)
  | begins {build : VerifyResponse} {stored : Option PackageRow} :
      VerifyStep p world input (.beginning build stored) .idle
        (.transaction { build := build, stored := stored, began := world.clock }
          (match stored with
            | some row => recording input row.id
            | none => .insertingPackage))
  | goes {work : Work} {pc after : TxPc} {effect : Effect}
      (tx : TxStep p world input work pc (.go effect after)) :
      VerifyStep p world input (.transaction work pc) effect (.transaction work after)
  | commits {work : Work} {pc : TxPc} {packageId recordId : RowId}
      (tx : TxStep p world input work pc (.commit packageId recordId)) :
      VerifyStep p world input (.transaction work pc) .commit (recorded work packageId recordId)
  | aborts {work : Work} {pc : TxPc} {error : Error}
      (tx : TxStep p world input work pc (.abort error)) :
      VerifyStep p world input (.transaction work pc) .rollback (.threw (some work.build) error)
  | storesDebug {build : VerifyResponse} {packageId recordId : RowId} {masp : Masp}
      {debugCommitment : Word} {builtWith : Option String} :
      VerifyStep p world input
        (.storingDebug build packageId recordId masp debugCommitment builtWith)
        (.put build.commitment masp .debug)
        (.updatingDebug build packageId recordId debugCommitment builtWith)
  | updatesDebug {build : VerifyResponse} {packageId recordId : RowId} {debugCommitment : Word}
      {builtWith : Option String} :
      VerifyStep p world input (.updatingDebug build packageId recordId debugCommitment builtWith)
        (.updateDebug packageId debugCommitment builtWith) (.returned build recordId)

theorem VerifyPc.next_step {p : Pid} {world : World} {input : VerifyInput} {pc after : VerifyPc}
    {effect : Effect} (taken : pc.next p world input = some (effect, after)) :
    VerifyStep p world input pc effect after := by
  cases pc with
  | asking => cases taken
  | reading build =>
    simp only [VerifyPc.next] at taken
    split at taken
    · rename_i row found
      obtain ⟨rfl, rfl⟩ := Prod.mk.inj (Option.some.inj taken)
      obtain ⟨member, same⟩ := find?_key_eq_some found
      exact .found member same
    · obtain ⟨rfl, rfl⟩ := Prod.mk.inj (Option.some.inj taken)
      exact .missed
  | storing build =>
    obtain ⟨rfl, rfl⟩ := Prod.mk.inj (Option.some.inj taken)
    exact .stores
  | beginning build stored =>
    obtain ⟨rfl, rfl⟩ := Prod.mk.inj (Option.some.inj taken)
    exact .begins
  | transaction work pc =>
    obtain ⟨outcome, ran, taken⟩ := Option.map_eq_some_iff.mp taken
    have tx := TxPc.next_step ran
    cases outcome with
    | go effect pc =>
      obtain ⟨rfl, rfl⟩ := Prod.mk.inj taken
      exact .goes tx
    | commit packageId recordId =>
      obtain ⟨rfl, rfl⟩ := Prod.mk.inj taken
      exact .commits tx
    | abort error =>
      obtain ⟨rfl, rfl⟩ := Prod.mk.inj taken
      exact .aborts tx
  | storingDebug build packageId recordId masp debugCommitment builtWith =>
    obtain ⟨rfl, rfl⟩ := Prod.mk.inj (Option.some.inj taken)
    exact .storesDebug
  | updatingDebug build packageId recordId debugCommitment builtWith =>
    simp only [VerifyPc.next] at taken
    split_ifs at taken
    obtain ⟨rfl, rfl⟩ := Prod.mk.inj (Option.some.inj taken)
    exact .updatesDebug
  | unverified => cases taken
  | returned build recordId => cases taken
  | threw build error => cases taken

inductive CleanupStep (p : Pid) (world : World) (cutoff : Time) :
    CleanupPc → Effect → CleanupPc → Prop
  | reads {pc after : CleanupPc} (reading : ∀ deleted rest, pc ≠ .deletingArtifacts deleted rest)
      (rows : ∀ rows, after = .deletingComponents rows → ∀ row ∈ rows, row.expired cutoff = true)
      (notes : ∀ deleted rows, after = .deletingNotes deleted rows →
        ∀ row ∈ rows, row.expired cutoff = true)
      (artifacts : ∀ deleted rest, after ≠ .deletingArtifacts deleted rest) :
      CleanupStep p world cutoff pc .idle after
  | deletesComponents {rows : List ComponentRow} {after : CleanupPc}
      (free : held p world.components (· ∈ rows) = false)
      (next : ∃ deleted, after = .scanningNotes deleted) :
      CleanupStep p world cutoff (.deletingComponents rows) (.deleteComponents rows) after
  | deletesNotes {deleted : Deleted} {rows : List NoteRow} {after : CleanupPc}
      (free : held p world.notes (· ∈ rows) = false)
      (next : ∃ deleted, after = deletingUnused deleted) :
      CleanupStep p world cutoff (.deletingNotes deleted rows) (.deleteNotes rows) after
  | deletesAccounts {deleted : Deleted} {ids : List RowId} {after : CleanupPc}
      (accountsFree : held p world.accounts (·.id ∈ ids) = false)
      (componentsFree : held p world.components (·.verifiedAccountId ∈ ids) = false)
      (next : ∃ deleted, after = deletingUnusedPackages deleted) :
      CleanupStep p world cutoff (.deletingAccounts deleted ids) (.deleteAccounts ids) after
  | deletesPackages {deleted : Deleted} {ids : List RowId} {after : CleanupPc}
      (packagesFree : held p world.packages (·.id ∈ ids) = false)
      (componentsFree : held p world.components (·.packageId ∈ ids) = false)
      (notesFree : held p world.notes (·.packageId ∈ ids) = false)
      (next : ∃ deleted, after = .committing deleted) :
      CleanupStep p world cutoff (.deletingPackages deleted ids) (.deletePackages ids) after
  | commits {deleted : Deleted} :
      CleanupStep p world cutoff (.committing deleted) .commit
        (.deletingArtifacts deleted (artifacts deleted))
  | removes {deleted : Deleted} {commitment : Word} {variant : MaspVariant}
      {rest : List (Word × MaspVariant)} :
      CleanupStep p world cutoff (.deletingArtifacts deleted ((commitment, variant) :: rest))
        (.remove commitment variant) (.deletingArtifacts deleted rest)
  | ends {deleted : Deleted} :
      CleanupStep p world cutoff (.deletingArtifacts deleted []) .idle (.ended (.ok (counts deleted)))

theorem CleanupPc.next_step {p : Pid} {world : World} {cutoff : Time} {pc after : CleanupPc}
    {effect : Effect} (taken : pc.next p world cutoff = some (effect, after)) :
    CleanupStep p world cutoff pc effect after := by
  cases pc with
  | beginning =>
    obtain ⟨rfl, rfl⟩ := Prod.mk.inj (Option.some.inj taken)
    exact .reads (by simp) (by simp) (by simp) (by simp)
  | scanningComponents =>
    obtain ⟨rfl, rfl⟩ := Prod.mk.inj (Option.some.inj taken)
    refine .reads (by simp) ?_ (by simp) (by simp)
    rintro rows same row member
    cases same
    exact (List.mem_filter.mp member).2
  | deletingComponents rows =>
    simp only [CleanupPc.next] at taken
    split_ifs at taken with free
    obtain ⟨rfl, rfl⟩ := Prod.mk.inj (Option.some.inj taken)
    exact .deletesComponents (by simpa using free) ⟨_, rfl⟩
  | scanningNotes deleted =>
    obtain ⟨rfl, rfl⟩ := Prod.mk.inj (Option.some.inj taken)
    refine .reads (by simp) (by simp) ?_ (by simp)
    rintro deleted rows same row member
    cases same
    exact (List.mem_filter.mp member).2
  | deletingNotes deleted rows =>
    simp only [CleanupPc.next] at taken
    split_ifs at taken with free
    obtain ⟨rfl, rfl⟩ := Prod.mk.inj (Option.some.inj taken)
    exact .deletesNotes (by simpa using free) ⟨_, rfl⟩
  | scanningAccounts deleted =>
    obtain ⟨rfl, rfl⟩ := Prod.mk.inj (Option.some.inj taken)
    exact .reads (by simp) (by simp) (by simp) (by simp)
  | deletingAccounts deleted ids =>
    simp only [CleanupPc.next] at taken
    split_ifs at taken with free
    obtain ⟨rfl, rfl⟩ := Prod.mk.inj (Option.some.inj taken)
    simp only [Bool.or_eq_true, not_or, Bool.not_eq_true] at free
    exact .deletesAccounts free.1 free.2 ⟨_, rfl⟩
  | scanningPackages deleted =>
    obtain ⟨rfl, rfl⟩ := Prod.mk.inj (Option.some.inj taken)
    exact .reads (by simp) (by simp) (by simp) (by simp)
  | deletingPackages deleted ids =>
    simp only [CleanupPc.next] at taken
    split_ifs at taken with free
    obtain ⟨rfl, rfl⟩ := Prod.mk.inj (Option.some.inj taken)
    simp only [Bool.or_eq_true, not_or, Bool.not_eq_true] at free
    exact .deletesPackages free.1.1 free.1.2 free.2 ⟨_, rfl⟩
  | committing deleted =>
    obtain ⟨rfl, rfl⟩ := Prod.mk.inj (Option.some.inj taken)
    exact .commits
  | deletingArtifacts deleted rest =>
    cases rest with
    | nil =>
      obtain ⟨rfl, rfl⟩ := Prod.mk.inj (Option.some.inj taken)
      exact .ends
    | cons first rest =>
      obtain ⟨rfl, rfl⟩ := Prod.mk.inj (Option.some.inj taken)
      exact .removes
  | ended result => cases taken

inductive CallStep (p : Pid) (world : World) : Call → Effect → Call → Prop
  | verify {input : VerifyInput} {pc after : VerifyPc} {effect : Effect}
      (verifies : VerifyStep p world input pc effect after) :
      CallStep p world (.verify input pc) effect (.verify input after)
  | cleanup {cutoff : Time} {pc after : CleanupPc} {effect : Effect}
      (cleans : CleanupStep p world cutoff pc effect after) :
      CallStep p world (.cleanup cutoff pc) effect (.cleanup cutoff after)
  | download {file : String} {pc after : DownloadPc}
      (downloads : pc.next world file = some (.idle, after)) :
      CallStep p world (.download file pc) .idle (.download file after)

theorem DownloadPc.next_effect {world : World} {file : String} {pc after : DownloadPc} {effect : Effect}
    (taken : pc.next world file = some (effect, after)) : effect = .idle := by
  cases pc with
  | reading =>
    simp only [DownloadPc.next] at taken
    split at taken
    · exact (Prod.mk.inj (Option.some.inj taken)).1.symm
    · split_ifs at taken
      · exact (Prod.mk.inj (Option.some.inj taken)).1.symm
      · exact (Prod.mk.inj (Option.some.inj taken)).1.symm
  | getting commitment variant dbPackage =>
    simp only [DownloadPc.next] at taken
    split at taken
    · exact (Prod.mk.inj (Option.some.inj taken)).1.symm
    · exact (Prod.mk.inj (Option.some.inj taken)).1.symm
  | ended answer => cases taken

theorem Call.next_step {p : Pid} {world : World} {call after : Call} {effect : Effect}
    (taken : call.next p world = some (effect, after)) : CallStep p world call effect after := by
  cases call with
  | verify input pc =>
    obtain ⟨⟨stepped, next⟩, ran, same⟩ := Option.map_eq_some_iff.mp taken
    obtain ⟨rfl, rfl⟩ := Prod.mk.inj same
    exact .verify (VerifyPc.next_step ran)
  | cleanup cutoff pc =>
    obtain ⟨⟨stepped, next⟩, ran, same⟩ := Option.map_eq_some_iff.mp taken
    obtain ⟨rfl, rfl⟩ := Prod.mk.inj same
    exact .cleanup (CleanupPc.next_step ran)
  | download file pc =>
    obtain ⟨⟨stepped, next⟩, ran, same⟩ := Option.map_eq_some_iff.mp taken
    obtain ⟨rfl, rfl⟩ := Prod.mk.inj same
    obtain rfl := DownloadPc.next_effect ran
    exact .download ran

inductive FailStep : Call → Effect → Call → Prop
  | before {input : VerifyInput} {pc : VerifyPc} {build : VerifyResponse}
      (outside : ∀ work tx, pc ≠ .transaction work tx) :
      FailStep (.verify input pc) .idle (.verify input (.threw (some build) fault))
  | inside {input : VerifyInput} {work : Work} {pc : TxPc} :
      FailStep (.verify input (.transaction work pc)) .rollback
        (.verify input (.threw (some work.build) fault))
  | storingDebug {input : VerifyInput} {build : VerifyResponse} {packageId recordId : RowId}
      {masp : Masp} {debugCommitment : Word} {builtWith : Option String} :
      FailStep
        (.verify input (.storingDebug build packageId recordId masp debugCommitment builtWith)) .idle
        (.verify input (.returned build recordId))
  | updatingDebug {input : VerifyInput} {build : VerifyResponse} {packageId recordId : RowId}
      {debugCommitment : Word} {builtWith : Option String} :
      FailStep (.verify input (.updatingDebug build packageId recordId debugCommitment builtWith)) .idle
        (.verify input (.returned build recordId))
  | cleaning {cutoff : Time} {pc : CleanupPc} :
      FailStep (.cleanup cutoff pc) .rollback (.cleanup cutoff (.ended (.error fault)))
  | removing {cutoff : Time} {deleted : Deleted} {rest : List (Word × MaspVariant)} :
      FailStep (.cleanup cutoff (.deletingArtifacts deleted rest)) .idle
        (.cleanup cutoff (.ended (.error fault)))
  | downloading {file : String} {pc : DownloadPc} :
      FailStep (.download file pc) .idle (.download file (.ended (.error fault)))

theorem Call.fail_step {call after : Call} {effect : Effect}
    (failed : call.fail = some (effect, after)) : FailStep call effect after := by
  cases call with
  | verify input pc =>
    obtain ⟨⟨stepped, next⟩, ran, same⟩ := Option.map_eq_some_iff.mp failed
    obtain ⟨rfl, rfl⟩ := Prod.mk.inj same
    cases pc with
    | asking | unverified | returned | threw => cases ran
    | reading | storing | beginning =>
      obtain ⟨rfl, rfl⟩ := Prod.mk.inj (Option.some.inj ran)
      exact .before (by simp)
    | transaction =>
      obtain ⟨rfl, rfl⟩ := Prod.mk.inj (Option.some.inj ran)
      exact .inside
    | storingDebug =>
      obtain ⟨rfl, rfl⟩ := Prod.mk.inj (Option.some.inj ran)
      exact .storingDebug
    | updatingDebug =>
      obtain ⟨rfl, rfl⟩ := Prod.mk.inj (Option.some.inj ran)
      exact .updatingDebug
  | cleanup cutoff pc =>
    obtain ⟨⟨stepped, next⟩, ran, same⟩ := Option.map_eq_some_iff.mp failed
    obtain ⟨rfl, rfl⟩ := Prod.mk.inj same
    cases pc with
    | ended => cases ran
    | deletingArtifacts =>
      obtain ⟨rfl, rfl⟩ := Prod.mk.inj (Option.some.inj ran)
      exact .removing
    | beginning | scanningComponents | deletingComponents | scanningNotes | deletingNotes
    | scanningAccounts | deletingAccounts | scanningPackages | deletingPackages | committing =>
      obtain ⟨rfl, rfl⟩ := Prod.mk.inj (Option.some.inj ran)
      exact .cleaning
  | download file pc =>
    obtain ⟨⟨stepped, next⟩, ran, same⟩ := Option.map_eq_some_iff.mp failed
    obtain ⟨rfl, rfl⟩ := Prod.mk.inj same
    cases pc with
    | ended => cases ran
    | reading | getting =>
      obtain ⟨rfl, rfl⟩ := Prod.mk.inj (Option.some.inj ran)
      exact .downloading

inductive Step (state : State) : Action → State → Prop
  | starts {p : Pid} {request : Request} (fresh : state.calls p = none) :
      Step state (.start p request) (state.take p .idle (request.begin state.world.clock))
  | answered {p : Pid} {input : VerifyInput} {answer : Except Error VerifyResponse}
      (called : state.calls p = some (.verify input .asking)) :
      Step state (.answer p answer) (state.take p .idle (.verify input (.answered answer)))
  | advances {p : Pid} {call after : Call} {effect : Effect} (called : state.calls p = some call)
      (stepped : CallStep p state.world call effect after) :
      Step state (.advance p) (state.take p effect after)
  | fails {p : Pid} {call after : Call} {effect : Effect} (called : state.calls p = some call)
      (failed : FailStep call effect after) :
      Step state (.fail p) (state.take p effect after)
  | ticks {duration : Nat} :
      Step state (.tick duration)
        { state with world := { state.world with clock := state.world.clock + duration } }

theorem step_cases {state next : State} {action : Action} (taken : step state action = some next) :
    Step state action next := by
  cases action with
  | start p request =>
    simp only [step] at taken
    split at taken
    · rename_i fresh
      exact Option.some.inj taken ▸ .starts fresh
    · cases taken
  | answer p answer =>
    simp only [step] at taken
    split at taken
    · rename_i input asking
      exact Option.some.inj taken ▸ .answered asking
    · cases taken
  | advance p =>
    simp only [step] at taken
    split at taken
    · rename_i call called
      obtain ⟨⟨effect, after⟩, ran, rfl⟩ := Option.map_eq_some_iff.mp taken
      exact .advances called (Call.next_step ran)
    · cases taken
  | fail p =>
    simp only [step] at taken
    split at taken
    · rename_i call called
      obtain ⟨⟨effect, after⟩, ran, rfl⟩ := Option.map_eq_some_iff.mp taken
      exact .fails called (Call.fail_step ran)
    · cases taken
  | tick duration => exact Option.some.inj taken ▸ .ticks

section Take

variable (state : State) (p : Pid) (effect : Effect) (after : Call)

@[simp] theorem take_calls_self : (state.take p effect after).calls p = some after := by
  simp [State.take]

theorem take_calls_other {q : Pid} (differs : q ≠ p) :
    (state.take p effect after).calls q = state.calls q := by
  simp [State.take, differs]

@[simp] theorem take_world : (state.take p effect after).world = effect.apply p state.world := rfl

end Take

def Action.caller : Action → Option Pid
  | .start p _ => some p
  | .answer p _ => some p
  | .advance p => some p
  | .fail p => some p
  | .tick _ => none

def Action.within (limit : Pid) (action : Action) : Bool :=
  action.caller.all (· < limit)

def State.Within (limit : Pid) (state : State) : Prop :=
  ∀ q, limit ≤ q → state.calls q = none

def State.everyCall (limit : Pid) (state : State) (holds : Call → Bool) : Bool :=
  (List.range limit).all fun q => (state.calls q).all holds

theorem State.Within.everyCall {limit : Pid} {state : State} (within : state.Within limit) {holds : Call → Bool}
    (every : state.everyCall limit holds = true) {q : Pid} {call : Call} (called : state.calls q = some call) :
    holds call = true := by
  have below : q < limit := by
    by_contra beyond
    rw [within q (not_lt.mp beyond)] at called
    cases called
  have own := List.all_eq_true.mp every q (List.mem_range.mpr below)
  rwa [called] at own

theorem State.Within.step {limit : Pid} {state next : State} {action : Action} (within : state.Within limit)
    (few : action.within limit = true) (taken : step state action = some next) : next.Within limit := by
  intro q beyond
  cases step_cases taken with
  | starts | answered | advances | fails =>
    have differs := ne_of_gt ((of_decide_eq_true few).trans_le beyond)
    exact (take_calls_other _ _ _ _ differs).trans (within q beyond)
  | ticks => exact within q beyond

theorem exists_run_within {allowed : State → Action → Prop} {limit : Pid} {permitted : State → Action → Bool}
    {actions : List Action} {shows : State → Bool}
    (sound : ∀ state action, state.Within limit → permitted state action = true → allowed state action)
    (ran : (Runs.exec step (fun state action => action.within limit && permitted state action) State.initial
      actions).any shows = true) :
    ∃ state, Runs.Run step allowed State.initial actions state ∧ shows state = true := by
  obtain ⟨state, reached, shown⟩ := Runs.exists_run_of_exec (fun _ _ permits => permits) ran
  refine ⟨state, reached.strengthen (State.Within limit) (fun _ _ => rfl) ?_ ?_, shown⟩
  · intro before action after within permits taken
    exact within.step (Bool.and_eq_true_iff.mp permits).1 taken
  · intro before action within permits
    exact sound before action within (Bool.and_eq_true_iff.mp permits).2

def adderCode : Word :=
  ⟨"0x4444444444444444444444444444444444444444444444444444444444444444", by decide⟩

def adderCommitment : Word :=
  ⟨"0x5555555555555555555555555555555555555555555555555555555555555555", by decide⟩

def verifiedBuild (code commitment : Word) (masp : Masp) : VerifyResponse where
  masp := masp
  commitment := commitment
  kind := .accountComponent
  manifest := .null
  readOnly := .null
  files := []
  verified := true
  root := code
  cargoMidenVersion := none
  debug := none

def counterInput (source : String) : VerifyInput where
  networkId := "mtst"
  resource := .account counterAccountId
  project := { files := [], entrypoint := ".", name := "counter" }
  source := source

def advances (p : Pid) (steps : Nat) : List Action :=
  List.replicate steps (.advance p)

def verifies (p : Pid) (source : String) (build : VerifyResponse) (steps : Nat) : List Action :=
  [.start p (.verify (counterInput source)), .answer p (.ok build)] ++ advances p steps

def counterVerified : List Action :=
  verifies 0 "miden-verify" (verifiedBuild counterCode counterCommitment [1]) 9

def playgroundDay : List Action :=
  verifies 0 PLAYGROUND_SOURCE (verifiedBuild counterCode counterCommitment [1]) 9 ++
    [.tick 90000000]

end SourceVerification.Concurrent
