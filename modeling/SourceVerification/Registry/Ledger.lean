import Mathlib.Data.Set.Insert
import SourceVerification.Registry.Integrity
import SourceVerification.Registry.Lookup
import SourceVerification.Shared.Results

set_option autoImplicit false

namespace SourceVerification.Registry

open Tables Results

structure Entry where
  packageCommitment : Word
  source : String
  createdAt : Time
deriving DecidableEq

/-- What the registry is for: the verifications on record for each kind, network and root. -/
abbrev Ledger := Kind → String → Word → Set Entry

namespace Ledger

def empty : Ledger := fun _ _ _ => ∅

def HasPackage (ledger : Ledger) (commitment : Word) : Prop :=
  ∃ kind networkId root, ∃ entry ∈ ledger kind networkId root, entry.packageCommitment = commitment

def Recorded (ledger : Ledger) (kind : Kind) (networkId : String) (root commitment : Word) : Prop :=
  match kind with
  | .account => ∃ entry ∈ ledger .account networkId root, entry.packageCommitment = commitment
  | .note => (ledger .note networkId root).Nonempty

def record (ledger : Ledger) (kind : Kind) (networkId : String) (root : Word) (entry : Entry) :
    Ledger :=
  fun otherKind otherNetwork otherRoot =>
    { other | other ∈ ledger otherKind otherNetwork otherRoot ∨
      (otherKind = kind ∧ otherNetwork = networkId ∧ otherRoot = root ∧ other = entry) }

def cleanup (ledger : Ledger) (cutoff : Time) : Ledger :=
  fun kind networkId root =>
    { entry ∈ ledger kind networkId root | expired cutoff entry.source entry.createdAt = false }

def alreadyVerified : Kind → Error
  | .account => componentAlreadyVerified
  | .note => noteAlreadyVerified

open Classical in
noncomputable def verify (faults : Faults) (ledger : Ledger) (input : VerifyInput)
    (answer : Except Error VerifyResponse) (now : Time) : Except Error Bool × Ledger :=
  match answer with
  | .error error => (.error error, ledger)
  | .ok build =>
    if build.verified = false then (.ok false, ledger)
    else if faults .getPackage then (.error fault, ledger)
    -- Only a package nothing references has an artifact to write.
    else if ¬ ledger.HasPackage build.commitment ∧ faults .putRelease then (.error fault, ledger)
    else if ledger.Recorded input.resource.kind input.networkId build.root build.commitment then
      (.error (alreadyVerified input.resource.kind), ledger)
    else if faults .transaction then (.error fault, ledger)
    else (.ok true, ledger.record input.resource.kind input.networkId build.root
      { packageCommitment := build.commitment, source := input.source, createdAt := now })

noncomputable def call (ledger : Ledger) : Call → Ledger
  | .verify input answer faults now => (ledger.verify faults input answer now).2
  | .debugBuild _ _ _ _ _ => ledger
  | .cleanup faults now =>
    if faults .transaction then ledger else ledger.cleanup (now - PLAYGROUND_TTL_MS)

noncomputable def run (calls : List Call) : Ledger :=
  calls.foldl Ledger.call .empty

end Ledger

def ComponentRow.entry (row : ComponentRow) : Entry where
  packageCommitment := row.packageCommitment
  source := row.source
  createdAt := row.createdAt

def NoteRow.entry (row : NoteRow) : Entry where
  packageCommitment := row.packageCommitment
  source := row.source
  createdAt := row.createdAt

/-- The ledger the rows stand for. -/
def Database.ledger (db : Database) : Ledger
  | .account, networkId, code =>
    { entry | ∃ account ∈ db.accounts, account.networkId = networkId ∧ account.code = code ∧
      ∃ row ∈ db.components, row.verifiedAccountId = account.id ∧ row.entry = entry }
  | .note, networkId, script =>
    { entry | ∃ row ∈ db.notes, row.networkId = networkId ∧ row.script = script ∧ row.entry = entry }

theorem empty_ledger : State.empty.db.ledger = .empty := by
  funext kind networkId root
  cases kind <;> simp [Database.ledger, State.empty, Ledger.empty]

theorem AccountStep.ledger {db next : Database} {networkId : String} {code : Word}
    {account : AccountRow} (step : AccountStep db next networkId code account) (keyed : db.Keyed) :
    next.ledger = db.ledger := by
  funext kind otherNetwork root
  cases kind with
  | note => simp only [Database.ledger, step.notes]
  | account =>
    ext entry
    simp only [Database.ledger, step.components, Set.mem_ofPred_eq]
    constructor
    · rintro ⟨holder, member, sameNetwork, sameCode, row, listed, under, same⟩
      rcases (step.rows.mem_iff holder).mp member with old | rfl
      · exact ⟨holder, old, sameNetwork, sameCode, row, listed, under, same⟩
      · rcases step.fresh with old | ⟨new, _⟩
        · exact ⟨holder, old, sameNetwork, sameCode, row, listed, under, same⟩
        · obtain ⟨owner, inside, id⟩ := keyed.componentAccount row listed
          exact absurd (id.trans (under.trans new)) (Nat.ne_of_lt (keyed.accountFresh owner inside))
    · rintro ⟨holder, member, rest⟩
      exact ⟨holder, (step.rows.mem_iff holder).mpr (.inl member), rest⟩

theorem PackageStep.ledger {db next : Database} {commitment : Word} {package : PackageRow}
    (step : PackageStep db next commitment package) : next.ledger = db.ledger := by
  funext kind networkId root
  cases kind <;> simp only [Database.ledger, step.accounts, step.components, step.notes]

theorem Recorded.ledger {db next : Database} {input : VerifyInput} {build : VerifyResponse}
    {now : Time} {package : PackageRow} (recorded : Recorded db input build now package next)
    (keyed : db.Keyed) :
    next.ledger = db.ledger.record input.resource.kind input.networkId build.root
      { packageCommitment := build.commitment, source := input.source, createdAt := now } := by
  cases recorded with
  | component accountId packaged accounted account kind packageStep accountStep absent rows =>
    have unchanged : accounted.ledger = db.ledger :=
      (accountStep.ledger (packageStep.keyed keyed)).trans packageStep.ledger
    have accountIds := (accountStep.keyed (packageStep.keyed keyed)).accountIds
    have accountKeys := (accountStep.keyed (packageStep.keyed keyed)).accountKeys
    rw [← unchanged, rows, kind]
    funext otherKind networkId root
    cases otherKind with
    | note => ext entry; simp [Database.ledger, Ledger.record, Resource.kind]
    | account =>
      ext entry
      simp only [Database.ledger, Ledger.record, Resource.kind, Set.mem_ofPred_eq, List.mem_append,
        List.mem_singleton, true_and]
      constructor
      · rintro ⟨holder, member, sameNetwork, sameCode, row, old | rfl, under, same⟩
        · exact .inl ⟨holder, member, sameNetwork, sameCode, row, old, under, same⟩
        · obtain rfl := List.inj_on_of_nodup_map accountIds member accountStep.rows.mem under.symm
          exact .inr ⟨sameNetwork ▸ accountStep.networkId_eq, sameCode ▸ accountStep.code_eq,
            same.symm⟩
      · rintro (⟨holder, member, sameNetwork, sameCode, row, old, rest⟩ | ⟨rfl, rfl, rfl⟩)
        · exact ⟨holder, member, sameNetwork, sameCode, row, .inl old, rest⟩
        · exact ⟨account, accountStep.rows.mem, accountStep.networkId_eq, accountStep.code_eq, _,
            .inr rfl, rfl, rfl⟩
  | note noteId packaged kind packageStep absent rows =>
    rw [← packageStep.ledger, rows, kind]
    funext otherKind networkId root
    cases otherKind with
    | account => ext entry; simp [Database.ledger, Ledger.record, Resource.kind]
    | note =>
      ext entry
      simp only [Database.ledger, Ledger.record, Resource.kind, Set.mem_ofPred_eq, List.mem_append,
        List.mem_singleton, true_and]
      constructor
      · rintro ⟨row, old | rfl, sameNetwork, sameScript, same⟩
        · exact .inl ⟨row, old, sameNetwork, sameScript, same⟩
        · exact .inr ⟨sameNetwork.symm, sameScript.symm, same.symm⟩
      · rintro (⟨row, old, rest⟩ | ⟨rfl, rfl, rfl⟩)
        · exact ⟨row, .inl old, rest⟩
        · exact ⟨_, .inr rfl, rfl, rfl, rfl⟩

theorem recorded_iff_component {db between : Database} {networkId : String} {code : Word}
    {account : AccountRow} (step : AccountStep db between networkId code account) (keyed : db.Keyed)
    (commitment : Word) :
    db.ledger.Recorded .account networkId code commitment ↔
      ∃ row ∈ between.components,
        row.verifiedAccountId = account.id ∧ row.packageCommitment = commitment := by
  rw [← step.ledger keyed]
  simp only [Ledger.Recorded, Database.ledger, Set.mem_ofPred_eq]
  constructor
  · rintro ⟨_, ⟨holder, member, sameNetwork, sameCode, row, listed, under, rfl⟩, same⟩
    have holder_eq : holder = account :=
      List.inj_on_of_nodup_map (step.keyed keyed).accountKeys member step.rows.mem
        (by rw [sameNetwork, sameCode, step.networkId_eq, step.code_eq])
    exact ⟨row, listed, holder_eq ▸ under, same⟩
  · rintro ⟨row, listed, under, same⟩
    exact ⟨row.entry, ⟨account, step.rows.mem, step.networkId_eq, step.code_eq, row, listed, under,
      rfl⟩, same⟩

theorem recorded_iff_note (db : Database) (networkId : String) (script commitment : Word) :
    db.ledger.Recorded .note networkId script commitment ↔
      ∃ row ∈ db.notes, row.networkId = networkId ∧ row.script = script := by
  simp [Ledger.Recorded, Database.ledger, Set.Nonempty]

theorem Recorded.not_recorded {db next : Database} {input : VerifyInput} {build : VerifyResponse}
    {now : Time} {package : PackageRow} (recorded : Recorded db input build now package next)
    (keyed : db.Keyed) :
    ¬ db.ledger.Recorded input.resource.kind input.networkId build.root build.commitment := by
  cases recorded with
  | component accountId packaged accounted account kind packageStep accountStep absent rows =>
    rw [kind, ← packageStep.ledger, Resource.kind,
      recorded_iff_component accountStep (packageStep.keyed keyed)]
    rintro ⟨row, member, same⟩
    exact absent row member same
  | note noteId packaged kind packageStep absent rows =>
    rw [kind, ← packageStep.ledger, Resource.kind, recorded_iff_note]
    rintro ⟨row, member, same⟩
    exact absent row member same

theorem hasPackage_of_mem {db : Database} {package : PackageRow} (member : package ∈ db.packages) :
    db.hasPackage package.id = true :=
  List.any_eq_true.mpr ⟨package, member, by simp⟩

theorem hasAccount_of_mem {db : Database} {account : AccountRow} (member : account ∈ db.accounts) :
    db.hasAccount account.id = true :=
  List.any_eq_true.mpr ⟨account, member, by simp⟩

theorem packageRowId_ok (db : Database) (project : Project) (build : VerifyResponse) (now : Time) :
    ∃ packageId next,
      packageRowId db project build (db.getPackage build.commitment) now = .ok (packageId, next) := by
  cases stored : db.getPackage build.commitment with
  | some row => exact ⟨row.id, db, rfl⟩
  | none => simp [packageRowId, insertPackage, Database.insertPackageRow, stored]

theorem accountRowId_ok (db : Database) (networkId : String) (code : Word) (now : Time) :
    ∃ accountId next, accountRowId db networkId code now = .ok (accountId, next) := by
  cases found : db.findAccount networkId code with
  | some row => exact ⟨row.id, db, by simp [accountRowId, found]⟩
  | none => simp [accountRowId, Database.insertAccountRow, found]

theorem insertAccountComponent_eq_error {db : Database} {networkId : String} {code : Word}
    {package : PackageRow} {packageCommitment : Word} {source : String} {now : Time} {error : Error}
    (stored : package ∈ db.packages)
    (ran : insertAccountComponent db networkId code package.id packageCommitment source now =
      .error error) :
    error = componentAlreadyVerified ∧ ∃ between account,
      AccountStep db between networkId code account ∧ ∃ row ∈ between.components,
        row.verifiedAccountId = account.id ∧ row.packageCommitment = packageCommitment := by
  obtain ⟨accountId, between, accountRan⟩ := accountRowId_ok db networkId code now
  obtain ⟨account, step, rfl⟩ := accountRowId_step accountRan
  have hasAccount := hasAccount_of_mem step.rows.mem
  have hasPackage := hasPackage_of_mem (step.packages.symm ▸ stored)
  simp only [insertAccountComponent, accountRan, bind, Except.bind] at ran
  cases found : between.findComponent account.id packageCommitment with
  | none => simp [found, Database.insertComponentRow, hasAccount, hasPackage] at ran
  | some row =>
    simp only [found, Option.isSome_some, if_true, Except.error.injEq] at ran
    obtain ⟨member, same⟩ := find?_key_eq_some found
    exact ⟨ran.symm, between, account, step, row, member, same⟩

theorem insertNote_eq_error {db : Database} {networkId : String} {script : Word}
    {package : PackageRow} {packageCommitment : Word} {source : String} {now : Time} {error : Error}
    (stored : package ∈ db.packages)
    (ran : insertNote db networkId script package.id packageCommitment source now = .error error) :
    error = noteAlreadyVerified ∧ ∃ row ∈ db.notes, row.networkId = networkId ∧ row.script = script := by
  have hasPackage := hasPackage_of_mem stored
  cases found : db.findNote networkId script with
  | none => simp [insertNote, found, Database.insertNoteRow, hasPackage] at ran
  | some row =>
    simp only [insertNote, found, Option.isSome_some, if_true, Except.error.injEq] at ran
    obtain ⟨member, same⟩ := find?_key_eq_some found
    exact ⟨ran.symm, row, member, same⟩

theorem record_eq_error {db : Database} {input : VerifyInput} {build : VerifyResponse} {now : Time}
    {error : Error} (keyed : db.Keyed)
    (ran : record db input build (db.getPackage build.commitment) now = .error error) :
    error = Ledger.alreadyVerified input.resource.kind ∧
      db.ledger.Recorded input.resource.kind input.networkId build.root build.commitment := by
  obtain ⟨packageId, packaged, packageRan⟩ := packageRowId_ok db input.project build now
  obtain ⟨package, packageStep, rfl⟩ := packageRowId_step packageRan
  have refused : insertRecord packaged input build package.id now = .error error := by
    cases inserted : insertRecord packaged input build package.id now with
    | error other => simpa [record, packageRan, inserted, bind, Except.bind] using ran
    | ok next => simp [record, packageRan, inserted, bind, Except.bind] at ran
  rw [← packageStep.ledger]
  cases kind : input.resource with
  | account accountId =>
    simp only [insertRecord, kind] at refused
    obtain ⟨same, between, account, step, recorded⟩ :=
      insertAccountComponent_eq_error packageStep.rows.mem refused
    exact ⟨same, (recorded_iff_component step (packageStep.keyed keyed) _).mpr recorded⟩
  | note noteId =>
    simp only [insertRecord, kind] at refused
    obtain ⟨same, recorded⟩ := insertNote_eq_error packageStep.rows.mem refused
    exact ⟨same, (recorded_iff_note _ _ _ _).mpr recorded⟩

theorem deleteExpired_ledger (db : Database) (cutoff : Time) :
    (deleteExpired db cutoff).2.ledger = db.ledger.cleanup cutoff := by
  funext kind networkId root
  ext entry
  cases kind with
  | account =>
    simp only [Database.ledger, Ledger.cleanup, Set.mem_ofPred_eq, deleteExpired_components,
      List.mem_filter, Bool.not_eq_true']
    constructor
    · rintro ⟨account, member, sameNetwork, sameCode, row, ⟨listed, kept⟩, under, rfl⟩
      have old := (deleteExpired_accounts_sublist db cutoff).subset member
      exact ⟨⟨account, old, sameNetwork, sameCode, row, listed, under, rfl⟩, kept⟩
    · rintro ⟨⟨account, old, sameNetwork, sameCode, row, listed, under, rfl⟩, kept⟩
      refine ⟨account, (mem_deleteExpired_accounts db cutoff).mpr ⟨old, fun _ => ?_⟩, sameNetwork,
        sameCode, row, ⟨listed, kept⟩, under, rfl⟩
      have stays : row.expired cutoff = false := kept
      exact ⟨row, by simp [listed, stays], under⟩
  | note =>
    simp only [Database.ledger, Ledger.cleanup, Set.mem_ofPred_eq, deleteExpired_notes,
      List.mem_filter, Bool.not_eq_true']
    constructor
    · rintro ⟨row, ⟨listed, kept⟩, sameNetwork, sameScript, rfl⟩
      exact ⟨⟨row, listed, sameNetwork, sameScript, rfl⟩, kept⟩
    · rintro ⟨⟨row, listed, sameNetwork, sameScript, rfl⟩, kept⟩
      exact ⟨row, ⟨listed, kept⟩, sameNetwork, sameScript, rfl⟩

theorem hasPackage_iff {db : Database} (sound : db.Sound) (commitment : Word) :
    db.ledger.HasPackage commitment ↔ ∃ row ∈ db.packages, row.commitment = commitment := by
  constructor
  · rintro ⟨kind, networkId, root, entry, recorded, rfl⟩
    cases kind with
    | account =>
      obtain ⟨_, _, _, _, row, listed, _, rfl⟩ := recorded
      obtain ⟨package, member, _, same⟩ := sound.componentPackage row listed
      exact ⟨package, member, same⟩
    | note =>
      obtain ⟨row, listed, _, _, rfl⟩ := recorded
      obtain ⟨package, member, _, same⟩ := sound.notePackage row listed
      exact ⟨package, member, same⟩
  · rintro ⟨package, member, rfl⟩
    rcases sound.packageUsed package member with ⟨row, listed, made⟩ | ⟨row, listed, made⟩
    · obtain ⟨owner, inside, id, same⟩ := sound.componentPackage row listed
      obtain rfl := List.inj_on_of_nodup_map sound.packageIds inside member (id.trans made)
      obtain ⟨account, holds, under⟩ := sound.componentAccount row listed
      exact ⟨.account, account.networkId, account.code, row.entry,
        ⟨account, holds, rfl, rfl, row, listed, under.symm, rfl⟩, same.symm⟩
    · obtain ⟨owner, inside, id, same⟩ := sound.notePackage row listed
      obtain rfl := List.inj_on_of_nodup_map sound.packageIds inside member (id.trans made)
      exact ⟨.note, row.networkId, row.script, row.entry, ⟨row, listed, rfl, rfl, rfl⟩, same.symm⟩

theorem getPackage_isNone_iff {db : Database} (sound : db.Sound) (commitment : Word) :
    (db.getPackage commitment).isNone = true ↔ ¬ db.ledger.HasPackage commitment := by
  rw [hasPackage_iff sound, Option.isNone_iff_eq_none, Database.getPackage, find?_key_eq_none]
  simp

theorem updatePackage_ledger (db : Database) (id : RowId) (update : PackageRow → PackageRow) :
    (db.updatePackage id update).ledger = db.ledger := by
  funext kind networkId root
  cases kind <;> rfl

theorem storeDebugBuild_ledger (faults : Faults) (state : State) (packageId : RowId)
    (commitment : Word) (debug : Option DebugBuild) (now : Time) :
    (storeDebugBuild faults state packageId commitment debug now).2.db.ledger = state.db.ledger := by
  unfold storeDebugBuild
  split
  · rfl
  · rfl
  · dsimp only
    split_ifs
    · rfl
    · rfl
    · exact updatePackage_ledger _ _ _

theorem verifyResource_ledger (faults : Faults) {state : State} (input : VerifyInput)
    (answer : Except Error VerifyResponse) (now : Time) (sound : Integrity state) :
    ((verifyResource faults state input answer now).1,
        (verifyResource faults state input answer now).2.db.ledger) =
      state.db.ledger.verify faults input answer now := by
  cases answer with
  | error error => rfl
  | ok build =>
    have absent := getPackage_isNone_iff sound.toSound build.commitment
    unfold verifyResource Ledger.verify
    dsimp only
    simp only [← absent]
    generalize (if (state.db.getPackage build.commitment).isNone then
      state.store.put build.commitment build.masp .release else state.store) = store
    cases ran : record state.db input build (state.db.getPackage build.commitment) now with
    | error error =>
      obtain ⟨rfl, recorded⟩ := record_eq_error sound.toKeyed ran
      simp only [recorded, if_true, Bool.and_eq_true]
      split_ifs <;> rfl
    | ok result =>
      obtain ⟨package, same, done⟩ := record_eq_ok ran
      have fresh := done.not_recorded sound.toKeyed
      simp only [fresh, if_false, Bool.and_eq_true, ← done.ledger sound.toKeyed]
      split_ifs
      · rfl
      · rfl
      · rfl
      · rfl
      · exact Prod.ext rfl (storeDebugBuild_ledger _ _ _ _ _ _)
      · rfl

theorem cleanupPlaygroundResources_ledger (faults : Faults) (state : State) (now : Time) :
    (cleanupPlaygroundResources faults state now).2.db.ledger =
      if faults .transaction then state.db.ledger
      else state.db.ledger.cleanup (now - PLAYGROUND_TTL_MS) := by
  unfold cleanupPlaygroundResources
  dsimp only
  split_ifs
  · rfl
  · split
    · exact deleteExpired_ledger _ _
    · exact deleteExpired_ledger _ _

theorem postDebugBuild_ledger (parse : String → Option (List (String × Json))) (faults : Faults)
    (state : State) (commitment : String) (answer : Files → String → Except Error DebugBuild)
    (now : Time) :
    (postDebugBuild parse faults state commitment answer now).2.db.ledger = state.db.ledger := by
  rcases postDebugBuild_cases parse faults state commitment answer now with
    same | ⟨dbPackage, _, entrypoint, debug, next, _, _, stored, outcome⟩
  · rw [same]
  · have built : next.db.ledger = state.db.ledger :=
      stored ▸ storeDebugBuild_ledger faults state dbPackage.id dbPackage.commitment (some debug) now
    rcases outcome with same | ⟨_, same⟩
    · rw [same, built]
    · rw [same]
      exact (updatePackage_ledger _ _ _).trans built

theorem call_ledger {state : State} (sound : Integrity state) (call : Call) :
    (state.call call).db.ledger = state.db.ledger.call call := by
  cases call with
  | verify input answer faults now =>
    exact congrArg Prod.snd (verifyResource_ledger faults input answer now sound)
  | debugBuild parse commitment answer faults now =>
    exact postDebugBuild_ledger parse faults state commitment answer now
  | cleanup faults now => exact cleanupPlaygroundResources_ledger faults state now

theorem calls_ledger {state : State} (sound : Integrity state) (calls : List Call) :
    (calls.foldl State.call state).db.ledger = calls.foldl Ledger.call state.db.ledger := by
  induction calls generalizing state with
  | nil => rfl
  | cons call rest ih =>
    rw [List.foldl_cons, ih (call_integrity sound call), call_ledger sound call, List.foldl_cons]

def VerifiedAccountComponent.entry (component : VerifiedAccountComponent) : Entry where
  packageCommitment := component.packageCommitment
  source := component.source
  createdAt := component.createdAt.time

def VerifiedNote.entry (note : VerifiedNote) : Entry where
  packageCommitment := note.packageCommitment
  source := note.source
  createdAt := note.createdAt.time

def Database.Serves (db : Database) (package : Package) (commitment : Word) : Prop :=
  ∃ row ∈ db.packages, row.commitment = commitment ∧ package = toPackage row

def AccountAnswer (db : Database) (ledger : Ledger) (networkId : String) (code : Word) :
    Except Error VerifiedAccount → Prop
  | .error error => error = notFound .account ∧ ledger .account networkId code = ∅
  | .ok account => account.networkId = networkId ∧ account.code = code ∧
      (ledger .account networkId code).Nonempty ∧
      (account.verifiedAccountComponents.map (·.entry)).Nodup ∧
      (∀ entry, entry ∈ account.verifiedAccountComponents.map (·.entry) ↔
        entry ∈ ledger .account networkId code) ∧
      ∀ component ∈ account.verifiedAccountComponents,
        db.Serves component.package component.packageCommitment

def NoteAnswer (db : Database) (ledger : Ledger) (networkId : String) (script : Word) :
    Except Error VerifiedNote → Prop
  | .error error => error = notFound .note ∧ ledger .note networkId script = ∅
  | .ok note => note.networkId = networkId ∧ note.script = script ∧
      ledger .note networkId script = {note.entry} ∧ db.Serves note.package note.packageCommitment

theorem packageOf_ok {db : Database} (keyed : db.Keyed) {packageId : RowId} {commitment : Word}
    (references : ∃ package ∈ db.packages,
      package.id = packageId ∧ package.commitment = commitment) :
    ∃ package ∈ db.packages, package.commitment = commitment ∧ db.packageOf packageId = .ok package := by
  obtain ⟨package, member, rfl, same⟩ := references
  refine ⟨package, member, same, ?_⟩
  rw [Database.packageOf, find?_of_mem (·.id) keyed.packageIds member]

theorem readVerifiedNote_answer {db : Database} (keyed : db.Keyed) (networkId : String)
    (script : Word) :
    NoteAnswer db db.ledger networkId script (readVerifiedNote db networkId script) := by
  unfold readVerifiedNote
  cases found : db.findNote networkId script with
  | none =>
    refine ⟨rfl, Set.eq_empty_of_forall_notMem ?_⟩
    rintro entry ⟨row, member, sameNetwork, sameScript, _⟩
    exact find?_key_eq_none.mp found row member ⟨sameNetwork, sameScript⟩
  | some row =>
    obtain ⟨member, sameNetwork, sameScript⟩ := find?_key_eq_some found
    obtain ⟨package, stored, same, read⟩ := packageOf_ok keyed (keyed.notePackage row member)
    simp only [read, bind, Except.bind, NoteAnswer]
    refine ⟨sameNetwork, sameScript, ?_, package, stored, same, rfl⟩
    refine Set.eq_singleton_iff_unique_mem.mpr ⟨⟨row, member, sameNetwork, sameScript, rfl⟩, ?_⟩
    rintro entry ⟨other, listed, otherNetwork, otherScript, rfl⟩
    have same_row : other = row := List.inj_on_of_nodup_map keyed.noteKeys listed member
      (by rw [sameNetwork, sameScript, otherNetwork, otherScript])
    rw [same_row]
    rfl

theorem componentsOf_entries {db : Database} (keyed : db.Keyed) (id : RowId) :
    ((db.componentsOf id).map (·.entry)).Nodup := by
  have keys : ((db.componentsOf id).map fun row =>
      (row.verifiedAccountId, row.packageCommitment)).Nodup := nodup_filter _ _ keyed.componentKeys
  refine List.Nodup.map_on (fun row member other listed same => ?_) keys.of_map
  have under : ∀ row ∈ db.componentsOf id, row.verifiedAccountId = id := by
    simp [Database.componentsOf]
  have commitments : row.packageCommitment = other.packageCommitment :=
    congrArg Entry.packageCommitment same
  exact List.inj_on_of_nodup_map keys member listed (by rw [under row member, under other listed, commitments])

theorem readVerifiedAccount_answer {db : Database} (sound : db.Sound) (networkId : String)
    (code : Word) :
    AccountAnswer db db.ledger networkId code (readVerifiedAccount db networkId code) := by
  cases found : db.findAccount networkId code with
  | none =>
    simp only [readVerifiedAccount, found]
    refine ⟨rfl, Set.eq_empty_of_forall_notMem ?_⟩
    rintro entry ⟨row, member, sameNetwork, sameCode, _⟩
    exact find?_key_eq_none.mp found row member ⟨sameNetwork, sameCode⟩
  | some account =>
    obtain ⟨member, sameNetwork, sameCode⟩ := find?_key_eq_some found
    have each : ∀ row ∈ db.componentsOf account.id, ∃ answer,
        (do
          let package ← db.packageOf row.packageId
          .ok (toVerifiedAccountComponent row package)) = .ok answer ∧
        answer.entry = row.entry ∧ db.Serves answer.package answer.packageCommitment := by
      intro row listed
      obtain ⟨package, stored, same, read⟩ :=
        packageOf_ok sound.toKeyed (sound.componentPackage row (List.mem_of_mem_filter listed))
      refine ⟨toVerifiedAccountComponent row package, ?_, rfl, package, stored, same, rfl⟩
      rw [read]
      rfl
    obtain ⟨answers, ran, entries, served⟩ := mapM_ok each
    have answered : readVerifiedAccount db networkId code = .ok (toVerifiedAccount account answers) := by
      simp only [readVerifiedAccount, found]
      rw [ran]
      rfl
    have ledger : ∀ entry, entry ∈ (db.componentsOf account.id).map (·.entry) ↔
        entry ∈ db.ledger .account networkId code := by
      intro entry
      simp only [List.mem_map, Database.componentsOf, List.mem_filter, decide_eq_true_eq]
      constructor
      · rintro ⟨row, ⟨listed, under⟩, rfl⟩
        exact ⟨account, member, sameNetwork, sameCode, row, listed, under, rfl⟩
      · rintro ⟨holder, held, otherNetwork, otherCode, row, listed, under, rfl⟩
        obtain rfl : holder = account := List.inj_on_of_nodup_map sound.accountKeys held member
          (by rw [sameNetwork, sameCode, otherNetwork, otherCode])
        exact ⟨row, ⟨listed, under⟩, rfl⟩
    obtain ⟨component, listed, under⟩ := sound.accountUsed account member
    rw [answered]
    have under_account : component.entry ∈ db.ledger .account networkId code :=
      ⟨account, member, sameNetwork, sameCode, component, listed, under, rfl⟩
    refine ⟨sameNetwork, sameCode, ⟨component.entry, under_account⟩, ?_, ?_, served⟩
    · exact entries ▸ componentsOf_entries sound.toKeyed _
    · intro entry
      exact entries ▸ ledger entry

/-- What every lookup answers after the calls, by root in any letter case and by id. -/
theorem lookups_answer_ledger (calls : List Call) (networkId value : String) :
    match parseRoot value with
    | none =>
      getAccountByCode (State.run calls).db networkId value = .error (.http ⟨400, "invalid code"⟩) ∧
        getNoteByScript (State.run calls).db networkId value =
          .error (.http ⟨400, "invalid script"⟩)
    | some root =>
      AccountAnswer (State.run calls).db (Ledger.run calls) networkId root
          (getAccountByCode (State.run calls).db networkId value) ∧
        NoteAnswer (State.run calls).db (Ledger.run calls) networkId root
          (getNoteByScript (State.run calls).db networkId value) ∧
        (∀ accountId standardAccountComponents procedures,
          findVerifiedAccount (State.run calls).db networkId accountId
              (.ok (.account root standardAccountComponents procedures)) =
            (getAccountByCode (State.run calls).db networkId value).map fun account =>
              { account with
                accountId := accountId
                standardAccountComponents := standardAccountComponents
                procedures := procedures }) ∧
        ∀ noteId,
          findVerifiedNote (State.run calls).db networkId noteId (.ok (.note root)) =
            (getNoteByScript (State.run calls).db networkId value).map fun note =>
              { note with noteId := noteId } := by
  have sound := calls_integrity integrity_empty calls
  have ledger : (State.run calls).db.ledger = Ledger.run calls := by
    rw [State.run, calls_ledger integrity_empty, empty_ledger, Ledger.run]
  unfold getAccountByCode getNoteByScript
  cases parseRoot value with
  | none => exact ⟨rfl, rfl⟩
  | some root =>
    dsimp only
    rw [← ledger]
    refine ⟨readVerifiedAccount_answer sound.toSound networkId root,
      readVerifiedNote_answer sound.toKeyed networkId root, ?_, ?_⟩
    · intro accountId standardAccountComponents procedures
      simp only [findVerifiedAccount, importedAs, bind, Except.bind]
      cases readVerifiedAccount (State.run calls).db networkId root <;> rfl
    · intro noteId
      simp only [findVerifiedNote, importedAs, bind, Except.bind]
      cases readVerifiedNote (State.run calls).db networkId root <;> rfl

end SourceVerification.Registry
