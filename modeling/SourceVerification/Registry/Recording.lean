import SourceVerification.Registry.VerifyResource
import SourceVerification.Shared.Results
import SourceVerification.Shared.Tables

set_option autoImplicit false

namespace SourceVerification.Registry

open Tables Results

/-- Unique keys, references that resolve, and identifiers below the next one. -/
structure Database.Keyed (db : Database) : Prop where
  packageIds : (db.packages.map (·.id)).Nodup
  packageCommitments : (db.packages.map (·.commitment)).Nodup
  accountIds : (db.accounts.map (·.id)).Nodup
  accountKeys : (db.accounts.map fun row => (row.networkId, row.code)).Nodup
  componentKeys : (db.components.map fun row => (row.verifiedAccountId, row.packageCommitment)).Nodup
  noteKeys : (db.notes.map fun row => (row.networkId, row.script)).Nodup
  componentPackage : ∀ row ∈ db.components, ∃ package ∈ db.packages,
    package.id = row.packageId ∧ package.commitment = row.packageCommitment
  componentAccount : ∀ row ∈ db.components, ∃ account ∈ db.accounts, account.id = row.verifiedAccountId
  notePackage : ∀ row ∈ db.notes, ∃ package ∈ db.packages,
    package.id = row.packageId ∧ package.commitment = row.packageCommitment
  packageFresh : ∀ row ∈ db.packages, row.id < db.nextId
  accountFresh : ∀ row ∈ db.accounts, row.id < db.nextId

structure PackageStep (db next : Database) (commitment : Word) (package : PackageRow) : Prop where
  rows : FoundOrAppended (·.commitment) db.packages next.packages package
  commitment_eq : package.commitment = commitment
  fresh : package ∈ db.packages ∨
    (package.id = db.nextId ∧ db.nextId < next.nextId ∧ package.debugCommitment = none)
  grows : db.nextId ≤ next.nextId
  accounts : next.accounts = db.accounts
  components : next.components = db.components
  notes : next.notes = db.notes

structure AccountStep (db next : Database) (networkId : String) (code : Word) (account : AccountRow) :
    Prop where
  rows : FoundOrAppended (fun row => (row.networkId, row.code)) db.accounts next.accounts account
  networkId_eq : account.networkId = networkId
  code_eq : account.code = code
  fresh : account ∈ db.accounts ∨ (account.id = db.nextId ∧ db.nextId < next.nextId)
  grows : db.nextId ≤ next.nextId
  packages : next.packages = db.packages
  components : next.components = db.components
  notes : next.notes = db.notes

theorem getPackage_eq_some {db : Database} {commitment : Word} {row : PackageRow}
    (found : db.getPackage commitment = some row) : row ∈ db.packages ∧ row.commitment = commitment :=
  find?_key_eq_some found

theorem packageRowId_step {db next : Database} {project : Project} {build : VerifyResponse}
    {now : Time} {packageId : RowId}
    (ran : packageRowId db project build (db.getPackage build.commitment) now = .ok (packageId, next)) :
    ∃ package, PackageStep db next build.commitment package ∧ package.id = packageId := by
  cases stored : db.getPackage build.commitment with
  | some row =>
    obtain ⟨member, commitment⟩ := getPackage_eq_some stored
    simp only [stored, packageRowId, Except.ok.injEq, Prod.mk.injEq] at ran
    obtain ⟨rfl, rfl⟩ := ran
    exact ⟨row, ⟨.inl ⟨rfl, member⟩, commitment, .inl member, le_refl _, rfl, rfl, rfl⟩, rfl⟩
  | none =>
    have absent := find?_key_eq_none.mp stored
    simp only [stored, packageRowId, insertPackage, Database.insertPackageRow, Option.isSome_none,
      Bool.false_eq_true, if_false, Except.ok.injEq, Prod.mk.injEq] at ran
    obtain ⟨rfl, rfl⟩ := ran
    refine ⟨packageRow db.nextId project build now, ⟨.inr ⟨rfl, absent⟩, rfl, ?_, ?_, rfl, rfl, rfl⟩, rfl⟩
    · exact .inr ⟨rfl, Nat.lt_succ_self _, rfl⟩
    · exact Nat.le_succ _

theorem accountRowId_step {db next : Database} {networkId : String} {code : Word} {now : Time}
    {accountId : RowId} (ran : accountRowId db networkId code now = .ok (accountId, next)) :
    ∃ account, AccountStep db next networkId code account ∧ account.id = accountId := by
  unfold accountRowId at ran
  cases found : db.findAccount networkId code with
  | some row =>
    obtain ⟨member, key⟩ := find?_key_eq_some found
    simp only [found, Except.ok.injEq, Prod.mk.injEq] at ran
    obtain ⟨rfl, rfl⟩ := ran
    exact ⟨row, ⟨.inl ⟨rfl, member⟩, key.1, key.2, .inl member, le_refl _, rfl, rfl, rfl⟩, rfl⟩
  | none =>
    have absent := find?_key_eq_none.mp found
    simp only [found, Database.insertAccountRow, Option.isSome_none, Bool.false_eq_true, if_false,
      Except.ok.injEq, Prod.mk.injEq] at ran
    obtain ⟨rfl, rfl⟩ := ran
    refine ⟨accountRow db.nextId networkId code now,
      ⟨.inr ⟨rfl, ?_⟩, rfl, rfl, .inr ⟨rfl, Nat.lt_succ_self _⟩, Nat.le_succ _, rfl, rfl, rfl⟩, rfl⟩
    intro other member same
    simp only [accountRow, Prod.mk.injEq] at same
    exact absent other member same

theorem insertAccountComponent_eq_ok {db next : Database} {networkId : String} {code : Word}
    {packageId : RowId} {packageCommitment : Word} {source : String} {now : Time}
    (ran : insertAccountComponent db networkId code packageId packageCommitment source now = .ok next) :
    ∃ between account, AccountStep db between networkId code account ∧
      (∀ row ∈ between.components,
        ¬ (row.verifiedAccountId = account.id ∧ row.packageCommitment = packageCommitment)) ∧
      next = { between with
        components := between.components ++
          [componentRow between.nextId account.id packageId packageCommitment source now]
        nextId := between.nextId + 1 } := by
  obtain ⟨⟨accountId, between⟩, accountRan, rest⟩ := bind_eq_ok.mp ran
  obtain ⟨account, step, rfl⟩ := accountRowId_step accountRan
  refine ⟨between, account, step, ?_⟩
  dsimp only at rest
  split at rest
  · cases rest
  · rename_i absent
    have none_found : between.findComponent account.id packageCommitment = none := by
      simpa using absent
    refine ⟨find?_key_eq_none.mp none_found, ?_⟩
    unfold Database.insertComponentRow at rest
    split at rest
    · exact (Except.ok.inj rest).symm
    · cases rest

theorem insertNote_eq_ok {db next : Database} {networkId : String} {script : Word}
    {packageId : RowId} {packageCommitment : Word} {source : String} {now : Time}
    (ran : insertNote db networkId script packageId packageCommitment source now = .ok next) :
    (∀ row ∈ db.notes, ¬ (row.networkId = networkId ∧ row.script = script)) ∧
      next = { db with
        notes := db.notes ++
          [noteRow db.nextId networkId script packageId packageCommitment source now]
        nextId := db.nextId + 1 } := by
  unfold insertNote at ran
  split at ran
  · cases ran
  · rename_i absent
    have none_found : db.findNote networkId script = none := by simpa using absent
    refine ⟨find?_key_eq_none.mp none_found, ?_⟩
    simp only [Database.insertNoteRow, none_found, Option.isSome_none, Bool.false_eq_true,
      if_false] at ran
    split at ran
    · exact (Except.ok.inj ran).symm
    · cases ran

theorem PackageStep.keyed {db next : Database} {commitment : Word} {package : PackageRow}
    (step : PackageStep db next commitment package) (keyed : db.Keyed) : next.Keyed := by
  have kept : ∀ row ∈ db.packages, row ∈ next.packages :=
    fun row member => (step.rows.mem_iff row).mpr (.inl member)
  have ids : (next.packages.map (·.id)).Nodup := by
    rcases step.rows with ⟨same, _⟩ | ⟨appended, differs⟩
    · exact same ▸ keyed.packageIds
    · rw [appended]
      refine nodup_append_row _ keyed.packageIds fun other member => ?_
      rcases step.fresh with old | ⟨new, _⟩
      · exact absurd rfl (differs package old)
      · exact new ▸ Nat.ne_of_lt (keyed.packageFresh other member)
  refine
    { packageIds := ids
      packageCommitments := step.rows.nodup keyed.packageCommitments
      accountIds := step.accounts ▸ keyed.accountIds
      accountKeys := step.accounts ▸ keyed.accountKeys
      componentKeys := step.components ▸ keyed.componentKeys
      noteKeys := step.notes ▸ keyed.noteKeys
      componentPackage := ?_
      componentAccount := ?_
      notePackage := ?_
      packageFresh := ?_
      accountFresh := ?_ }
  · rw [step.components]
    intro row member
    obtain ⟨held, inside, same⟩ := keyed.componentPackage row member
    exact ⟨held, kept held inside, same⟩
  · rw [step.components, step.accounts]
    exact keyed.componentAccount
  · rw [step.notes]
    intro row member
    obtain ⟨held, inside, same⟩ := keyed.notePackage row member
    exact ⟨held, kept held inside, same⟩
  · intro row member
    have old := keyed.packageFresh
    rcases (step.rows.mem_iff row).mp member with here | rfl
    · exact (old row here).trans_le step.grows
    · rcases step.fresh with here | ⟨new, bigger, _⟩
      · exact (old row here).trans_le step.grows
      · exact new ▸ bigger
  · rw [step.accounts]
    exact fun row member => (keyed.accountFresh row member).trans_le step.grows

theorem AccountStep.keyed {db next : Database} {networkId : String} {code : Word}
    {account : AccountRow} (step : AccountStep db next networkId code account) (keyed : db.Keyed) :
    next.Keyed := by
  have ids : (next.accounts.map (·.id)).Nodup := by
    rcases step.rows with ⟨same, _⟩ | ⟨appended, differs⟩
    · exact same ▸ keyed.accountIds
    · rw [appended]
      refine nodup_append_row _ keyed.accountIds fun other member => ?_
      rcases step.fresh with old | ⟨new, _⟩
      · exact absurd rfl (differs account old)
      · exact new ▸ Nat.ne_of_lt (keyed.accountFresh other member)
  refine
    { packageIds := step.packages ▸ keyed.packageIds
      packageCommitments := step.packages ▸ keyed.packageCommitments
      accountIds := ids
      accountKeys := step.rows.nodup keyed.accountKeys
      componentKeys := step.components ▸ keyed.componentKeys
      noteKeys := step.notes ▸ keyed.noteKeys
      componentPackage := by rw [step.components, step.packages]; exact keyed.componentPackage
      componentAccount := ?_
      notePackage := by rw [step.notes, step.packages]; exact keyed.notePackage
      packageFresh := ?_
      accountFresh := ?_ }
  · rw [step.components]
    intro row member
    obtain ⟨held, inside, same⟩ := keyed.componentAccount row member
    exact ⟨held, (step.rows.mem_iff held).mpr (.inl inside), same⟩
  · rw [step.packages]
    exact fun row member => (keyed.packageFresh row member).trans_le step.grows
  · intro row member
    have old := keyed.accountFresh
    rcases (step.rows.mem_iff row).mp member with here | rfl
    · exact (old row here).trans_le step.grows
    · rcases step.fresh with here | ⟨new, bigger⟩
      · exact (old row here).trans_le step.grows
      · exact new ▸ bigger

inductive Recorded (db : Database) (input : VerifyInput) (build : VerifyResponse) (now : Time)
    (package : PackageRow) (next : Database) : Prop
  | component (accountId : String) (packaged accounted : Database) (account : AccountRow)
      (kind : input.resource = .account accountId)
      (packageStep : PackageStep db packaged build.commitment package)
      (accountStep : AccountStep packaged accounted input.networkId build.root account)
      (absent : ∀ row ∈ accounted.components,
        ¬ (row.verifiedAccountId = account.id ∧ row.packageCommitment = build.commitment))
      (rows : next = { accounted with
        components := accounted.components ++
          [componentRow accounted.nextId account.id package.id build.commitment input.source now]
        nextId := accounted.nextId + 1 })
  | note (noteId : String) (packaged : Database)
      (kind : input.resource = .note noteId)
      (packageStep : PackageStep db packaged build.commitment package)
      (absent : ∀ row ∈ packaged.notes, ¬ (row.networkId = input.networkId ∧ row.script = build.root))
      (rows : next = { packaged with
        notes := packaged.notes ++
          [noteRow packaged.nextId input.networkId build.root package.id build.commitment
            input.source now]
        nextId := packaged.nextId + 1 })

theorem record_eq_ok {db next : Database} {input : VerifyInput} {build : VerifyResponse} {now : Time}
    {packageId : RowId}
    (ran : record db input build (db.getPackage build.commitment) now = .ok (packageId, next)) :
    ∃ package, package.id = packageId ∧ Recorded db input build now package next := by
  obtain ⟨⟨packageRowId, packaged⟩, packageRan, rest⟩ := bind_eq_ok.mp ran
  obtain ⟨recorded, recordRan, last⟩ := bind_eq_ok.mp rest
  obtain ⟨package, packageStep, rfl⟩ := packageRowId_step packageRan
  simp only [Except.ok.injEq, Prod.mk.injEq] at last
  obtain ⟨rfl, rfl⟩ := last
  refine ⟨package, rfl, ?_⟩
  cases kind : input.resource with
  | account accountId =>
    simp only [insertRecord, kind] at recordRan
    obtain ⟨accounted, account, accountStep, absent, rows⟩ := insertAccountComponent_eq_ok recordRan
    exact .component accountId packaged accounted account kind packageStep accountStep absent rows
  | note noteId =>
    simp only [insertRecord, kind] at recordRan
    obtain ⟨absent, rows⟩ := insertNote_eq_ok recordRan
    exact .note noteId packaged kind packageStep absent rows

theorem Database.Keyed.addComponent {db : Database} {account : AccountRow} {package : PackageRow}
    {source : String} {now : Time} (keyed : db.Keyed) (hasAccount : account ∈ db.accounts)
    (hasPackage : package ∈ db.packages)
    (absent : ∀ row ∈ db.components,
      ¬ (row.verifiedAccountId = account.id ∧ row.packageCommitment = package.commitment)) :
    Database.Keyed { db with
      components := db.components ++
        [componentRow db.nextId account.id package.id package.commitment source now]
      nextId := db.nextId + 1 } where
  packageIds := keyed.packageIds
  packageCommitments := keyed.packageCommitments
  accountIds := keyed.accountIds
  accountKeys := keyed.accountKeys
  componentKeys := by
    refine nodup_append_row _ keyed.componentKeys fun other member same => ?_
    simp only [componentRow, Prod.mk.injEq] at same
    exact absent other member same
  noteKeys := keyed.noteKeys
  componentPackage := by
    intro row member
    rcases List.mem_append.mp member with old | new
    · exact keyed.componentPackage row old
    · obtain rfl := List.mem_singleton.mp new
      exact ⟨package, hasPackage, rfl, rfl⟩
  componentAccount := by
    intro row member
    rcases List.mem_append.mp member with old | new
    · exact keyed.componentAccount row old
    · obtain rfl := List.mem_singleton.mp new
      exact ⟨account, hasAccount, rfl⟩
  notePackage := keyed.notePackage
  packageFresh := fun row member => (keyed.packageFresh row member).trans (Nat.lt_succ_self _)
  accountFresh := fun row member => (keyed.accountFresh row member).trans (Nat.lt_succ_self _)

theorem Database.Keyed.addNote {db : Database} {networkId : String} {script : Word}
    {package : PackageRow} {source : String} {now : Time} (keyed : db.Keyed)
    (hasPackage : package ∈ db.packages)
    (absent : ∀ row ∈ db.notes, ¬ (row.networkId = networkId ∧ row.script = script)) :
    Database.Keyed { db with
      notes := db.notes ++
        [noteRow db.nextId networkId script package.id package.commitment source now]
      nextId := db.nextId + 1 } where
  packageIds := keyed.packageIds
  packageCommitments := keyed.packageCommitments
  accountIds := keyed.accountIds
  accountKeys := keyed.accountKeys
  componentKeys := keyed.componentKeys
  noteKeys := by
    refine nodup_append_row _ keyed.noteKeys fun other member same => ?_
    simp only [noteRow, Prod.mk.injEq] at same
    exact absent other member same
  componentPackage := keyed.componentPackage
  componentAccount := keyed.componentAccount
  notePackage := by
    intro row member
    rcases List.mem_append.mp member with old | new
    · exact keyed.notePackage row old
    · obtain rfl := List.mem_singleton.mp new
      exact ⟨package, hasPackage, rfl, rfl⟩
  packageFresh := fun row member => (keyed.packageFresh row member).trans (Nat.lt_succ_self _)
  accountFresh := fun row member => (keyed.accountFresh row member).trans (Nat.lt_succ_self _)

theorem Recorded.keyed {db next : Database} {input : VerifyInput} {build : VerifyResponse}
    {now : Time} {package : PackageRow} (recorded : Recorded db input build now package next)
    (keyed : db.Keyed) : next.Keyed := by
  cases recorded with
  | component accountId packaged accounted account kind packageStep accountStep absent rows =>
    have hasPackage : package ∈ accounted.packages := accountStep.packages ▸ packageStep.rows.mem
    subst rows
    rw [← packageStep.commitment_eq] at absent ⊢
    exact (accountStep.keyed (packageStep.keyed keyed)).addComponent accountStep.rows.mem hasPackage
      absent
  | note noteId packaged kind packageStep absent rows =>
    subst rows
    rw [← packageStep.commitment_eq]
    exact (packageStep.keyed keyed).addNote packageStep.rows.mem absent

theorem Recorded.accounts_origin {db next : Database} {input : VerifyInput} {build : VerifyResponse}
    {now : Time} {package : PackageRow} (recorded : Recorded db input build now package next)
    {row : AccountRow} (member : row ∈ next.accounts) :
    row ∈ db.accounts ∨ (input.resource.kind = .account ∧ row.code = build.root) := by
  cases recorded with
  | component _ packaged accounted account kind packageStep accountStep _ rows =>
    subst rows
    rcases (accountStep.rows.mem_iff row).mp member with old | rfl
    · exact .inl (packageStep.accounts ▸ old)
    · exact .inr ⟨by rw [kind, Resource.kind], accountStep.code_eq⟩
  | note _ packaged _ packageStep _ rows =>
    subst rows
    exact .inl (packageStep.accounts ▸ member)

theorem Recorded.notes_origin {db next : Database} {input : VerifyInput} {build : VerifyResponse}
    {now : Time} {package : PackageRow} (recorded : Recorded db input build now package next)
    {row : NoteRow} (member : row ∈ next.notes) :
    row ∈ db.notes ∨ (input.resource.kind = .note ∧ row.script = build.root) := by
  cases recorded with
  | component _ packaged accounted account _ packageStep accountStep _ rows =>
    subst rows
    exact .inl (packageStep.notes ▸ accountStep.notes ▸ member)
  | note _ packaged kind packageStep _ rows =>
    subst rows
    rcases List.mem_append.mp member with old | new
    · exact .inl (packageStep.notes ▸ old)
    · obtain rfl := List.mem_singleton.mp new
      exact .inr ⟨by rw [kind, Resource.kind], rfl⟩

def releaseStore (state : State) (build : VerifyResponse) : MaspStore :=
  if (state.db.getPackage build.commitment).isNone then
    state.store.put build.commitment build.masp .release
  else state.store

theorem verifyResource_cases (faults : Faults) (state : State) (input : VerifyInput)
    (answer : Except Error VerifyResponse) (now : Time) :
    (verifyResource faults state input answer now).2 = state ∨
      ∃ build, answer = .ok build ∧ build.verified = true ∧
        ((verifyResource faults state input answer now).2 =
            { state with store := releaseStore state build } ∨
          ∃ package db, Recorded state.db input build now package db ∧
            ((verifyResource faults state input answer now).2 =
                { db := db, store := releaseStore state build } ∨
              (verifyResource faults state input answer now).2 =
                (storeDebugBuild faults { db := db, store := releaseStore state build } package.id
                  build.commitment build.debug now).2)) := by
  cases answer with
  | error error => exact .inl rfl
  | ok build =>
    refine Or.imp_right (fun outcome => ⟨build, rfl, outcome⟩) ?_
    unfold verifyResource releaseStore
    dsimp only
    generalize (if (state.db.getPackage build.commitment).isNone then
      state.store.put build.commitment build.masp .release else state.store) = store
    by_cases verified : build.verified = false
    · simp [verified]
    · have holds : build.verified = true := by simpa using verified
      rw [if_neg verified]
      cases ran : record state.db input build (state.db.getPackage build.commitment) now with
      | error error =>
        dsimp only
        split_ifs
        · exact .inl rfl
        · exact .inl rfl
        · exact .inr ⟨holds, .inl rfl⟩
      | ok result =>
        obtain ⟨package, same, recorded⟩ := record_eq_ok ran
        dsimp only
        split_ifs
        · exact .inl rfl
        · exact .inl rfl
        · exact .inr ⟨holds, .inl rfl⟩
        · exact .inr ⟨holds, .inr ⟨package, result.2, recorded, .inr (by rw [same])⟩⟩
        · exact .inr ⟨holds, .inr ⟨package, result.2, recorded, .inl rfl⟩⟩

theorem storeDebugBuild_records (faults : Faults) (state : State) (packageId : RowId)
    (commitment : Word) (debug : Option DebugBuild) (now : Time) :
    (storeDebugBuild faults state packageId commitment debug now).2.db.accounts = state.db.accounts ∧
      (storeDebugBuild faults state packageId commitment debug now).2.db.components =
        state.db.components ∧
      (storeDebugBuild faults state packageId commitment debug now).2.db.notes = state.db.notes := by
  unfold storeDebugBuild
  split
  · simp
  · simp
  · dsimp only
    split_ifs <;> simp [Database.updatePackage]

theorem verifyResource_records (faults : Faults) (state : State) (input : VerifyInput)
    (answer : Except Error VerifyResponse) (now : Time) :
    ((verifyResource faults state input answer now).2.db.accounts = state.db.accounts ∧
      (verifyResource faults state input answer now).2.db.notes = state.db.notes) ∨
    ∃ build package db, answer = .ok build ∧ build.verified = true ∧
      Recorded state.db input build now package db ∧
      (verifyResource faults state input answer now).2.db.accounts = db.accounts ∧
      (verifyResource faults state input answer now).2.db.notes = db.notes := by
  rcases verifyResource_cases faults state input answer now with
    same | ⟨build, answered, verified, same | ⟨package, db, recorded, same | same⟩⟩
  · exact .inl (by simp [same])
  · exact .inl (by simp [same])
  · exact .inr ⟨build, package, db, answered, verified, recorded, by simp [same]⟩
  · have kept := storeDebugBuild_records faults
      { db := db, store := releaseStore state build } package.id build.commitment build.debug now
    exact .inr ⟨build, package, db, answered, verified, recorded, by simp [same, kept]⟩

theorem postDebugBuild_cases (parse : String → Option (List (String × Json))) (faults : Faults)
    (state : State) (commitment : String) (answer : Files → String → Except Error DebugBuild)
    (now : Time) :
    (postDebugBuild parse faults state commitment answer now).2 = state ∨
      ∃ dbPackage ∈ state.db.packages, ∃ entrypoint debug next,
        answer dbPackage.files entrypoint = .ok debug ∧ dbPackage.debugCommitment = none ∧
        (storeDebugBuild faults state dbPackage.id dbPackage.commitment (some debug) now).2 = next ∧
        ((postDebugBuild parse faults state commitment answer now).2 = next ∨
          dbPackage.entrypoint = none ∧
            (postDebugBuild parse faults state commitment answer now).2 = { next with
              db := next.db.updatePackage dbPackage.id (·.withEntrypoint entrypoint now) }) := by
  unfold postDebugBuild
  cases parseRoot commitment with
  | none => exact .inl rfl
  | some commitment =>
    dsimp only
    split
    · exact .inl rfl
    · cases found : state.db.getPackage commitment with
      | none => exact .inl rfl
      | some dbPackage =>
        obtain ⟨member, rfl⟩ := getPackage_eq_some found
        dsimp only
        cases recorded : dbPackage.debugCommitment with
        | some debugCommitment => exact .inl rfl
        | none =>
          dsimp only
          split
          · exact .inl rfl
          · rename_i entrypoint _
            cases answered : answer dbPackage.files entrypoint with
            | error error => exact .inl rfl
            | ok debug =>
              cases debug with
              | failed error => exact .inl rfl
              | built masp debugCommitment cargoMidenVersion =>
                dsimp only
                refine .inr ⟨dbPackage, member, entrypoint, _, _, answered, recorded, rfl, ?_⟩
                generalize storeDebugBuild faults state dbPackage.id dbPackage.commitment
                  (some (.built masp debugCommitment cargoMidenVersion)) now = outcome
                obtain ⟨outcome, next⟩ := outcome
                cases outcome with
                | error error => exact .inl rfl
                | ok _ =>
                  dsimp only
                  split_ifs with placed
                  · exact .inl rfl
                  · exact .inl rfl
                  · exact .inr ⟨by simpa using placed, rfl⟩

end SourceVerification.Registry
