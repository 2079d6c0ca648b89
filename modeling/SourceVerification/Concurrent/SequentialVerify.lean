import SourceVerification.Concurrent.Sequential

set_option autoImplicit false

namespace SourceVerification.Concurrent

open Registry Versions Tables

/-- The same rows and artifacts: an id that a transaction rolled back was given stays given. -/
def SameRows (state other : Registry.State) : Prop :=
  { state.db with nextId := other.db.nextId } = other.db ∧ state.store = other.store

theorem hasParent_inserting {Row : Type} {p : Pid} {table : Table Pid Row}
    (inserting : Versions.Inserting p table) (id : Row → RowId) (reference : RowId) :
    hasParent p table id reference = (view p table).any (id · = reference) := by
  rw [inserting.view, Bool.eq_iff_iff]
  constructor
  · intro present
    obtain ⟨version, member, found⟩ := List.any_eq_true.mp present
    have same := (of_decide_eq_true found).1
    exact List.any_eq_true.mpr ⟨version.row, List.mem_map_of_mem member, decide_eq_true same⟩
  · intro present
    obtain ⟨row, member, same⟩ := List.any_eq_true.mp present
    obtain ⟨version, inside, rfl⟩ := List.mem_map.mp member
    exact List.any_eq_true.mpr
      ⟨version, inside, decide_eq_true ⟨of_decide_eq_true same, inserting version inside⟩⟩

def Ended (work : Work) (before : World) (result : Except Error (RowId × Database)) (after : World)
    (pc : VerifyPc) : Prop :=
  match result with
  | .ok (packageId, db) => ∃ recordId, pc = recorded work packageId recordId ∧ after.committed.db = db
  | .error error => pc = .threw (some work.build) error ∧
      SameRows after.committed { before.committed with store := after.store }

def Finishes (p : Pid) (input : VerifyInput) (work : Work) (world : World) (pc : TxPc)
    (result : Except Error (RowId × Database)) : Prop :=
  ∃ final last, Solo p world (.verify input (.transaction work pc)) final (.verify input last) ∧
    final.Quiet ∧ final.store = world.store ∧ final.clock = world.clock ∧
    Ended work world result final last

section Transaction

variable {p : Pid} {input : VerifyInput} {work : Work} {world : World}

theorem next_go {world : World} {pc after : TxPc} {effect : Effect}
    (taken : pc.next p world input work = some (.go effect after)) :
    (VerifyPc.transaction work pc).next p world input = some (effect, .transaction work after) := by
  simp [VerifyPc.next, taken]

theorem next_abort {pc : TxPc} {error : Error}
    (taken : pc.next p world input work = some (.abort error)) :
    (VerifyPc.transaction work pc).next p world input =
      some (.rollback, .threw (some work.build) error) := by
  simp [VerifyPc.next, taken]

theorem finishes_abort {pc : TxPc} {error : Error} (inserting : world.Inserting p)
    (taken : pc.next p world input work = some (.abort error)) :
    Finishes p input work world pc (.error error) := by
  refine ⟨Effect.rollback.apply p world, _, .verify (next_abort taken) .refl,
    inserting.alone.quiet_rollback, rfl, rfl, rfl, ?_⟩
  rw [inserting.alone.committed_rollback]
  exact ⟨rfl, rfl⟩

theorem finishes_commit {packageId recordId : RowId} {db : Database} (inserting : world.Inserting p)
    (sees : world.seenBy p = db) :
    Finishes p input work world (.committing packageId recordId) (.ok (packageId, db)) := by
  refine ⟨Effect.commit.apply p world, _, .verify rfl .refl, inserting.alone.quiet_commit, rfl, rfl,
    recordId, rfl, ?_⟩
  rw [inserting.alone.committed_commit, sees]

theorem finishes_rollingBack {error : Error} (inserting : world.Inserting p) :
    Finishes p input work world (.rollingBack error) (.error error) :=
  finishes_abort inserting rfl

theorem Finishes.go {pc after : TxPc} {effect : Effect} {result : Except Error (RowId × Database)}
    (taken : pc.next p world input work = some (.go effect after))
    (kept : SameRows (effect.apply p world).committed world.committed)
    (clock : (effect.apply p world).clock = world.clock)
    (rest : Finishes p input work (effect.apply p world) after result) :
    Finishes p input work world pc result := by
  obtain ⟨final, last, solo, quiet, store, time, ends⟩ := rest
  refine ⟨final, last, .verify (next_go taken) solo, quiet, store.trans kept.2, time.trans clock, ?_⟩
  cases result with
  | ok recorded => exact ends
  | error error =>
    obtain ⟨threw, same⟩ := ends
    refine ⟨threw, ?_, rfl⟩
    have rows := same.1
    rw [← kept.1]
    simp only [World.committed, Database.mk.injEq] at rows ⊢
    exact ⟨rows.1, rows.2.1, rows.2.2.1, rows.2.2.2.1, trivial⟩

theorem Finishes.idle {pc after : TxPc} {result : Except Error (RowId × Database)}
    (taken : pc.next p world input work = some (.go .idle after))
    (rest : Finishes p input work world after result) : Finishes p input work world pc result :=
  .go taken ⟨rfl, rfl⟩ rfl rest

theorem World.Inserting.insertComponent (inserting : world.Inserting p) (row : ComponentRow) :
    ((Effect.insertComponent row).apply p world).Inserting p :=
  ⟨inserting.packages, inserting.accounts, inserting.components.insert row, inserting.notes⟩

theorem World.Inserting.insertNote (inserting : world.Inserting p) (row : NoteRow) :
    ((Effect.insertNote row).apply p world).Inserting p :=
  ⟨inserting.packages, inserting.accounts, inserting.components, inserting.notes.insert row⟩

theorem World.Inserting.insertAccount (inserting : world.Inserting p) (row : AccountRow) :
    ((Effect.insertAccount row).apply p world).Inserting p :=
  ⟨inserting.packages, inserting.accounts.insert row, inserting.components, inserting.notes⟩

theorem World.Inserting.insertPackage (inserting : world.Inserting p) (row : PackageRow) :
    ((Effect.insertPackage row).apply p world).Inserting p :=
  ⟨inserting.packages.insert row, inserting.accounts, inserting.components, inserting.notes⟩

variable {db : Database}

theorem finishes_insertingComponent {packageId accountId : RowId} (inserting : world.Inserting p)
    (sees : world.seenBy p = db) :
    Finishes p input work world (.insertingComponent packageId accountId)
      ((db.insertComponentRow accountId packageId work.build.commitment input.source
        work.began).map (packageId, ·)) := by
  subst sees
  have free : (held p world.accounts (·.id = accountId) || held p world.packages (·.id = packageId)) =
      false := by
    rw [inserting.alone.accounts.held, inserting.alone.packages.held]
    rfl
  have parents : (hasParent p world.accounts (·.id) accountId &&
      hasParent p world.packages (·.id) packageId) =
      ((world.seenBy p).hasAccount accountId && (world.seenBy p).hasPackage packageId) := by
    rw [hasParent_inserting inserting.accounts, hasParent_inserting inserting.packages]
    rfl
  by_cases present :
      ((world.seenBy p).hasAccount accountId && (world.seenBy p).hasPackage packageId) = true
  · rw [Database.insertComponentRow, if_pos present]
    refine .go (by simp only [TxPc.next, free, parents, present]; rfl) ?_ rfl ?_
    · simp [SameRows, World.committed, Effect.apply, committed_insert]
    · exact finishes_commit (inserting.insertComponent _)
        (by simp [World.seenBy, Effect.apply, view_insert])
  · rw [Database.insertComponentRow, if_neg present]
    refine finishes_abort inserting ?_
    simp only [TxPc.next, free, parents]
    rw [if_neg (by simp), if_neg present]

theorem finishes_findingComponent {packageId accountId : RowId} (inserting : world.Inserting p)
    (sees : world.seenBy p = db) :
    Finishes p input work world (.findingComponent packageId accountId)
      ((if (db.findComponent accountId work.build.commitment).isSome then
          .error componentAlreadyVerified
        else
          db.insertComponentRow accountId packageId work.build.commitment input.source
            work.began).map (packageId, ·)) := by
  subst sees
  cases found : (world.seenBy p).findComponent accountId work.build.commitment with
  | some row =>
    refine .idle ?_ (finishes_rollingBack inserting)
    simp only [Database.findComponent, World.seenBy] at found
    simp only [TxPc.next, found]
  | none =>
    refine .idle ?_ (finishes_insertingComponent inserting rfl)
    simp only [Database.findComponent, World.seenBy] at found
    simp only [TxPc.next, found]

theorem finishes_insertingAccount {packageId : RowId} (inserting : world.Inserting p)
    (absent : (world.seenBy p).findAccount input.networkId work.build.root = none)
    (sees : world.seenBy p = db) :
    Finishes p input work world (.insertingAccount packageId)
      ((do
        let (accountId, db) ← db.insertAccountRow input.networkId work.build.root work.began
        if (db.findComponent accountId work.build.commitment).isSome then
          .error componentAlreadyVerified
        else
          db.insertComponentRow accountId packageId work.build.commitment input.source
            work.began).map (packageId, ·)) := by
  subst sees
  rw [Database.insertAccountRow, absent]
  have unseen : ((view p world.accounts).any fun row =>
      row.networkId = input.networkId ∧ row.code = work.build.root) = false := by
    simpa [Database.findAccount, World.seenBy] using absent
  have free := inserting.alone.accounts.held fun row =>
    row.networkId = input.networkId ∧ row.code = work.build.root
  refine .go (by simp only [TxPc.next, free, unseen]; rfl) ?_ rfl ?_
  · simp [SameRows, World.committed, Effect.apply, committed_insert]
  · exact finishes_findingComponent (inserting.insertAccount _)
      (by simp [World.seenBy, Effect.apply, view_insert])

theorem finishes_findingAccount {packageId : RowId} (inserting : world.Inserting p)
    (sees : world.seenBy p = db) :
    Finishes p input work world (.findingAccount packageId)
      ((insertAccountComponent db input.networkId work.build.root packageId work.build.commitment
        input.source work.began).map (packageId, ·)) := by
  subst sees
  rw [insertAccountComponent, accountRowId]
  cases found : (world.seenBy p).findAccount input.networkId work.build.root with
  | some row =>
    refine .idle ?_ (finishes_findingComponent inserting rfl)
    simp only [Database.findAccount, World.seenBy] at found
    simp only [TxPc.next, found]
  | none =>
    refine .idle ?_ (finishes_insertingAccount inserting found rfl)
    simp only [Database.findAccount, World.seenBy] at found
    simp only [TxPc.next, found]

theorem finishes_insertingNote {packageId : RowId} (inserting : world.Inserting p)
    (sees : world.seenBy p = db) :
    Finishes p input work world (.insertingNote packageId)
      ((db.insertNoteRow input.networkId work.build.root packageId work.build.commitment input.source
        work.began).map (packageId, ·)) := by
  subst sees
  have free := inserting.alone.notes.held fun row =>
    row.networkId = input.networkId ∧ row.script = work.build.root
  have packageFree := inserting.alone.packages.held (·.id = packageId)
  have parent : hasParent p world.packages (·.id) packageId =
      (world.seenBy p).hasPackage packageId := hasParent_inserting inserting.packages ..
  have sees : ((view p world.notes).any fun row =>
      row.networkId = input.networkId ∧ row.script = work.build.root) =
      ((world.seenBy p).findNote input.networkId work.build.root).isSome :=
    List.isSome_find?.symm
  rw [Database.insertNoteRow]
  by_cases found : ((world.seenBy p).findNote input.networkId work.build.root).isSome = true
  · rw [if_pos found]
    refine finishes_abort inserting ?_
    simp only [TxPc.next, free, sees, found]
    rfl
  rw [if_neg found]
  by_cases present : (world.seenBy p).hasPackage packageId = true
  · rw [if_pos present]
    have inserts : TxPc.next p world input work (.insertingNote packageId) =
        some (.go (.insertNote (noteRow world.nextId input.networkId work.build.root packageId
            work.build.commitment input.source work.began))
          (.committing packageId world.nextId)) := by
      simp only [TxPc.next, free, sees, packageFree, parent, present]
      rw [if_neg (by simp), if_neg found]
      rfl
    refine .go inserts ?_ rfl (finishes_commit (inserting.insertNote _) ?_)
    · simp [SameRows, World.committed, Effect.apply, committed_insert]
    · simp [World.seenBy, Effect.apply, view_insert]
  · rw [if_neg present]
    refine finishes_abort inserting ?_
    simp only [TxPc.next, free, sees, packageFree, parent]
    rw [if_neg (by simp), if_neg found, if_neg (by simp), if_neg present]

theorem finishes_findingNote {packageId : RowId} (inserting : world.Inserting p)
    (sees : world.seenBy p = db) :
    Finishes p input work world (.findingNote packageId)
      ((insertNote db input.networkId work.build.root packageId work.build.commitment input.source
        work.began).map (packageId, ·)) := by
  subst sees
  rw [insertNote]
  cases found : (world.seenBy p).findNote input.networkId work.build.root with
  | some row =>
    refine .idle ?_ (finishes_rollingBack inserting)
    simp only [Database.findNote, World.seenBy] at found
    simp only [TxPc.next, found]
  | none =>
    refine .idle ?_ (finishes_insertingNote inserting rfl)
    simp only [Database.findNote, World.seenBy] at found
    simp only [TxPc.next, found]

theorem finishes_recording {packageId : RowId} (inserting : world.Inserting p)
    (sees : world.seenBy p = db) :
    Finishes p input work world (recording input packageId)
      ((insertRecord db input work.build packageId work.began).map (packageId, ·)) := by
  unfold recording insertRecord
  cases input.resource with
  | account accountId => exact finishes_findingAccount inserting sees
  | note noteId => exact finishes_findingNote inserting sees

theorem finishes_insertingPackage (inserting : world.Inserting p) (sees : world.seenBy p = db) :
    Finishes p input work world .insertingPackage
      (do
        let (packageId, db) ← insertPackage db input.project work.build work.began
        (insertRecord db input work.build packageId work.began).map (packageId, ·)) := by
  subst sees
  have free := inserting.alone.packages.held (·.commitment = work.build.commitment)
  have sees : (view p world.packages).any (·.commitment = work.build.commitment) =
      ((world.seenBy p).getPackage work.build.commitment).isSome :=
    List.isSome_find?.symm
  rw [insertPackage, Database.insertPackageRow]
  cases found : (world.seenBy p).getPackage work.build.commitment with
  | some row =>
    have conflicts : TxPc.next p world input work .insertingPackage =
        some (.go .idle .findingPackage) := by
      simp only [TxPc.next, free, sees, found]
      rfl
    refine .idle conflicts ?_
    simp only [Option.isSome_some, if_true, found]
    refine .idle ?_ (finishes_recording inserting rfl)
    simp only [Database.getPackage, World.seenBy] at found
    simp only [TxPc.next, found]
  | none =>
    have inserts : TxPc.next p world input work .insertingPackage =
        some (.go (.insertPackage (packageRow world.nextId input.project work.build work.began))
          (recording input world.nextId)) := by
      simp only [TxPc.next, free, sees, found]
      rfl
    refine .go inserts ?_ rfl (finishes_recording (inserting.insertPackage _) ?_)
    · simp [SameRows, World.committed, Effect.apply, committed_insert]
    · simp [World.seenBy, Effect.apply, view_insert]

theorem finishes_record (inserting : world.Inserting p) (sees : world.seenBy p = db) :
    Finishes p input work world
      (match work.stored with
        | some row => recording input row.id
        | none => .insertingPackage)
      (record db input work.build work.stored work.began) := by
  unfold record packageRowId
  cases work.stored with
  | some row => exact finishes_recording inserting sees
  | none => exact finishes_insertingPackage inserting sees

end Transaction

section Verify

variable {p : Pid} {input : VerifyInput} {world : World}

theorem World.Quiet.updateDebug (quiet : world.Quiet) (packageId : RowId) (debugCommitment : Word)
    (builtWith : Option String) :
    ((Effect.updateDebug packageId debugCommitment builtWith).apply p world).Quiet :=
  ⟨quiet.packages.update _, quiet.accounts, quiet.components, quiet.notes⟩

theorem committed_updateDebug (packageId : RowId) (debugCommitment : Word)
    (builtWith : Option String) :
    ((Effect.updateDebug packageId debugCommitment builtWith).apply p world).committed =
      { world.committed with
        db := world.committed.db.updatePackage packageId
          (·.withDebug debugCommitment builtWith world.clock) } := by
  simp only [World.committed, Effect.apply, committed_update, Database.updatePackage]
  rfl

theorem World.Quiet.solo_recorded (quiet : world.Quiet) (p : Pid) (input : VerifyInput) (work : Work)
    (packageId recordId : RowId) :
    ∃ final, Solo p world (.verify input (recorded work packageId recordId)) final
        (.verify input (.returned work.build recordId)) ∧ final.Quiet ∧
      final.committed =
        if (work.stored.bind (·.debugCommitment)).isNone then
          (storeDebugBuild (fun _ => false) world.committed packageId work.build.commitment
            work.build.debug world.clock).2
        else world.committed := by
  unfold recorded
  cases missing : (work.stored.bind (·.debugCommitment)).isNone with
  | false => exact ⟨world, .refl, quiet, rfl⟩
  | true =>
    cases built : work.build.debug with
    | none => exact ⟨world, .refl, quiet, rfl⟩
    | some debug =>
      cases debug with
      | failed error => exact ⟨world, .refl, quiet, rfl⟩
      | built masp debugCommitment cargoMidenVersion =>
        let stored := (Effect.put work.build.commitment masp .debug).apply p world
        have still : stored.Quiet := ⟨quiet.packages, quiet.accounts, quiet.components, quiet.notes⟩
        have free : held p stored.packages (·.id = packageId) = false :=
          still.packages.inserting.alone.held _
        have updates : (VerifyPc.updatingDebug work.build packageId recordId debugCommitment
            cargoMidenVersion).next p stored input =
            some (.updateDebug packageId debugCommitment cargoMidenVersion,
              .returned work.build recordId) := by
          simp [VerifyPc.next, free]
        exact ⟨_, .verify rfl (.verify updates .refl), still.updateDebug ..,
          committed_updateDebug packageId debugCommitment cargoMidenVersion⟩

def VerifyPc.result : VerifyPc → Option (Except Error Bool)
  | .unverified => some (.ok false)
  | .returned _ _ => some (.ok true)
  | .threw _ error => some (.error error)
  | _ => none

def Comes (p : Pid) (input : VerifyInput) (world : World) (pc : VerifyPc)
    (result : Except Error Bool × Registry.State) : Prop :=
  ∃ final last, Solo p world (.verify input pc) final (.verify input last) ∧ final.Quiet ∧
    last.result = some result.1 ∧
    SameRows final.committed result.2

theorem Comes.step {pc after : VerifyPc} {effect : Effect} {result : Except Error Bool × Registry.State}
    (taken : pc.next p world input = some (effect, after))
    (rest : Comes p input (effect.apply p world) after result) : Comes p input world pc result := by
  obtain ⟨final, last, solo, ends⟩ := rest
  exact ⟨final, last, .verify taken solo, ends⟩

def recordResource (state : Registry.State) (input : VerifyInput) (build : VerifyResponse)
    (stored : Option PackageRow) (now : Time) : Except Error Bool × Registry.State :=
  match record state.db input build stored now with
  | .error error => (.error error, state)
  | .ok (packageId, db) =>
    let recorded : Registry.State := { state with db := db }
    (.ok true,
      if (stored.bind (·.debugCommitment)).isNone then
        (storeDebugBuild (fun _ => false) recorded packageId build.commitment build.debug now).2
      else recorded)

theorem verifyResource_verified {state : Registry.State} {build : VerifyResponse} {now : Time}
    (verified : build.verified = true) :
    verifyResource (fun _ => false) state input (.ok build) now =
      match state.db.getPackage build.commitment with
      | some row => recordResource state input build (some row) now
      | none =>
        recordResource { state with store := state.store.put build.commitment build.masp .release }
          input build none now := by
  unfold verifyResource recordResource
  simp only [verified, Bool.true_eq_false, Bool.false_eq_true, if_false]
  cases state.db.getPackage build.commitment with
  | some row =>
    simp only [Option.isNone_some, Bool.false_and, Bool.false_eq_true, if_false]
    cases record state.db input build (some row) now with
    | error error => rfl
    | ok recorded => exact (apply_ite (Prod.mk _) ..).symm
  | none =>
    simp only [Option.isNone_none, Bool.and_false, Bool.false_eq_true, if_false, if_true]
    cases record state.db input build none now with
    | error error => rfl
    | ok recorded => rfl

theorem comes_beginning {build : VerifyResponse} {stored : Option PackageRow} (quiet : world.Quiet) :
    Comes p input world (.beginning build stored)
      (recordResource world.committed input build stored world.clock) := by
  let work : Work := { build := build, stored := stored, began := world.clock }
  refine .step (show _ = some (Effect.idle, .transaction work _) from rfl) ?_
  obtain ⟨ended, last, solo, still, store, clock, ends⟩ : Finishes p input work world _ _ :=
    finishes_record (quiet.inserting p) (quiet.seenBy p)
  unfold recordResource
  cases came : record world.committed.db input build stored world.clock with
  | error error =>
    rw [came] at ends
    obtain ⟨rfl, same⟩ := ends
    exact ⟨ended, _, solo, still, rfl, same.1, store⟩
  | ok recorded =>
    obtain ⟨packageId, db⟩ := recorded
    rw [came] at ends
    obtain ⟨recordId, rfl, rows⟩ := ends
    have settled : ended.committed = { world.committed with db := db } := by
      rw [← rows]
      exact congrArg (Registry.State.mk ended.committed.db) store
    obtain ⟨final, debugged, quietly, same⟩ := still.solo_recorded p input work packageId recordId
    refine ⟨final, _, solo.trans debugged, quietly, rfl, ?_⟩
    rw [same, settled, clock]
    exact ⟨rfl, rfl⟩

theorem comes_verifyResource {answer : Except Error VerifyResponse} (quiet : world.Quiet) :
    Comes p input world (.answered answer)
      (verifyResource (fun _ => false) world.committed input answer world.clock) := by
  cases answer with
  | error error => exact ⟨world, _, .refl, quiet, rfl, rfl, rfl⟩
  | ok build =>
    cases verified : build.verified with
    | false =>
      rw [VerifyPc.answered, verifyResource, if_neg (by simp [verified]), if_pos verified]
      exact ⟨world, _, .refl, quiet, rfl, rfl, rfl⟩
    | true =>
      rw [VerifyPc.answered, if_pos verified, verifyResource_verified verified]
      have reads : world.committed.db.getPackage build.commitment =
          (Versions.committed world.packages).find? (·.commitment = build.commitment) := rfl
      rw [reads]
      cases found : (Versions.committed world.packages).find? (·.commitment = build.commitment) with
      | some row =>
        have hits : (VerifyPc.reading build).next p world input =
            some (.idle, .beginning build (some row)) := by
          simp only [VerifyPc.next, found]
        exact .step hits (comes_beginning quiet)
      | none =>
        let put := (Effect.put build.commitment build.masp .release).apply p world
        have still : put.Quiet := ⟨quiet.packages, quiet.accounts, quiet.components, quiet.notes⟩
        have misses : (VerifyPc.reading build).next p world input = some (.idle, .storing build) := by
          simp only [VerifyPc.next, found]
        exact .step misses (.step rfl (comes_beginning still))

end Verify

theorem answer_verifyResource {state : State} {p : Pid} {input : VerifyInput}
    (answer : Except Error VerifyResponse) (quiet : state.world.Quiet)
    (called : state.calls p = some (.verify input .asking)) :
    ∃ steps next pc, Runs.exec Concurrent.step (fun _ _ => true) state
        (.answer p answer :: advances p steps) = some next ∧
      next.calls p = some (.verify input pc) ∧ next.world.Quiet ∧
      pc.result = some (verifyResource (fun _ => false) state.world.committed input answer
        state.world.clock).1 ∧
      SameRows next.world.committed (verifyResource (fun _ => false) state.world.committed input
        answer state.world.clock).2 := by
  obtain ⟨final, last, solo, still, result, same⟩ : Comes p input state.world (.answered answer) _ :=
    comes_verifyResource quiet
  have answers : Concurrent.step state (.answer p answer) =
      some (state.take p .idle (.verify input (.answered answer))) := by
    simp [Concurrent.step, called]
  have here : (state.take p .idle (.verify input (.answered answer))).world = state.world := rfl
  obtain ⟨steps, next, ran, rfl, reached⟩ := solo.exec here (take_calls_self ..)
  refine ⟨steps, next, last, ?_, reached, still, result, same⟩
  simpa [Runs.exec, answers] using ran

theorem counter_verified_alone : ∃ steps next pc,
    Runs.exec Concurrent.step (fun _ _ => true) (State.initial.take 0 .idle (.verify (counterInput "miden-verify") .asking))
        (.answer 0 (.ok (verifiedBuild Compile.counterCode Compile.counterCommitment [1])) :: advances 0 steps) =
      some next ∧
    next.calls 0 = some (.verify (counterInput "miden-verify") pc) ∧ pc.result.isSome = true := by
  have quiet : (State.initial.take 0 .idle (.verify (counterInput "miden-verify") .asking)).world.Quiet :=
    ⟨List.forall_mem_nil _, List.forall_mem_nil _, List.forall_mem_nil _, List.forall_mem_nil _⟩
  obtain ⟨steps, next, pc, ran, called, -, result, -⟩ := answer_verifyResource
    (.ok (verifiedBuild Compile.counterCode Compile.counterCommitment [1])) quiet (take_calls_self ..)
  refine ⟨steps, next, pc, ran, called, ?_⟩
  rw [result]
  rfl

end SourceVerification.Concurrent
