import SourceVerification.Concurrent.Endings
import SourceVerification.Concurrent.SequentialVerify

set_option autoImplicit false

namespace SourceVerification.Concurrent

open Registry Versions Runs

def Own (p : Pid) : State → Action → Prop
  | _, .answer q _ => q = p
  | _, .advance q => q = p
  | _, .fail q => q = p
  | _, .tick _ => True
  | _, .start _ _ => False

structure SameTables (db other : Database) : Prop where
  packages : db.packages = other.packages
  accounts : db.accounts = other.accounts
  components : db.components = other.components
  notes : db.notes = other.notes

structure Untouched (before : Registry.State) (world : World) : Prop where
  quiet : world.Quiet
  tables : SameTables world.committed.db before.db

def StoreWithin (before : Registry.State) (build : VerifyResponse) (store : MaspStore) : Prop :=
  store = before.store ∨ before.db.getPackage build.commitment = none ∧
    store = before.store.put build.commitment build.masp .release

def PackageIn (db : Database) (id : RowId) (commitment : Word) : Prop :=
  ∃ row ∈ db.packages, row.id = id ∧ row.commitment = commitment

def AccountIn (db : Database) (id : RowId) (networkId : String) (code : Word) : Prop :=
  ∃ row ∈ db.accounts, row.id = id ∧ accountKey row = (networkId, code)

def RecordIn (db : Database) (input : VerifyInput) (build : VerifyResponse) (recordId : RowId) : Prop :=
  match input.resource with
  | .account _ => ∃ row ∈ db.components,
      row.id = recordId ∧ row.packageCommitment = build.commitment ∧ row.source = input.source ∧
      AccountIn db row.verifiedAccountId input.networkId build.root ∧
      PackageIn db row.packageId build.commitment
  | .note _ => ∃ row ∈ db.notes,
      row.id = recordId ∧ row.packageCommitment = build.commitment ∧ row.source = input.source ∧
      noteKey row = (input.networkId, build.root) ∧ PackageIn db row.packageId build.commitment

def TxPc.Knows (db : Database) (input : VerifyInput) (build : VerifyResponse) : TxPc → Prop
  | .findingAccount packageId | .insertingAccount packageId =>
    input.resource.kind = .account ∧ PackageIn db packageId build.commitment
  | .findingComponent packageId accountId | .insertingComponent packageId accountId =>
    input.resource.kind = .account ∧ PackageIn db packageId build.commitment ∧
      AccountIn db accountId input.networkId build.root
  | .findingNote packageId | .insertingNote packageId =>
    input.resource.kind = .note ∧ PackageIn db packageId build.commitment
  | .committing _ recordId => RecordIn db input build recordId
  | .insertingPackage | .findingPackage | .rollingBack _ => True

section Transaction

variable {p : Pid} {world : World} {input : VerifyInput} {work : Work}

theorem knows_recording {db : Database} {build : VerifyResponse} {packageId : RowId}
    (package : PackageIn db packageId build.commitment) :
    (recording input packageId).Knows db input build := by
  unfold recording
  cases resource : input.resource <;> exact ⟨by simp [resource, Resource.kind], package⟩

theorem mem_view_insert {Row : Type} {table : Table Pid Row} {row : Row} :
    row ∈ view p (Versions.insert p table row) := by
  rw [view_insert]
  exact List.mem_append_right _ (List.mem_singleton_self row)

theorem TxStep.goes_knowing {pc after : TxPc} {effect : Effect} (inserting : world.Inserting p)
    (knows : pc.Knows (world.seenBy p) input work.build)
    (tx : TxStep p world input work pc (.go effect after)) :
    (effect.apply p world).Inserting p ∧
      SameTables (effect.apply p world).committed.db world.committed.db ∧
      (effect.apply p world).store = world.store ∧
      after.Knows ((effect.apply p world).seenBy p) input work.build := by
  cases tx with
  | packageInserted =>
    refine ⟨inserting.insertPackage _, ⟨committed_insert _, rfl, rfl, rfl⟩, rfl, knows_recording ?_⟩
    exact ⟨_, mem_view_insert, rfl, rfl⟩
  | packageConflict => exact ⟨inserting, ⟨rfl, rfl, rfl, rfl⟩, rfl, trivial⟩
  | packageFound member same =>
    exact ⟨inserting, ⟨rfl, rfl, rfl, rfl⟩, rfl, knows_recording ⟨_, member, rfl, same⟩⟩
  | packageGone => exact ⟨inserting, ⟨rfl, rfl, rfl, rfl⟩, rfl, trivial⟩
  | accountFound member same =>
    exact ⟨inserting, ⟨rfl, rfl, rfl, rfl⟩, rfl, knows.1, knows.2, _, member, rfl, Prod.ext same.1 same.2⟩
  | accountAbsent => exact ⟨inserting, ⟨rfl, rfl, rfl, rfl⟩, rfl, knows⟩
  | accountInserted =>
    refine ⟨inserting.insertAccount _, ⟨rfl, committed_insert _, rfl, rfl⟩, rfl, knows.1, knows.2, ?_⟩
    exact ⟨_, mem_view_insert, rfl, rfl⟩
  | componentFound => exact ⟨inserting, ⟨rfl, rfl, rfl, rfl⟩, rfl, trivial⟩
  | componentAbsent => exact ⟨inserting, ⟨rfl, rfl, rfl, rfl⟩, rfl, knows⟩
  | componentInserted =>
    refine ⟨inserting.insertComponent _, ⟨rfl, rfl, committed_insert _, rfl⟩, rfl, ?_⟩
    obtain ⟨kind, package, account⟩ := knows
    cases resource : input.resource with
    | note noteId => simp [resource, Resource.kind] at kind
    | account accountId =>
      simp only [TxPc.Knows, RecordIn, resource]
      exact ⟨_, mem_view_insert, rfl, rfl, rfl, account, package⟩
  | noteFound => exact ⟨inserting, ⟨rfl, rfl, rfl, rfl⟩, rfl, trivial⟩
  | noteAbsent => exact ⟨inserting, ⟨rfl, rfl, rfl, rfl⟩, rfl, knows⟩
  | noteInserted =>
    refine ⟨inserting.insertNote _, ⟨rfl, rfl, rfl, committed_insert _⟩, rfl, ?_⟩
    obtain ⟨kind, package⟩ := knows
    cases resource : input.resource with
    | account accountId => simp [resource, Resource.kind] at kind
    | note noteId =>
      simp only [TxPc.Knows, RecordIn, resource]
      exact ⟨_, mem_view_insert, rfl, rfl, rfl, rfl, package⟩

end Transaction

def VerifyPc.Stage (p : Pid) (input : VerifyInput) (before : Registry.State) (world : World) :
    VerifyPc → Prop
  | .asking | .reading _ | .unverified | .threw none _ =>
    Untouched before world ∧ world.store = before.store
  | .storing build => Untouched before world ∧ world.store = before.store ∧
      before.db.getPackage build.commitment = none
  | .beginning build stored => Untouched before world ∧ StoreWithin before build world.store ∧
      ∀ row ∈ stored, row ∈ before.db.packages ∧ row.commitment = build.commitment
  | .transaction work pc => world.Inserting p ∧ SameTables world.committed.db before.db ∧
      StoreWithin before work.build world.store ∧ pc.Knows (world.seenBy p) input work.build
  | .threw (some build) _ => Untouched before world ∧ StoreWithin before build world.store
  | .storingDebug build _ recordId _ _ _ | .updatingDebug build _ recordId _ _ | .returned build recordId =>
    RecordIn world.committed.db input build recordId

section Stages

variable {p : Pid} {input : VerifyInput} {before : Registry.State} {world : World}

theorem Untouched.store (untouched : Untouched before world) (store : MaspStore) :
    Untouched before { world with store := store } :=
  ⟨⟨untouched.quiet.packages, untouched.quiet.accounts, untouched.quiet.components, untouched.quiet.notes⟩,
    untouched.tables⟩

theorem untouched_rollback (inserting : world.Inserting p)
    (tables : SameTables world.committed.db before.db) :
    Untouched before (Effect.rollback.apply p world) where
  quiet := inserting.alone.quiet_rollback
  tables := by
    rw [inserting.alone.committed_rollback]
    exact tables

theorem RecordIn.withDebug {db : Database} {build : VerifyResponse} {recordId : RowId}
    (held : RecordIn db input build recordId) (packageId : RowId) (debugCommitment : Word)
    (builtWith : Option String) (now : Time) :
    RecordIn (db.updatePackage packageId (·.withDebug debugCommitment builtWith now)) input build recordId := by
  have package {id : RowId} {commitment : Word} (inside : PackageIn db id commitment) :
      PackageIn (db.updatePackage packageId (·.withDebug debugCommitment builtWith now)) id commitment := by
    obtain ⟨row, member, same, named⟩ := inside
    exact ⟨withDebugAt packageId debugCommitment builtWith now row, List.mem_map_of_mem member,
      (withDebugAt_id ..).trans same, (withDebugAt_commitment ..).trans named⟩
  cases resource : input.resource with
  | account accountId =>
    simp only [RecordIn, resource] at held ⊢
    obtain ⟨row, member, id, commitment, source, account, inside⟩ := held
    exact ⟨row, member, id, commitment, source, account, package inside⟩
  | note noteId =>
    simp only [RecordIn, resource] at held ⊢
    obtain ⟨row, member, id, commitment, source, key, inside⟩ := held
    exact ⟨row, member, id, commitment, source, key, package inside⟩

theorem stage_answered (answer : Except Error VerifyResponse)
    (stage : VerifyPc.Stage p input before world .asking) :
    (VerifyPc.answered answer).Stage p input before world := by
  unfold VerifyPc.answered
  cases answer with
  | error error => exact stage
  | ok build =>
    dsimp only
    split <;> exact stage

theorem VerifyPc.Stage.fail {pc after : VerifyPc} {effect : Effect} (stage : pc.Stage p input before world)
    (failed : pc.fail = some (effect, after)) : after.Stage p input before (effect.apply p world) := by
  cases pc with
  | asking | unverified | returned | threw => cases failed
  | reading build =>
    obtain ⟨rfl, rfl⟩ := Prod.mk.inj (Option.some.inj failed)
    exact ⟨stage.1, .inl stage.2⟩
  | storing build =>
    obtain ⟨rfl, rfl⟩ := Prod.mk.inj (Option.some.inj failed)
    exact ⟨stage.1, .inl stage.2.1⟩
  | beginning build stored =>
    obtain ⟨rfl, rfl⟩ := Prod.mk.inj (Option.some.inj failed)
    exact ⟨stage.1, stage.2.1⟩
  | transaction work pc =>
    obtain ⟨rfl, rfl⟩ := Prod.mk.inj (Option.some.inj failed)
    obtain ⟨inserting, tables, store, -⟩ := stage
    exact ⟨untouched_rollback inserting tables, store⟩
  | storingDebug | updatingDebug =>
    obtain ⟨rfl, rfl⟩ := Prod.mk.inj (Option.some.inj failed)
    exact stage

theorem record_commit {work : Work} {packageId recordId : RowId} (inserting : world.Inserting p)
    (record : RecordIn (world.seenBy p) input work.build recordId) :
    (recorded work packageId recordId).Stage p input before (Effect.commit.apply p world) := by
  have settled : RecordIn (Effect.commit.apply p world).committed.db input work.build recordId := by
    rw [inserting.alone.committed_commit]
    exact record
  unfold recorded
  split <;> exact settled

theorem VerifyPc.Stage.advance {pc after : VerifyPc} {effect : Effect}
    (stage : pc.Stage p input before world) (taken : pc.next p world input = some (effect, after)) :
    after.Stage p input before (effect.apply p world) := by
  cases pc with
  | asking | unverified | returned | threw => cases taken
  | reading build =>
    obtain ⟨untouched, store⟩ := stage
    have rows : Versions.committed world.packages = before.db.packages := untouched.tables.packages
    simp only [VerifyPc.next] at taken
    split at taken
    next row found =>
      obtain ⟨rfl, rfl⟩ := Prod.mk.inj (Option.some.inj taken)
      refine ⟨untouched, .inl store, fun other same => ?_⟩
      obtain rfl := Option.some.inj same
      rw [rows] at found
      exact Tables.find?_key_eq_some found
    next missing =>
      obtain ⟨rfl, rfl⟩ := Prod.mk.inj (Option.some.inj taken)
      rw [rows] at missing
      exact ⟨untouched, store, missing⟩
  | storing build =>
    obtain ⟨rfl, rfl⟩ := Prod.mk.inj (Option.some.inj taken)
    obtain ⟨untouched, store, missing⟩ := stage
    refine ⟨untouched.store _, .inr ⟨missing, ?_⟩, by simp⟩
    simp only [Effect.apply, store]
  | beginning build stored =>
    obtain ⟨rfl, rfl⟩ := Prod.mk.inj (Option.some.inj taken)
    obtain ⟨untouched, store, known⟩ := stage
    refine ⟨untouched.quiet.inserting p, untouched.tables, store, ?_⟩
    cases stored with
    | none => trivial
    | some row =>
      obtain ⟨member, named⟩ := known row rfl
      have sees : (world.seenBy p).packages = before.db.packages := by
        rw [untouched.quiet.seenBy p]
        exact untouched.tables.packages
      exact knows_recording ⟨row, sees ▸ member, rfl, named⟩
  | transaction work pc =>
    obtain ⟨inserting, tables, store, knows⟩ := stage
    obtain ⟨outcome, ran, taken⟩ := Option.map_eq_some_iff.mp taken
    have tx := TxPc.next_step ran
    cases outcome with
    | go effect pc =>
      obtain ⟨rfl, rfl⟩ := Prod.mk.inj taken
      obtain ⟨still, same, kept, knowing⟩ := tx.goes_knowing inserting knows
      refine ⟨still, ?_, kept ▸ store, knowing⟩
      exact ⟨same.packages.trans tables.packages, same.accounts.trans tables.accounts,
        same.components.trans tables.components, same.notes.trans tables.notes⟩
    | commit packageId recordId =>
      obtain ⟨rfl, rfl⟩ := Prod.mk.inj taken
      cases tx
      exact record_commit inserting knows
    | abort error =>
      obtain ⟨rfl, rfl⟩ := Prod.mk.inj taken
      exact ⟨untouched_rollback inserting tables, store⟩
  | storingDebug build packageId recordId masp debugCommitment builtWith =>
    obtain ⟨rfl, rfl⟩ := Prod.mk.inj (Option.some.inj taken)
    exact stage
  | updatingDebug build packageId recordId debugCommitment builtWith =>
    simp only [VerifyPc.next] at taken
    split_ifs at taken
    obtain ⟨rfl, rfl⟩ := Prod.mk.inj (Option.some.inj taken)
    have record : RecordIn world.committed.db input build recordId := stage
    have updated := record.withDebug packageId debugCommitment builtWith world.clock
    rw [VerifyPc.Stage, committed_updateDebug]
    exact updated

theorem Untouched.tick (untouched : Untouched before world) (clock : Time) :
    Untouched before { world with clock := clock } :=
  ⟨⟨untouched.quiet.packages, untouched.quiet.accounts, untouched.quiet.components, untouched.quiet.notes⟩,
    untouched.tables⟩

theorem VerifyPc.Stage.tick {pc : VerifyPc} (stage : pc.Stage p input before world) (clock : Time) :
    pc.Stage p input before { world with clock := clock } := by
  cases pc with
  | asking | reading | storing | beginning | unverified => exact ⟨stage.1.tick clock, stage.2⟩
  | transaction work pc =>
    obtain ⟨inserting, rest⟩ := stage
    exact ⟨⟨inserting.packages, inserting.accounts, inserting.components, inserting.notes⟩, rest⟩
  | storingDebug | updatingDebug | returned => exact stage
  | threw build error => cases build <;> exact ⟨stage.1.tick clock, stage.2⟩

end Stages

theorem own_step {state after : State} {action : Action} {p : Pid} {input : VerifyInput} {pc : VerifyPc}
    (called : state.calls p = some (.verify input pc)) (own : Own p state action)
    (taken : step state action = some after) :
    (∃ answer, pc = .asking ∧ after = state.take p .idle (.verify input (.answered answer))) ∨
    (∃ effect next, (pc.next p state.world input = some (effect, next) ∨ pc.fail = some (effect, next)) ∧
      after = state.take p effect (.verify input next)) ∨
    ∃ clock, after = { state with world := { state.world with clock := clock } } := by
  cases action with
  | start => exact own.elim
  | answer q answer =>
    obtain rfl : q = p := own
    simp only [step, called] at taken
    split at taken
    next other asking =>
      obtain ⟨rfl, rfl⟩ := Call.verify.inj (Option.some.inj asking)
      exact .inl ⟨answer, rfl, (Option.some.inj taken).symm⟩
    next => cases taken
  | advance q =>
    obtain rfl : q = p := own
    simp only [step, called, Call.next, Option.map_map, Option.map_eq_some_iff] at taken
    obtain ⟨⟨effect, next⟩, ran, rfl⟩ := taken
    exact .inr (.inl ⟨effect, next, .inl ran, rfl⟩)
  | fail q =>
    obtain rfl : q = p := own
    simp only [step, called, Call.fail, Option.map_map, Option.map_eq_some_iff] at taken
    obtain ⟨⟨effect, next⟩, ran, rfl⟩ := taken
    exact .inr (.inl ⟨effect, next, .inr ran, rfl⟩)
  | tick duration => exact .inr (.inr ⟨_, (Option.some.inj taken).symm⟩)

def State.At (state : State) (p : Pid) (input : VerifyInput) (before : Registry.State) (pc : VerifyPc) : Prop :=
  state.calls p = some (.verify input pc) ∧ pc.Stage p input before state.world

def VerifyPc.committed : VerifyPc → Option (VerifyResponse × RowId)
  | .storingDebug build _ recordId _ _ _ | .updatingDebug build _ recordId _ _ | .returned build recordId =>
    some (build, recordId)
  | _ => none

section Runs

variable {p : Pid} {input : VerifyInput} {before : Registry.State}

theorem committed_advance {world : World} {pc next : VerifyPc} {effect : Effect} {record : VerifyResponse × RowId}
    (taken : pc.next p world input = some (effect, next) ∨ pc.fail = some (effect, next))
    (recorded : pc.committed = some record) : next.committed = some record := by
  cases pc with
  | asking | reading | storing | beginning | transaction | unverified | threw => cases recorded
  | returned => rcases taken with taken | taken <;> cases taken
  | storingDebug =>
    rcases taken with taken | taken <;> obtain ⟨-, rfl⟩ := Prod.mk.inj (Option.some.inj taken) <;> exact recorded
  | updatingDebug =>
    simp only [VerifyPc.next, Option.ite_none_left_eq_some] at taken
    rcases taken with ⟨-, taken⟩ | taken <;> obtain ⟨-, rfl⟩ := Prod.mk.inj (Option.some.inj taken) <;>
      exact recorded

theorem State.At.step {state after : State} {action : Action} {pc : VerifyPc}
    (here : state.At p input before pc) (own : Own p state action)
    (taken : Concurrent.step state action = some after) :
    ∃ next, after.At p input before next ∧ ∀ record, pc.committed = some record → next.committed = some record := by
  obtain ⟨called, stage⟩ := here
  rcases own_step called own taken with ⟨answer, rfl, rfl⟩ | ⟨effect, next, ran, rfl⟩ | ⟨clock, rfl⟩
  · exact ⟨_, ⟨take_calls_self .., stage_answered answer stage⟩, by simp [VerifyPc.committed]⟩
  · refine ⟨next, ⟨take_calls_self .., ?_⟩, fun record recorded => committed_advance ran recorded⟩
    rcases ran with advanced | failed
    · exact stage.advance advanced
    · exact stage.fail failed
  · exact ⟨pc, ⟨called, stage.tick clock⟩, fun _ recorded => recorded⟩

theorem State.At.run {state final : State} {actions : List Action} {pc : VerifyPc}
    (here : state.At p input before pc) (run : Run Concurrent.step (Own p) state actions final) :
    ∃ last, final.At p input before last ∧ ∀ record, pc.committed = some record → last.committed = some record := by
  refine run.always (fun state => ∃ last, state.At p input before last ∧
    ∀ record, pc.committed = some record → last.committed = some record)
    ⟨pc, here, fun _ recorded => recorded⟩ ?_
  rintro earlier action later ⟨reached, there, kept⟩ own taken
  obtain ⟨next, at_next, keeps⟩ := there.step own taken
  exact ⟨next, at_next, fun record recorded => keeps record (kept record recorded)⟩

theorem recordCommitted_iff {state : State} {build : VerifyResponse} {recordId : RowId} :
    state.RecordCommitted input build recordId ↔ RecordIn state.world.committed.db input build recordId := by
  unfold State.RecordCommitted RecordIn
  cases input.resource <;> exact Iff.rfl

theorem State.At.recordCommitted {state : State} {pc : VerifyPc} {build : VerifyResponse} {recordId : RowId}
    (here : state.At p input before pc) (recorded : pc.committed = some (build, recordId)) :
    state.RecordCommitted input build recordId := by
  have stage := here.2
  rw [recordCommitted_iff]
  cases pc with
  | asking | reading | storing | beginning | transaction | unverified | threw => cases recorded
  | storingDebug | updatingDebug | returned =>
    obtain ⟨rfl, rfl⟩ := Prod.mk.inj (Option.some.inj recorded)
    exact stage

end Runs

/-- What a verification leaves where it is: nothing but an artifact when it threw, nothing at all when
it returned false, and from the commit on its record, whatever comes of the debug build. -/
structure Whole (p : Pid) (input : VerifyInput) (start final : State) (pc : VerifyPc) : Prop where
  threw : ∀ answered error, pc = .threw answered error → Untouched start.world.committed final.world ∧
    (final.world.store = start.world.store ∨
      ∃ build ∈ answered, start.world.committed.db.getPackage build.commitment = none ∧
        final.world.store = start.world.store.put build.commitment build.masp .release)
  unverified : pc = .unverified →
    Untouched start.world.committed final.world ∧ final.world.store = start.world.store
  committed : ∀ build recordId, pc.committed = some (build, recordId) → ∀ later last,
    Run step (Own p) final later last → last.RecordCommitted input build recordId ∧
      ∃ next, last.calls p = some (.verify input next) ∧ ∀ result, next.result = some result → result = .ok true

theorem verifyResource_whole {p : Pid} {input : VerifyInput} {start final : State} {actions : List Action}
    (quiet : start.world.Quiet) (called : start.calls p = some (.verify input .asking))
    (run : Run step (Own p) start actions final) :
    ∃ pc, final.calls p = some (.verify input pc) ∧ Whole p input start final pc := by
  have untouched : Untouched start.world.committed start.world := ⟨quiet, rfl, rfl, rfl, rfl⟩
  have begins : start.At p input start.world.committed .asking := ⟨called, untouched, rfl⟩
  obtain ⟨pc, here, -⟩ := begins.run run
  refine ⟨pc, here.1, ?_, ?_, ?_⟩
  · rintro answered error rfl
    have stage := here.2
    cases answered with
    | none => exact ⟨stage.1, .inl stage.2⟩
    | some build => exact ⟨stage.1, stage.2.imp_right fun stored => ⟨build, rfl, stored⟩⟩
  · rintro rfl
    exact here.2
  · intro build recordId recorded later last continues
    obtain ⟨next, there, kept⟩ := here.run continues
    have still := kept _ recorded
    refine ⟨there.recordCommitted still, next, there.1, fun result ended => ?_⟩
    cases next with
    | returned => exact (Option.some.inj ended).symm
    | asking | reading | storing | beginning | transaction | unverified | threw => cases still
    | storingDebug | updatingDebug => cases ended

def counterAsked : State :=
  State.initial.take 0 .idle (.verify (counterInput "miden-verify") .asking)

def own (_ : State) : Action → Bool
  | .answer q _ => q = 0
  | .advance q => q = 0
  | .fail q => q = 0
  | .tick _ => true
  | .start _ _ => false

theorem own_sound (state : State) (action : Action) (permitted : own state action = true) :
    Own 0 state action := by
  cases action with
  | answer q | advance q | fail q =>
    have same : q = 0 := of_decide_eq_true permitted
    exact same
  | tick => trivial
  | start => cases permitted

theorem counter_insert_fails_whole : ∃ final : State, final.thrown 0 = some fault ∧
    ∃ pc, final.calls 0 = some (.verify (counterInput "miden-verify") pc) ∧
      Whole 0 (counterInput "miden-verify") counterAsked final pc := by
  have ran : (exec step own counterAsked
      ([.answer 0 (.ok (verifiedBuild Compile.counterCode Compile.counterCommitment [1]))] ++ advances 0 3 ++
        [.fail 0])).any (fun state => state.thrown 0 = some fault) = true := by decide +kernel
  obtain ⟨final, reached, thrown⟩ := exists_run_of_exec own_sound ran
  refine ⟨final, of_decide_eq_true thrown, verifyResource_whole ?_ (take_calls_self ..) reached⟩
  exact ⟨List.forall_mem_nil _, List.forall_mem_nil _, List.forall_mem_nil _, List.forall_mem_nil _⟩

end SourceVerification.Concurrent
