import SourceVerification.Concurrent.Indexes

set_option autoImplicit false

namespace SourceVerification.Concurrent

open Registry Versions Runs Compile

inductive BackfillPc
  | reading
  -- Until api-compile answers.
  | building (commitment : Word) (dbPackage : PackageRow) (entrypoint : String)
  | storingDebug (commitment : Word) (dbPackage : PackageRow) (entrypoint : String) (masp : Masp)
      (debugCommitment : Word) (builtWith : Option String)
  | updatingDebug (dbPackage : PackageRow) (entrypoint : String) (debugCommitment : Word)
      (builtWith : Option String)
  | updatingEntrypoint (dbPackage : PackageRow) (entrypoint : String) (debugCommitment : Word)
  | ended (answer : Except Error Word)

structure Backfill where
  commitment : String
  pc : BackfillPc

def withEntrypointAt (packageId : RowId) (entrypoint : String) (now : Time) (row : PackageRow) :
    PackageRow :=
  if row.id = packageId then row.withEntrypoint entrypoint now else row

section

variable (parse : String → Option (List (String × Json)))

def BackfillPc.read (world : World) (commitment : String) : BackfillPc :=
  match parseRoot commitment with
  | none => .ended (.error (.http ⟨400, "invalid package commitment"⟩))
  | some commitment =>
    match (Versions.committed world.packages).find? (·.commitment = commitment) with
    | none => .ended (.error (.http ⟨404, "package not found"⟩))
    | some dbPackage =>
      match dbPackage.debugCommitment with
      | some debugCommitment => .ended (.ok debugCommitment)
      | none =>
        match dbPackage.entrypoint <|> inferEntrypoint parse dbPackage.files dbPackage.name with
        | none => .ended (.error (.http ⟨422, "ambiguous entrypoint"⟩))
        | some entrypoint => .building commitment dbPackage entrypoint

def BackfillPc.answered (commitment : Word) (dbPackage : PackageRow) (entrypoint : String) :
    Except Error DebugBuild → BackfillPc
  | .error error => .ended (.error error)
  | .ok (.failed error) => .ended (.error (.http ⟨422, error⟩))
  | .ok (.built masp debugCommitment cargoMidenVersion) =>
    .storingDebug commitment dbPackage entrypoint masp debugCommitment cargoMidenVersion

def BackfillPc.next (p : Pid) (world : World) (commitment : String) :
    BackfillPc → Option (World × BackfillPc)
  | .reading => some (world, .read parse world commitment)
  | .building _ _ _ => none
  | .storingDebug commitment dbPackage entrypoint masp debugCommitment builtWith =>
    some ((Effect.put commitment masp .debug).apply p world,
      .updatingDebug dbPackage entrypoint debugCommitment builtWith)
  | .updatingDebug dbPackage entrypoint debugCommitment builtWith =>
    if held p world.packages (·.id = dbPackage.id) then none
    else some ((Effect.updateDebug dbPackage.id debugCommitment builtWith).apply p world,
      if dbPackage.entrypoint.isSome then .ended (.ok debugCommitment)
      else .updatingEntrypoint dbPackage entrypoint debugCommitment)
  | .updatingEntrypoint dbPackage entrypoint debugCommitment =>
    if held p world.packages (·.id = dbPackage.id) then none
    else some ({ world with
        packages := update (withEntrypointAt dbPackage.id entrypoint world.clock) world.packages },
      .ended (.ok debugCommitment))
  | .ended _ => none

def BackfillPc.fail : BackfillPc → Option BackfillPc
  | .building _ _ _ => none
  | .ended _ => none
  | _ => some (.ended (.error fault))

structure BuildState where
  registry : State
  backfills : Pid → Option Backfill

def BuildState.initial : BuildState where
  registry := .initial
  backfills _ := none

inductive BuildAction
  | registry (action : Action)
  | post (p : Pid) (commitment : String)
  -- api-compile answers a backfill.
  | answer (p : Pid) (debug : Except Error DebugBuild)
  | advance (p : Pid)
  | fail (p : Pid)

def BuildState.take (state : BuildState) (p : Pid) (world : World) (backfill : Backfill) :
    BuildState where
  registry := { state.registry with world := world }
  backfills := Function.update state.backfills p (some backfill)

def BuildState.taken (state : BuildState) : Action → Bool
  | .start p _ => (state.backfills p).isSome
  | _ => false

def buildStep (state : BuildState) : BuildAction → Option BuildState
  | .registry action =>
    if state.taken action then none
    else (step state.registry action).map fun registry => { state with registry := registry }
  | .post p commitment =>
    match state.registry.calls p, state.backfills p with
    | none, none => some (state.take p state.registry.world ⟨commitment, .reading⟩)
    | _, _ => none
  | .answer p debug =>
    match state.backfills p with
    | some ⟨commitment, .building root dbPackage entrypoint⟩ =>
      some (state.take p state.registry.world
        ⟨commitment, .answered root dbPackage entrypoint debug⟩)
    | _ => none
  | .advance p =>
    match state.backfills p with
    | some backfill =>
      (backfill.pc.next parse p state.registry.world backfill.commitment).map fun (world, pc) =>
        state.take p world { backfill with pc := pc }
    | none => none
  | .fail p =>
    match state.backfills p with
    | some backfill =>
      backfill.pc.fail.map fun pc => state.take p state.registry.world { backfill with pc := pc }
    | none => none

end

inductive DebugWrite
  | store (commitment : Word) (masp : Masp)
  | record (packageId : RowId) (debugCommitment : Word)

def Call.debugWrite : Call → Option DebugWrite
  | .verify _ (.storingDebug build _ _ masp _ _) => some (.store build.commitment masp)
  | .verify _ (.updatingDebug _ packageId _ debugCommitment _) =>
    some (.record packageId debugCommitment)
  | _ => none

def BackfillPc.debugWrite : BackfillPc → Option DebugWrite
  | .storingDebug commitment _ _ masp _ _ => some (.store commitment masp)
  | .updatingDebug dbPackage _ debugCommitment _ => some (.record dbPackage.id debugCommitment)
  | _ => none

section

-- `commitmentOf` is the commitment of the package an artifact holds.
variable (commitmentOf : Masp → Word)

/-- An artifact is stored only while the package's row records no other debug build, and a row is
updated only while the artifact stored for it is still of the build it is updated to. -/
def DebugWrite.undisturbed (world : World) : DebugWrite → Bool
  | .store commitment masp => world.packages.all fun version =>
      version.row.commitment ≠ commitment || version.row.debugCommitment.all (· = commitmentOf masp)
  | .record packageId debugCommitment => world.packages.all fun version =>
      version.row.id ≠ packageId ||
        (world.store.get version.row.commitment .debug).map commitmentOf = some debugCommitment

structure World.Matched (world : World) : Prop where
  settled : ∀ version ∈ world.packages, ∀ q, version.status ≠ .deleting q
  stored : ∀ version ∈ world.packages, ∀ debugCommitment,
    version.row.debugCommitment = some debugCommitment →
      (world.store.get version.row.commitment .debug).map commitmentOf = some debugCommitment

def World.Records (world : World) (commitment debugCommitment : Word) : Prop :=
  ∃ version ∈ world.packages, version.status.isCommitted = true ∧
    version.row.commitment = commitment ∧ version.row.debugCommitment = some debugCommitment

def Effect.Careful (world : World) : Effect → Prop
  | .put commitment masp .debug => (DebugWrite.store commitment masp).undisturbed commitmentOf world
  | .updateDebug packageId debugCommitment _ =>
    (DebugWrite.record packageId debugCommitment).undisturbed commitmentOf world
  | .insertPackage row => row.debugCommitment = none
  | .remove _ _ => False
  | .deletePackages _ => False
  | _ => True

variable {commitmentOf} {p : Pid} {world : World} {effect : Effect}

theorem undisturbed_store {commitment : Word} {masp : Masp}
    (undisturbed : (DebugWrite.store commitment masp).undisturbed commitmentOf world)
    {version : Version Pid PackageRow} (member : version ∈ world.packages)
    (same : version.row.commitment = commitment) {debugCommitment : Word}
    (records : version.row.debugCommitment = some debugCommitment) :
    commitmentOf masp = debugCommitment := by
  have free := List.all_eq_true.mp undisturbed version member
  simpa [same, records, eq_comm] using free

theorem undisturbed_record {packageId : RowId} {debugCommitment : Word}
    (undisturbed : (DebugWrite.record packageId debugCommitment).undisturbed commitmentOf world)
    {version : Version Pid PackageRow} (member : version ∈ world.packages)
    (same : version.row.id = packageId) :
    (world.store.get version.row.commitment .debug).map commitmentOf = some debugCommitment := by
  have free := List.all_eq_true.mp undisturbed version member
  simpa [same] using free

theorem World.Matched.apply_settled (matched : world.Matched commitmentOf)
    (careful : effect.Careful commitmentOf world) :
    ∀ version ∈ (effect.apply p world).packages, ∀ q, version.status ≠ .deleting q := by
  intro version member q
  rw [Effect.packages_apply] at member
  obtain ⟨rewritten, inside, _, status⟩ := mem_update member
  rw [status]
  rcases Statement.origin inside with ⟨row, _, rfl⟩ | ⟨old, before, _, origin⟩
  · simp
  · rcases origin with ⟨kept, _⟩ | ⟨committed, _⟩ | ⟨doomed, deletes, _⟩
    · rw [kept]
      exact matched.settled old before q
    · simp [committed]
    · cases effect <;> simp only [Effect.onPackages, reduceCtorEq] at deletes
      exact careful.elim

theorem Effect.Careful.row_origin (careful : effect.Careful commitmentOf world)
    {version : Version Pid PackageRow} (member : version ∈ (effect.apply p world).packages) :
    version.row.debugCommitment = none ∨
      ∃ old ∈ world.packages, effect.rewrites world.clock old.row = version.row := by
  rw [Effect.packages_apply] at member
  obtain ⟨rewritten, inside, same, _⟩ := mem_update member
  rcases Statement.row_origin inside with inserts | ⟨old, before, kept⟩
  · obtain rfl := Effect.onPackages_eq_insert.mp inserts
    exact .inl (same ▸ careful)
  · exact .inr ⟨old, before, by rw [kept, same]⟩

theorem World.Matched.apply_stored (matched : world.Matched commitmentOf)
    (careful : effect.Careful commitmentOf world) :
    ∀ version ∈ (effect.apply p world).packages, ∀ debugCommitment,
      version.row.debugCommitment = some debugCommitment →
        ((effect.apply p world).store.get version.row.commitment .debug).map commitmentOf =
          some debugCommitment := by
  intro version member debugCommitment records
  rcases careful.row_origin member with none | ⟨old, before, same⟩
  · rw [records] at none
    cases none
  · rw [← same, Effect.rewrites_commitment]
    rw [← same] at records
    cases effect with
    | remove | deletePackages => exact careful.elim
    | updateDebug packageId recorded builtWith =>
      simp only [Effect.rewrites, withDebugAt] at records
      split_ifs at records with own
      · obtain rfl := Option.some.inj records
        exact undisturbed_record careful before own
      · exact matched.stored old before debugCommitment records
    | put commitment masp variant =>
      have recorded := matched.stored old before debugCommitment records
      simp only [Effect.apply, MaspStore.get_put]
      split_ifs with own
      · obtain ⟨rfl, rfl⟩ := own
        rw [Option.map_some, undisturbed_store careful before rfl records]
      · exact recorded
    | idle | insertPackage | insertAccount | insertComponent | insertNote | deleteComponents
    | deleteNotes | deleteAccounts | commit | rollback =>
      exact matched.stored old before debugCommitment records

theorem World.Matched.apply (matched : world.Matched commitmentOf)
    (careful : effect.Careful commitmentOf world) : (effect.apply p world).Matched commitmentOf where
  settled := matched.apply_settled careful
  stored := matched.apply_stored careful

theorem World.Records.apply {commitment debugCommitment : Word}
    (records : world.Records commitment debugCommitment) (matched : world.Matched commitmentOf)
    (careful : effect.Careful commitmentOf world) :
    (effect.apply p world).Records commitment debugCommitment := by
  obtain ⟨version, member, committed, same, recorded⟩ := records
  have stored := matched.stored version member debugCommitment recorded
  obtain ⟨kept, inside, row, still⟩ : ∃ kept ∈ effect.onPackages.apply p world.packages,
      kept.row = version.row ∧ kept.status.isCommitted = true :=
    Statement.keeps_committed member committed (matched.settled version member p)
  refine ⟨⟨effect.rewrites world.clock kept.row, kept.status⟩, ?_, still, ?_, ?_⟩
  · rw [Effect.packages_apply]
    exact List.mem_map.mpr ⟨kept, inside, rfl⟩
  · rw [Effect.rewrites_commitment, row, same]
  · rw [row]
    cases effect with
    | updateDebug packageId newest builtWith =>
      simp only [Effect.rewrites, withDebugAt]
      split_ifs with own
      · rw [undisturbed_record careful member own] at stored
        exact stored
      · exact recorded
    | _ => exact recorded

theorem TxStep.careful {input : VerifyInput} {work : Work} {pc after : TxPc}
    (tx : TxStep p world input work pc (.go effect after)) : effect.Careful commitmentOf world := by
  cases tx with
  | packageInserted => rfl
  | packageConflict | packageFound | packageGone | accountFound | accountAbsent | accountInserted
  | componentFound | componentAbsent | componentInserted | noteFound | noteAbsent | noteInserted =>
    trivial

theorem CallStep.careful {call after : Call} (stepped : CallStep p world call effect after)
    (stays : call.isCleanup = false)
    (undisturbed : ∀ write, call.debugWrite = some write →
      write.undisturbed commitmentOf world = true) : effect.Careful commitmentOf world := by
  cases stepped with
  | cleanup => cases stays
  | download => trivial
  | verify verifies =>
    cases verifies with
    | goes tx => exact tx.careful
    | storesDebug => exact undisturbed _ rfl
    | updatesDebug => exact undisturbed _ rfl
    | found | missed | stores | begins | commits | aborts => trivial

theorem FailStep.careful {call after : Call} (failed : FailStep call effect after) :
    effect.Careful commitmentOf world := by
  cases failed <;> trivial

variable (commitmentOf) in
/-- The row a download of a debug build has read still records it, and what one has answered is the
build its header names. -/
def Call.Reads (world : World) : Call → Prop
  | .download file (.getting commitment variant dbPackage) =>
    parseMaspKey file = some (commitment, variant) ∧
      (variant = .debug → ∃ debugCommitment,
        debugCommitmentOf variant dbPackage = some debugCommitment ∧
          world.Records commitment debugCommitment)
  | .download file (.ended (.ok answer)) => ∀ commitment,
      parseMaspKey file = some (commitment, .debug) →
        answer.debugCommitment = some (commitmentOf answer.masp)
  | _ => True

theorem Call.Reads.mono {call : Call} {later : World} (reads : call.Reads commitmentOf world)
    (records : ∀ commitment debugCommitment, world.Records commitment debugCommitment →
      later.Records commitment debugCommitment) : call.Reads commitmentOf later := by
  cases call with
  | verify | cleanup => trivial
  | download file pc =>
    cases pc with
    | reading => trivial
    | getting commitment variant dbPackage =>
      obtain ⟨parsed, recorded⟩ := reads
      refine ⟨parsed, fun debug => ?_⟩
      obtain ⟨debugCommitment, read, row⟩ := recorded debug
      exact ⟨debugCommitment, read, records commitment debugCommitment row⟩
    | ended answer =>
      cases answer with
      | error => trivial
      | ok answer => exact reads

theorem DownloadPc.reads {file : String} {pc after : DownloadPc}
    (matched : world.Matched commitmentOf) (reads : (Call.download file pc).Reads commitmentOf world)
    (taken : pc.next world file = some (.idle, after)) :
    (Call.download file after).Reads commitmentOf world := by
  cases pc with
  | ended answer => cases taken
  | reading =>
    simp only [DownloadPc.next] at taken
    split at taken
    · obtain ⟨-, rfl⟩ := Prod.mk.inj (Option.some.inj taken)
      trivial
    · rename_i commitment variant parsed
      split_ifs at taken with unrecorded
      · obtain ⟨-, rfl⟩ := Prod.mk.inj (Option.some.inj taken)
        trivial
      · obtain ⟨-, rfl⟩ := Prod.mk.inj (Option.some.inj taken)
        refine ⟨parsed, ?_⟩
        rintro rfl
        obtain ⟨debugCommitment, read⟩ := Option.ne_none_iff_exists'.mp (by simpa using unrecorded)
        obtain ⟨row, found, records⟩ := Option.bind_eq_some_iff.mp read
        obtain ⟨member, same⟩ := Tables.find?_key_eq_some found
        obtain ⟨version, inside, rfl, committed⟩ := mem_committed.mp member
        exact ⟨debugCommitment, read, version, inside, committed, same, records⟩
  | getting commitment variant dbPackage =>
    obtain ⟨parsed, recorded⟩ := reads
    simp only [DownloadPc.next] at taken
    split at taken
    · obtain ⟨-, rfl⟩ := Prod.mk.inj (Option.some.inj taken)
      trivial
    · rename_i masp found
      obtain ⟨-, rfl⟩ := Prod.mk.inj (Option.some.inj taken)
      intro asked key
      obtain ⟨rfl, rfl⟩ := Prod.mk.inj (Option.some.inj (parsed.symm.trans key))
      obtain ⟨debugCommitment, read, version, inside, _, same, records⟩ := recorded rfl
      have stored := matched.stored version inside debugCommitment records
      rw [same, found, Option.map_some] at stored
      exact read.trans stored.symm

section

variable (commitmentOf)

/-- api-compile answers a debug build with the commitment of the package its artifact holds. -/
def DebugBuild.genuine : DebugBuild → Bool
  | .built masp commitment _ => commitment = commitmentOf masp
  | .failed _ => true

def BuildAction.genuine : BuildAction → Bool
  | .registry (.start _ .cleanup) => false
  | .registry (.answer _ (.ok build)) => build.debug.all (DebugBuild.genuine commitmentOf)
  | .answer _ (.ok debug) => DebugBuild.genuine commitmentOf debug
  | _ => true

def BuildState.undisturbed (state : BuildState) : BuildAction → Bool
  | .registry (.advance p) =>
    ((state.registry.calls p).bind Call.debugWrite).all
      (·.undisturbed commitmentOf state.registry.world)
  | .advance p =>
    ((state.backfills p).bind (·.pc.debugWrite)).all
      (·.undisturbed commitmentOf state.registry.world)
  | _ => true

/-- A row and the debug artifact stored for it are of one debug build, and so are the header and the
body of every answer. -/
structure BuildState.Agrees (state : BuildState) : Prop where
  rows : ∀ row ∈ Versions.committed state.registry.world.packages, ∀ debugCommitment,
    row.debugCommitment = some debugCommitment →
      (state.registry.world.store.get row.commitment .debug).map commitmentOf = some debugCommitment
  answers : ∀ q file commitment download,
    state.registry.calls q = some (.download file (.ended (.ok download))) →
      parseMaspKey file = some (commitment, .debug) →
        download.debugCommitment = some (commitmentOf download.masp)

structure BuildState.Matched (state : BuildState) : Prop where
  world : state.registry.world.Matched commitmentOf
  stays : ∀ q call, state.registry.calls q = some call → call.isCleanup = false
  reads : ∀ q call, state.registry.calls q = some call →
    call.Reads commitmentOf state.registry.world

end

theorem BuildState.Matched.agrees {state : BuildState} (matched : state.Matched commitmentOf) :
    state.Agrees commitmentOf where
  rows row member debugCommitment records := by
    obtain ⟨version, inside, rfl, _⟩ := mem_committed.mp member
    exact matched.world.stored version inside debugCommitment records
  answers q file commitment download called := matched.reads q _ called commitment

theorem BuildState.Matched.call {state : BuildState} {after : Call}
    (matched : state.Matched commitmentOf)
    (careful : effect.Careful commitmentOf state.registry.world) (stays : after.isCleanup = false)
    (reads : after.Reads commitmentOf (effect.apply p state.registry.world)) :
    ({ state with registry := state.registry.take p effect after } : BuildState).Matched
      commitmentOf where
  world := matched.world.apply careful
  stays q call called := by
    by_cases own : q = p
    · rw [own, take_calls_self] at called
      exact Option.some.inj called ▸ stays
    · rw [take_calls_other _ _ _ _ own] at called
      exact matched.stays q call called
  reads q call called := by
    by_cases own : q = p
    · rw [own, take_calls_self] at called
      exact Option.some.inj called ▸ reads
    · rw [take_calls_other _ _ _ _ own] at called
      exact (matched.reads q call called).mono fun _ _ records =>
        records.apply matched.world careful

theorem BuildState.Matched.backfill {state : BuildState} {backfill : Backfill} {later : World}
    (matched : state.Matched commitmentOf) (kept : later.Matched commitmentOf)
    (records : ∀ commitment debugCommitment,
      state.registry.world.Records commitment debugCommitment →
        later.Records commitment debugCommitment) :
    (state.take p later backfill).Matched commitmentOf where
  world := kept
  stays := matched.stays
  reads q call called := (matched.reads q call called).mono records

theorem BuildState.Matched.registry {state : BuildState} {action : Action} {next : State}
    (matched : state.Matched commitmentOf)
    (genuine : (BuildAction.registry action).genuine commitmentOf = true)
    (undisturbed : state.undisturbed commitmentOf (.registry action) = true)
    (taken : step state.registry action = some next) :
    ({ state with registry := next } : BuildState).Matched commitmentOf := by
  cases step_cases taken with
  | starts fresh =>
    rename_i q request
    cases request with
    | cleanup => cases genuine
    | verify input => exact matched.call trivial rfl trivial
    | download file => exact matched.call trivial rfl trivial
  | answered called => exact matched.call trivial rfl trivial
  | advances called stepped =>
    have stays := matched.stays _ _ called
    refine matched.call (stepped.careful stays ?_) (stepped.isCleanup_eq.trans stays) ?_
    · intro write writes
      simpa [BuildState.undisturbed, called, writes] using undisturbed
    · cases stepped with
      | verify => trivial
      | cleanup => cases stays
      | download downloads =>
        exact DownloadPc.reads matched.world (matched.reads _ _ called) downloads
  | fails called failed =>
    refine matched.call failed.careful (failed.isCleanup_eq.trans (matched.stays _ _ called)) ?_
    cases failed <;> trivial
  | ticks =>
    exact ⟨⟨matched.world.settled, matched.world.stored⟩, matched.stays,
      fun q call called => (matched.reads q call called).mono fun _ _ records => records⟩

theorem withEntrypointAt_keeps (packageId : RowId) (entrypoint : String) (now : Time)
    (row : PackageRow) :
    (withEntrypointAt packageId entrypoint now row).commitment = row.commitment ∧
      (withEntrypointAt packageId entrypoint now row).debugCommitment = row.debugCommitment := by
  unfold withEntrypointAt
  split <;> exact ⟨rfl, rfl⟩

theorem World.Matched.withEntrypoint (matched : world.Matched commitmentOf) (packageId : RowId)
    (entrypoint : String) (now : Time) :
    ({ world with packages := update (withEntrypointAt packageId entrypoint now) world.packages } :
      World).Matched commitmentOf where
  settled version member q := by
    obtain ⟨old, inside, _, status⟩ := mem_update member
    rw [status]
    exact matched.settled old inside q
  stored version member debugCommitment records := by
    obtain ⟨old, inside, same, _⟩ := mem_update member
    obtain ⟨commitment, recorded⟩ := withEntrypointAt_keeps packageId entrypoint now old.row
    rw [← same, recorded] at records
    rw [← same, commitment]
    exact matched.stored old inside debugCommitment records

theorem World.Records.withEntrypoint {commitment debugCommitment : Word}
    (records : world.Records commitment debugCommitment) (packageId : RowId) (entrypoint : String)
    (now : Time) :
    ({ world with packages := update (withEntrypointAt packageId entrypoint now) world.packages } :
      World).Records commitment debugCommitment := by
  obtain ⟨version, member, committed, same, recorded⟩ := records
  obtain ⟨kept, unchanged⟩ := withEntrypointAt_keeps packageId entrypoint now version.row
  exact ⟨⟨withEntrypointAt packageId entrypoint now version.row, version.status⟩,
    List.mem_map.mpr ⟨version, member, rfl⟩, committed, kept.trans same, unchanged.trans recorded⟩

variable {parse : String → Option (List (String × Json))}

theorem BackfillPc.next_matched {commitment : String} {pc after : BackfillPc} {later : World}
    (matched : world.Matched commitmentOf)
    (undisturbed : ∀ write, pc.debugWrite = some write →
      write.undisturbed commitmentOf world = true)
    (taken : pc.next parse p world commitment = some (later, after)) :
    later.Matched commitmentOf ∧ ∀ commitment debugCommitment,
      world.Records commitment debugCommitment → later.Records commitment debugCommitment := by
  cases pc with
  | reading =>
    obtain ⟨rfl, -⟩ := Prod.mk.inj (Option.some.inj taken)
    exact ⟨matched, fun _ _ records => records⟩
  | building => cases taken
  | ended => cases taken
  | storingDebug root dbPackage entrypoint masp debugCommitment builtWith =>
    obtain ⟨rfl, -⟩ := Prod.mk.inj (Option.some.inj taken)
    have careful : (Effect.put root masp .debug).Careful commitmentOf world := undisturbed _ rfl
    exact ⟨matched.apply careful, fun _ _ records => records.apply matched careful⟩
  | updatingDebug dbPackage entrypoint debugCommitment builtWith =>
    simp only [BackfillPc.next] at taken
    split at taken
    · cases taken
    · obtain ⟨rfl, -⟩ := Prod.mk.inj (Option.some.inj taken)
      have careful : (Effect.updateDebug dbPackage.id debugCommitment builtWith).Careful
        commitmentOf world := undisturbed _ rfl
      exact ⟨matched.apply careful, fun _ _ records => records.apply matched careful⟩
  | updatingEntrypoint dbPackage entrypoint debugCommitment =>
    simp only [BackfillPc.next] at taken
    split at taken
    · cases taken
    · obtain ⟨rfl, -⟩ := Prod.mk.inj (Option.some.inj taken)
      exact ⟨matched.withEntrypoint dbPackage.id entrypoint world.clock,
        fun _ _ records => records.withEntrypoint dbPackage.id entrypoint world.clock⟩

theorem BuildState.Matched.step {state next : BuildState} {action : BuildAction}
    (matched : state.Matched commitmentOf) (genuine : action.genuine commitmentOf = true)
    (undisturbed : state.undisturbed commitmentOf action = true)
    (taken : buildStep parse state action = some next) : next.Matched commitmentOf := by
  cases action with
  | registry action =>
    simp only [buildStep] at taken
    split at taken
    · cases taken
    · obtain ⟨registry, ran, rfl⟩ := Option.map_eq_some_iff.mp taken
      exact matched.registry genuine undisturbed ran
  | post q commitment =>
    simp only [buildStep] at taken
    split at taken
    · obtain rfl := Option.some.inj taken
      exact matched.backfill matched.world fun _ _ records => records
    · cases taken
  | answer q debug =>
    simp only [buildStep] at taken
    split at taken
    · obtain rfl := Option.some.inj taken
      exact matched.backfill matched.world fun _ _ records => records
    · cases taken
  | advance q =>
    simp only [buildStep] at taken
    split at taken
    · rename_i backfill called
      obtain ⟨⟨later, after⟩, ran, rfl⟩ := Option.map_eq_some_iff.mp taken
      obtain ⟨kept, records⟩ := BackfillPc.next_matched matched.world
        (fun write writes => by simpa [BuildState.undisturbed, called, writes] using undisturbed) ran
      exact matched.backfill kept records
    · cases taken
  | fail q =>
    simp only [buildStep] at taken
    split at taken
    · obtain ⟨after, _, rfl⟩ := Option.map_eq_some_iff.mp taken
      exact matched.backfill matched.world fun _ _ records => records
    · cases taken

end

theorem run_debug_builds_agree (commitmentOf : Masp → Word)
    (parse : String → Option (List (String × Json))) (actions : List BuildAction) (state : BuildState)
    (run : Run (buildStep parse)
      (fun state action => action.genuine commitmentOf = true ∧
        state.undisturbed commitmentOf action = true)
      BuildState.initial actions state) :
    state.Agrees commitmentOf := by
  have matched : state.Matched commitmentOf := by
    refine run.always (·.Matched commitmentOf) ?_ ?_
    · constructor
      · constructor <;> simp [BuildState.initial, State.initial, World.empty]
      · simp [BuildState.initial, State.initial]
      · simp [BuildState.initial, State.initial]
    · intro before action after matched meets taken
      exact matched.step meets.1 meets.2 taken
  exact matched.agrees

def firstDebug : Word :=
  ⟨"0x6666666666666666666666666666666666666666666666666666666666666666", by decide⟩

def secondDebug : Word :=
  ⟨"0x7777777777777777777777777777777777777777777777777777777777777777", by decide⟩

def builtCommitment (masp : Masp) : Word :=
  if masp = [2] then firstDebug else secondDebug

def debuggedBuild : VerifyResponse :=
  { verifiedBuild counterCode counterCommitment [1] with debug := some (.built [2] firstDebug none) }

def debugFile : String := maspKey counterCommitment.text .debug

def downloadsDebug (p : Pid) : List BuildAction :=
  ([Action.start p (.download debugFile)] ++ advances p 2).map BuildAction.registry

def overtaken : List BuildAction :=
  (verifies 0 "miden-verify" debuggedBuild 9).map BuildAction.registry ++
    [.post 1 counterCommitment.text, .advance 1, .answer 1 (.ok (.built [3] secondDebug none)),
      .registry (.advance 0), .advance 1, .advance 1, .registry (.advance 0)] ++
    downloadsDebug 2

def inTurn : List BuildAction :=
  (verifies 0 "miden-verify" debuggedBuild 11).map BuildAction.registry ++
    [.post 1 counterCommitment.text, .advance 1] ++ downloadsDebug 2

def BuildState.headerOf (state : BuildState) (q : Pid) : Option (String × Option Word × Masp) :=
  match state.registry.calls q with
  | some (.download file (.ended (.ok download))) => some (file, download.debugCommitment, download.masp)
  | _ => none

theorem BuildState.called_of_headerOf {state : BuildState} {q : Pid} {file : String}
    {header : Option Word} {masp : Masp} (answered : state.headerOf q = some (file, header, masp)) :
    ∃ download, state.registry.calls q = some (.download file (.ended (.ok download))) ∧
      download.debugCommitment = header ∧ download.masp = masp := by
  unfold headerOf at answered
  split at answered
  · rename_i download called
    cases answered
    exact ⟨download, called, rfl, rfl⟩
  · cases answered

theorem header_names_other_build :
    ¬ ∀ (commitmentOf : Masp → Word) (parse : String → Option (List (String × Json)))
      (actions : List BuildAction) (state : BuildState),
      Run (buildStep parse) (fun _ action => action.genuine commitmentOf = true)
          BuildState.initial actions state →
        state.Agrees commitmentOf := by
  intro agrees
  have ran : (exec (buildStep fun _ => none) (fun _ action => action.genuine builtCommitment)
      BuildState.initial overtaken).any (fun state =>
        state.headerOf 2 = some (debugFile, some firstDebug, [3])) = true := by decide +kernel
  obtain ⟨state, reached, shown⟩ := exists_run_of_exec (fun _ _ genuine => genuine) ran
  obtain ⟨download, called, header, body⟩ := BuildState.called_of_headerOf (of_decide_eq_true shown)
  have named := (agrees builtCommitment _ _ _ reached).answers 2 debugFile counterCommitment download
    called (by decide)
  rw [header, body] at named
  exact absurd named (by decide)

theorem counter_debug_builds_agree : ∃ state : BuildState, state.Agrees builtCommitment ∧
    state.headerOf 2 = some (debugFile, some firstDebug, [2]) := by
  have ran : (exec (buildStep fun _ => none) (fun state action =>
      action.genuine builtCommitment && state.undisturbed builtCommitment action)
      BuildState.initial inTurn).any (fun state =>
        state.headerOf 2 = some (debugFile, some firstDebug, [2])) = true := by decide +kernel
  obtain ⟨state, reached, shown⟩ := exists_run_of_exec
    (fun _ _ meets => Bool.and_eq_true_iff.mp meets) ran
  exact ⟨state, run_debug_builds_agree builtCommitment _ _ state reached, of_decide_eq_true shown⟩

end SourceVerification.Concurrent
