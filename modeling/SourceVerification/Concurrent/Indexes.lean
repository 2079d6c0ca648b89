import SourceVerification.Concurrent.Machine

set_option autoImplicit false

namespace SourceVerification.Concurrent

open Registry Versions Runs Compile

def Call.isCleanup : Call → Bool
  | .cleanup _ _ => true
  | _ => false

def Effect.deletes : Effect → Bool
  | .deleteComponents _ => true
  | .deleteNotes _ => true
  | .deleteAccounts _ => true
  | .deletePackages _ => true
  | _ => false

theorem CallStep.isCleanup_eq {p : Pid} {world : World} {call after : Call} {effect : Effect}
    (stepped : CallStep p world call effect after) : after.isCleanup = call.isCleanup := by
  cases stepped <;> rfl

theorem FailStep.isCleanup_eq {call after : Call} {effect : Effect}
    (failed : FailStep call effect after) : after.isCleanup = call.isCleanup := by
  cases failed <;> rfl

theorem CallStep.deletes_cleanup {p : Pid} {world : World} {call after : Call} {effect : Effect}
    (stepped : CallStep p world call effect after) (deletes : effect.deletes = true) :
    after.isCleanup = true := by
  cases stepped with
  | cleanup => rfl
  | download => cases deletes
  | verify verifies =>
    cases verifies with
    | goes tx => cases tx <;> cases deletes
    | found | missed | stores | begins | commits | aborts | storesDebug | updatesDebug => cases deletes

theorem FailStep.deletes_nothing {call after : Call} {effect : Effect}
    (failed : FailStep call effect after) : effect.deletes = false := by
  cases failed <;> rfl

def Swept {Row : Type} (calls : Pid → Option Call) (table : Table Pid Row) : Prop :=
  ∀ version ∈ table, ∀ q, version.status = .deleting q →
    ∃ call, calls q = some call ∧ call.isCleanup = true

theorem Swept.apply {Row : Type} {state : State} {p : Pid} {effect : Effect} {after : Call}
    {table : Table Pid Row} {statement : Statement Row} (swept : Swept state.calls table)
    (deletes : ∀ doomed, statement = .delete doomed → after.isCleanup = true)
    (stays : ∀ call, state.calls p = some call → after.isCleanup = call.isCleanup) :
    Swept (state.take p effect after).calls (statement.apply p table) := by
  intro version member q doomed
  rcases Statement.origin member with ⟨row, inserted, rfl⟩ | ⟨old, inside, _, origin⟩
  · cases doomed
  · rcases origin with ⟨kept, _⟩ | ⟨settled, _⟩ | ⟨wanted, deleted, _, _, deleting⟩
    · obtain ⟨call, called, cleans⟩ := swept old inside q (kept ▸ doomed)
      by_cases own : q = p
      · subst own
        exact ⟨after, take_calls_self .., (stays call called).trans cleans⟩
      · exact ⟨call, (take_calls_other _ _ _ _ own).trans called, cleans⟩
    · simp [doomed] at settled
    · obtain rfl : p = q := Status.deleting.inj (deleting.symm.trans doomed)
      exact ⟨after, take_calls_self .., deletes wanted deleted⟩

def accountKey (row : AccountRow) : String × Word := (row.networkId, row.code)

def noteKey (row : NoteRow) : String × Word := (row.networkId, row.script)

structure Indexed (state : State) : Prop where
  commitments : (state.world.packages.map fun version => version.row.commitment).Nodup
  codes : (state.world.accounts.map fun version => accountKey version.row).Nodup
  scripts : (state.world.notes.map fun version => noteKey version.row).Nodup
  packages : Swept state.calls state.world.packages
  accounts : Swept state.calls state.world.accounts
  notes : Swept state.calls state.world.notes

structure Effect.Fresh (world : World) (effect : Effect) : Prop where
  package : ∀ row, effect = .insertPackage row →
    ∀ version ∈ world.packages, version.row.commitment ≠ row.commitment
  account : ∀ row, effect = .insertAccount row →
    ∀ version ∈ world.accounts, accountKey version.row ≠ accountKey row
  note : ∀ row, effect = .insertNote row → ∀ version ∈ world.notes, noteKey version.row ≠ noteKey row

theorem Indexed.take {state : State} {p : Pid} {effect : Effect} {after : Call} (indexed : Indexed state)
    (fresh : effect.Fresh state.world) (deletes : effect.deletes = true → after.isCleanup = true)
    (stays : ∀ call, state.calls p = some call → after.isCleanup = call.isCleanup) :
    Indexed (state.take p effect after) where
  commitments := by
    rw [take_world, Effect.packages_apply]
    have unique : ((effect.onPackages.apply p state.world.packages).map
        fun version => version.row.commitment).Nodup :=
      Statement.nodup_apply PackageRow.commitment indexed.commitments fun row inserts =>
        fresh.package row (Effect.onPackages_eq_insert.mp inserts)
    simpa [update, Function.comp_def] using unique
  codes := by
    rw [take_world, Effect.accounts_apply]
    exact Statement.nodup_apply accountKey indexed.codes fun row inserts =>
      fresh.account row (Effect.onAccounts_eq_insert.mp inserts)
  scripts := by
    rw [take_world, Effect.notes_apply]
    exact Statement.nodup_apply noteKey indexed.scripts fun row inserts =>
      fresh.note row (Effect.onNotes_eq_insert.mp inserts)
  packages := by
    rw [take_world, Effect.packages_apply]
    intro version member q doomed
    obtain ⟨old, inside, _, same⟩ := mem_update member
    refine Swept.apply indexed.packages ?_ stays old inside q (same ▸ doomed)
    intro doomed deleted
    apply deletes
    cases effect <;> simp [Effect.onPackages, Effect.deletes] at deleted ⊢
  accounts := by
    rw [take_world, Effect.accounts_apply]
    refine indexed.accounts.apply ?_ stays
    intro doomed deleted
    apply deletes
    cases effect <;> simp [Effect.onAccounts, Effect.deletes] at deleted ⊢
  notes := by
    rw [take_world, Effect.notes_apply]
    refine indexed.notes.apply ?_ stays
    intro doomed deleted
    apply deletes
    cases effect <;> simp [Effect.onNotes, Effect.deletes] at deleted ⊢

theorem Swept.undoomed {Row : Type} {calls : Pid → Option Call} {table : Table Pid Row} {p : Pid}
    {call : Call} (swept : Swept calls table) (called : calls p = some call)
    (kind : call.isCleanup = false) : ∀ version ∈ table, version.status ≠ .deleting p := by
  intro version member doomed
  obtain ⟨other, same, cleans⟩ := swept version member p doomed
  obtain rfl := Option.some.inj (called.symm.trans same)
  rw [kind] at cleans
  cases cleans

theorem TxStep.fresh {state : State} {p : Pid} {input : VerifyInput} {work : Work} {pc after : TxPc}
    {effect : Effect} (indexed : Indexed state)
    (called : state.calls p = some (.verify input (.transaction work pc)))
    (tx : TxStep p state.world input work pc (.go effect after)) : effect.Fresh state.world := by
  cases tx with
  | packageInserted free absent =>
    refine ⟨?_, by simp, by simp⟩
    rintro row same version member
    cases same
    have unwanted := unwanted_of_absent free (by simpa using absent)
      (indexed.packages.undoomed called rfl) version member
    simpa [packageRow] using unwanted
  | accountInserted free absent =>
    refine ⟨by simp, ?_, by simp⟩
    rintro row same version member
    cases same
    have unwanted := unwanted_of_absent free (by simpa using absent)
      (indexed.accounts.undoomed called rfl) version member
    simpa [accountKey, accountRow] using unwanted
  | noteInserted free absent =>
    refine ⟨by simp, by simp, ?_⟩
    rintro row same version member
    cases same
    have unwanted := unwanted_of_absent free (by simpa using absent)
      (indexed.notes.undoomed called rfl) version member
    simpa [noteKey, noteRow] using unwanted
  | packageConflict | packageFound | packageGone | accountFound | accountAbsent | componentFound
  | componentAbsent | componentInserted | noteFound | noteAbsent =>
    exact ⟨by simp, by simp, by simp⟩

theorem CallStep.fresh {state : State} {p : Pid} {call after : Call} {effect : Effect}
    (indexed : Indexed state) (called : state.calls p = some call)
    (stepped : CallStep p state.world call effect after) : effect.Fresh state.world := by
  cases stepped with
  | download => exact ⟨by simp, by simp, by simp⟩
  | cleanup cleans => cases cleans <;> exact ⟨by simp, by simp, by simp⟩
  | verify verifies =>
    cases verifies with
    | goes tx => exact tx.fresh indexed called
    | found | missed | stores | begins | commits | aborts | storesDebug | updatesDebug =>
      exact ⟨by simp, by simp, by simp⟩

theorem FailStep.fresh {world : World} {call after : Call} {effect : Effect}
    (failed : FailStep call effect after) : effect.Fresh world := by
  cases failed <;> exact ⟨by simp, by simp, by simp⟩

theorem Indexed.step {state next : State} {action : Action} (indexed : Indexed state)
    (taken : step state action = some next) : Indexed next := by
  cases step_cases taken with
  | starts fresh => exact indexed.take ⟨by simp, by simp, by simp⟩ (by simp [Effect.deletes]) (by simp [fresh])
  | answered called =>
    refine indexed.take ⟨by simp, by simp, by simp⟩ (by simp [Effect.deletes]) ?_
    intro call same
    obtain rfl := Option.some.inj (called.symm.trans same)
    rfl
  | advances called stepped =>
    refine indexed.take (stepped.fresh indexed called) stepped.deletes_cleanup ?_
    intro call same
    obtain rfl := Option.some.inj (called.symm.trans same)
    exact stepped.isCleanup_eq
  | fails called failed =>
    refine indexed.take failed.fresh (by simp [failed.deletes_nothing]) ?_
    intro call same
    obtain rfl := Option.some.inj (called.symm.trans same)
    exact failed.isCleanup_eq
  | ticks =>
    obtain ⟨commitments, codes, scripts, packages, accounts, notes⟩ := indexed
    exact ⟨commitments, codes, scripts, packages, accounts, notes⟩

theorem run_indexed {allowed : State → Action → Prop} {actions : List Action} {state : State}
    (run : Run step allowed State.initial actions state) : Indexed state := by
  refine run.always Indexed ?_ fun _ _ _ indexed _ => indexed.step
  constructor <;> simp [State.initial, World.empty, Swept]

end SourceVerification.Concurrent
