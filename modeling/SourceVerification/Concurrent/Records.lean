import SourceVerification.Concurrent.Machine

set_option autoImplicit false

namespace SourceVerification.Concurrent

open Registry Versions Runs Compile

structure World.Sound (world : World) : Prop where
  packages : Numbered PackageRow.id world.nextId world.packages
  accounts : Numbered AccountRow.id world.nextId world.accounts
  underAccounts : Referential AccountRow.id ComponentRow.verifiedAccountId world.accounts world.components
  ofPackages : Referential PackageRow.id ComponentRow.packageId world.packages world.components
  notesOfPackages : Referential PackageRow.id NoteRow.packageId world.packages world.notes

def Effect.Guarded (p : Pid) (world : World) : Effect → Prop
  | .insertPackage row => row.id = world.nextId
  | .insertAccount row => row.id = world.nextId
  | .insertComponent row => hasParent p world.accounts AccountRow.id row.verifiedAccountId = true ∧
      hasParent p world.packages PackageRow.id row.packageId = true
  | .insertNote row => hasParent p world.packages PackageRow.id row.packageId = true
  | .deleteComponents rows => held p world.components (· ∈ rows) = false
  | .deleteNotes rows => held p world.notes (· ∈ rows) = false
  | .deleteAccounts ids => held p world.accounts (·.id ∈ ids) = false ∧
      held p world.components (·.verifiedAccountId ∈ ids) = false
  | .deletePackages ids => held p world.packages (·.id ∈ ids) = false ∧
      held p world.components (·.packageId ∈ ids) = false ∧
      held p world.notes (·.packageId ∈ ids) = false
  | _ => True

theorem TxStep.guarded {p : Pid} {world : World} {input : VerifyInput} {work : Work} {pc after : TxPc}
    {effect : Effect} (tx : TxStep p world input work pc (.go effect after)) :
    effect.Guarded p world := by
  cases tx with
  | packageInserted | accountInserted => rfl
  | componentInserted account package => exact ⟨account, package⟩
  | noteInserted _ _ package => exact package
  | packageConflict | packageFound | packageGone | accountFound | accountAbsent | componentFound
  | componentAbsent | noteFound | noteAbsent => trivial

theorem CallStep.guarded {p : Pid} {world : World} {call after : Call} {effect : Effect}
    (stepped : CallStep p world call effect after) : effect.Guarded p world := by
  cases stepped with
  | download => trivial
  | cleanup cleans =>
    cases cleans with
    | deletesComponents free | deletesNotes free => exact free
    | deletesAccounts accountsFree componentsFree => exact ⟨accountsFree, componentsFree⟩
    | deletesPackages packagesFree componentsFree notesFree =>
      exact ⟨packagesFree, componentsFree, notesFree⟩
    | reads | commits | removes | ends => trivial
  | verify verifies =>
    cases verifies with
    | goes tx => exact tx.guarded
    | found | missed | stores | begins | commits | aborts | storesDebug | updatesDebug => trivial

theorem FailStep.guarded {p : Pid} {world : World} {call after : Call} {effect : Effect}
    (failed : FailStep call effect after) : effect.Guarded p world := by
  cases failed <;> trivial

theorem hasParent_supports {Row : Type} {p : Pid} {table : Table Pid Row} {id : Row → RowId}
    {reference : RowId} (present : hasParent p table id reference = true) :
    ∃ parent ∈ table, id parent.row = reference ∧ parent.status.supports (.pending p) := by
  obtain ⟨parent, inside, found⟩ := List.any_eq_true.mp present
  obtain ⟨same, status⟩ := of_decide_eq_true found
  refine ⟨parent, inside, same, ?_⟩
  rcases status with status | status
  · rw [status]
    trivial
  · rw [status]
    rfl

namespace World.Sound

variable {p : Pid} {world : World} {effect : Effect}

theorem apply_underAccounts (sound : world.Sound) (guarded : effect.Guarded p world) :
    Referential AccountRow.id ComponentRow.verifiedAccountId (effect.apply p world).accounts
      (effect.apply p world).components := by
  have refers := sound.underAccounts
  cases effect with
  | insertAccount row => exact refers.insertParent row
  | insertComponent row => exact refers.insertChild (hasParent_supports guarded.1)
  | deleteComponents rows => exact refers.deleteChildren guarded
  | deleteAccounts ids => exact refers.cascade (· ∈ ids) guarded.1 guarded.2
  | deletePackages ids => exact refers.deleteChildren guarded.2.1
  | commit => exact refers.commit p
  | rollback => exact refers.rollback p
  | idle | put | remove | insertPackage | insertNote | deleteNotes | updateDebug => exact refers

theorem apply_ofPackages (sound : world.Sound) (guarded : effect.Guarded p world) :
    Referential PackageRow.id ComponentRow.packageId (effect.apply p world).packages
      (effect.apply p world).components := by
  have refers := sound.ofPackages
  cases effect with
  | insertPackage row => exact refers.insertParent row
  | insertComponent row => exact refers.insertChild (hasParent_supports guarded.2)
  | deleteComponents rows => exact refers.deleteChildren guarded
  | deleteAccounts ids => exact refers.deleteChildren guarded.2
  | deletePackages ids => exact refers.cascade (· ∈ ids) guarded.1 guarded.2.1
  | updateDebug => exact refers.updateParents (withDebugAt_id _ _ _ _)
  | commit => exact refers.commit p
  | rollback => exact refers.rollback p
  | idle | put | remove | insertAccount | insertNote | deleteNotes => exact refers

theorem apply_notesOfPackages (sound : world.Sound) (guarded : effect.Guarded p world) :
    Referential PackageRow.id NoteRow.packageId (effect.apply p world).packages
      (effect.apply p world).notes := by
  have refers := sound.notesOfPackages
  cases effect with
  | insertPackage row => exact refers.insertParent row
  | insertNote row => exact refers.insertChild (hasParent_supports guarded)
  | deleteNotes rows => exact refers.deleteChildren guarded
  | deletePackages ids => exact refers.cascade (· ∈ ids) guarded.1 guarded.2.2
  | updateDebug => exact refers.updateParents (withDebugAt_id _ _ _ _)
  | commit => exact refers.commit p
  | rollback => exact refers.rollback p
  | idle | put | remove | insertAccount | insertComponent | deleteComponents | deleteAccounts =>
    exact refers

theorem apply (sound : world.Sound) (guarded : effect.Guarded p world) :
    (effect.apply p world).Sound where
  packages := by
    rw [Effect.packages_apply]
    refine (sound.packages.apply (effect.nextId_le_apply p world) ?_).update (Effect.rewrites_id _)
    intro row inserts
    obtain rfl := Effect.onPackages_eq_insert.mp inserts
    exact ⟨guarded, Nat.lt_succ_self _⟩
  accounts := by
    rw [Effect.accounts_apply]
    refine sound.accounts.apply (effect.nextId_le_apply p world) ?_
    intro row inserts
    obtain rfl := Effect.onAccounts_eq_insert.mp inserts
    exact ⟨guarded, Nat.lt_succ_self _⟩
  underAccounts := sound.apply_underAccounts guarded
  ofPackages := sound.apply_ofPackages guarded
  notesOfPackages := sound.apply_notesOfPackages guarded

end World.Sound

def World.PackageNamed (world : World) (id : RowId) (commitment : Word) : Prop :=
  Named PackageRow.id world.nextId world.packages id (·.commitment = commitment)

def World.AccountNamed (world : World) (id : RowId) (networkId : String) (code : Word) : Prop :=
  Named AccountRow.id world.nextId world.accounts id
    (fun row => row.networkId = networkId ∧ row.code = code)

section Names

variable {p : Pid} {world : World} {effect : Effect} {id : RowId} {commitment code : Word}
  {networkId : String}

theorem World.PackageNamed.apply (named : world.PackageNamed id commitment)
    (guarded : effect.Guarded p world) : (effect.apply p world).PackageNamed id commitment := by
  have kept : Named PackageRow.id (effect.apply p world).nextId
      (effect.onPackages.apply p world.packages) id (·.commitment = commitment) := by
    refine Named.apply named (effect.nextId_le_apply p world) ?_
    intro row inserts
    obtain rfl := Effect.onPackages_eq_insert.mp inserts
    exact guarded
  unfold World.PackageNamed
  rw [Effect.packages_apply]
  refine kept.update (Effect.rewrites_id _) ?_
  intro row same
  rw [Effect.rewrites_commitment, same]

theorem World.AccountNamed.apply (named : world.AccountNamed id networkId code)
    (guarded : effect.Guarded p world) : (effect.apply p world).AccountNamed id networkId code := by
  unfold World.AccountNamed
  rw [Effect.accounts_apply]
  refine Named.apply named (effect.nextId_le_apply p world) ?_
  intro row inserts
  obtain rfl := Effect.onAccounts_eq_insert.mp inserts
  exact guarded

end Names

def VerifyInput.OnAccount (input : VerifyInput) : Prop :=
  ∃ accountId, input.resource = .account accountId

def World.Inserted (world : World) (q : Pid) (input : VerifyInput) (work : Work)
    (packageId recordId : RowId) : Prop :=
  match input.resource with
  | .account _ => ∃ accountId, world.AccountNamed accountId input.networkId work.build.root ∧
      ⟨componentRow recordId accountId packageId work.build.commitment input.source work.began,
        .pending q⟩ ∈ world.components
  | .note _ =>
    ⟨noteRow recordId input.networkId work.build.root packageId work.build.commitment input.source
      work.began, .pending q⟩ ∈ world.notes

def TxPc.Known (q : Pid) (world : World) (input : VerifyInput) (work : Work) : TxPc → Prop
  | .insertingPackage => True
  | .findingPackage => True
  | .findingAccount packageId =>
    VerifyInput.OnAccount input ∧ world.PackageNamed packageId work.build.commitment
  | .insertingAccount packageId =>
    VerifyInput.OnAccount input ∧ world.PackageNamed packageId work.build.commitment
  | .findingComponent packageId accountId =>
    VerifyInput.OnAccount input ∧ world.PackageNamed packageId work.build.commitment ∧
      world.AccountNamed accountId input.networkId work.build.root
  | .insertingComponent packageId accountId =>
    VerifyInput.OnAccount input ∧ world.PackageNamed packageId work.build.commitment ∧
      world.AccountNamed accountId input.networkId work.build.root
  | .findingNote packageId =>
    ¬ VerifyInput.OnAccount input ∧ world.PackageNamed packageId work.build.commitment
  | .insertingNote packageId =>
    ¬ VerifyInput.OnAccount input ∧ world.PackageNamed packageId work.build.commitment
  | .committing packageId recordId =>
    world.PackageNamed packageId work.build.commitment ∧
      world.Inserted q input work packageId recordId
  | .rollingBack _ => True

def VerifyPc.Known (q : Pid) (world : World) (input : VerifyInput) : VerifyPc → Prop
  | .beginning build stored => ∀ row, stored = some row → world.PackageNamed row.id build.commitment
  | .transaction work pc => pc.Known q world input work
  | _ => True

section Knowledge

variable {p q : Pid} {world : World} {effect : Effect} {input : VerifyInput} {work : Work}

theorem World.Inserted.apply_other {packageId recordId : RowId} (differs : q ≠ p)
    (guarded : effect.Guarded p world) (inserted : world.Inserted q input work packageId recordId) :
    (effect.apply p world).Inserted q input work packageId recordId := by
  unfold World.Inserted at inserted ⊢
  split at inserted
  · obtain ⟨accountId, named, member⟩ := inserted
    refine ⟨accountId, named.apply guarded, ?_⟩
    rw [Effect.components_apply]
    exact Statement.keeps_pending differs member
  · rw [Effect.notes_apply]
    exact Statement.keeps_pending differs inserted

theorem TxPc.Known.apply_other {pc : TxPc} (differs : q ≠ p) (guarded : effect.Guarded p world)
    (known : pc.Known q world input work) : pc.Known q (effect.apply p world) input work := by
  cases pc with
  | insertingPackage | findingPackage | rollingBack => trivial
  | findingAccount | insertingAccount | findingNote | insertingNote =>
    exact ⟨known.1, known.2.apply guarded⟩
  | findingComponent | insertingComponent =>
    exact ⟨known.1, known.2.1.apply guarded, known.2.2.apply guarded⟩
  | committing => exact ⟨known.1.apply guarded, known.2.apply_other differs guarded⟩

theorem VerifyPc.Known.apply_other {pc : VerifyPc} (differs : q ≠ p) (guarded : effect.Guarded p world)
    (known : pc.Known q world input) : pc.Known q (effect.apply p world) input := by
  cases pc with
  | beginning => exact fun row same => (known row same).apply guarded
  | transaction => exact TxPc.Known.apply_other differs guarded known
  | asking | reading | storing | storingDebug | updatingDebug | unverified | returned | threw => trivial

theorem recording_known {packageId : RowId}
    (named : world.PackageNamed packageId work.build.commitment) :
    (recording input packageId).Known q world input work := by
  unfold recording
  cases resource : input.resource with
  | account accountId => exact ⟨⟨accountId, resource⟩, named⟩
  | note noteId =>
    refine ⟨?_, named⟩
    rintro ⟨accountId, same⟩
    simp [resource] at same

theorem TxStep.known {pc after : TxPc} (sound : world.Sound) (known : pc.Known p world input work)
    (tx : TxStep p world input work pc (.go effect after)) :
    after.Known p (effect.apply p world) input work := by
  have guarded := tx.guarded
  cases tx with
  | packageInserted => exact recording_known (sound.packages.named_insert rfl)
  | packageFound member same =>
    obtain ⟨version, inside, rfl, _⟩ := mem_view.mp member
    exact recording_known (sound.packages.named inside same)
  | packageConflict | packageGone | componentFound | noteFound => trivial
  | accountFound member same =>
    obtain ⟨version, inside, rfl, _⟩ := mem_view.mp member
    exact ⟨known.1, known.2, sound.accounts.named inside same⟩
  | accountInserted =>
    exact ⟨known.1, known.2.apply guarded, sound.accounts.named_insert ⟨rfl, rfl⟩⟩
  | accountAbsent | componentAbsent | noteAbsent => exact known
  | componentInserted =>
    refine ⟨known.2.1.apply guarded, ?_⟩
    obtain ⟨accountId, resource⟩ := known.1
    simp only [World.Inserted, resource]
    exact ⟨_, known.2.2.apply guarded, mem_insert.mpr (.inr rfl)⟩
  | noteInserted =>
    refine ⟨known.2.apply guarded, ?_⟩
    cases resource : input.resource with
    | account accountId => exact absurd ⟨accountId, resource⟩ known.1
    | note noteId =>
      simp only [World.Inserted, resource]
      exact mem_insert.mpr (.inr rfl)

theorem VerifyStep.known {pc after : VerifyPc} (sound : world.Sound) (known : pc.Known p world input)
    (verifies : VerifyStep p world input pc effect after) :
    after.Known p (effect.apply p world) input := by
  cases verifies with
  | found member same =>
    intro row read
    obtain rfl := Option.some.inj read
    obtain ⟨version, inside, rfl, _⟩ := mem_committed.mp member
    exact sound.packages.named inside same
  | stores =>
    intro row same
    cases same
  | begins =>
    rename_i build stored
    cases stored with
    | none => trivial
    | some row => exact recording_known (known row rfl)
  | goes tx => exact tx.known sound known
  | commits =>
    unfold recorded
    split <;> trivial
  | missed | aborts | storesDebug | updatesDebug => trivial

end Knowledge

def Call.Committing (call : Call) : Prop :=
  ∃ input work packageId recordId, call = .verify input (.transaction work (.committing packageId recordId))

def Attended {Row : Type} (calls : Pid → Option Call) (table : Table Pid Row) : Prop :=
  ∀ version ∈ table, ∀ q, version.status = .pending q →
    ∃ call, calls q = some call ∧ call.Committing

structure Sound (state : State) : Prop where
  world : state.world.Sound
  known : ∀ q input pc, state.calls q = some (.verify input pc) → pc.Known q state.world input
  components : Attended state.calls state.world.components
  notes : Attended state.calls state.world.notes

theorem Attended.apply {Row : Type} {state : State} {p : Pid} {effect : Effect} {after : Call}
    {table : Table Pid Row} {statement : Statement Row} (attended : Attended state.calls table)
    (inserts : ∀ row, statement = .insert row → after.Committing)
    (settles : ∀ call, state.calls p = some call → call.Committing → statement.ends = true) :
    Attended (state.take p effect after).calls (statement.apply p table) := by
  intro version member q owned
  rcases Statement.origin member with ⟨row, inserted, rfl⟩ | ⟨old, inside, _, origin⟩
  · obtain rfl : p = q := Status.pending.inj owned
    exact ⟨after, take_calls_self .., inserts row inserted⟩
  · rcases origin with ⟨kept, free⟩ | ⟨settled, _⟩ | ⟨_, _, _, _, deleting⟩
    · obtain ⟨call, called, committing⟩ := attended old inside q (kept ▸ owned)
      by_cases own : q = p
      · subst own
        exact absurd owned (free (settles call called committing)).1
      · exact ⟨call, (take_calls_other _ _ _ _ own).trans called, committing⟩
    · simp [owned] at settled
    · simp [owned] at deleting

structure Recording (p : Pid) (world : World) (before : Option Call) (effect : Effect) (after : Call) :
    Prop where
  guarded : effect.Guarded p world
  known : ∀ input pc, after = .verify input pc → pc.Known p (effect.apply p world) input
  inserts : (∃ row, effect = .insertComponent row) ∨ (∃ row, effect = .insertNote row) →
    after.Committing
  settles : ∀ call, before = some call → call.Committing → effect.ends = true

theorem Sound.take {state : State} {p : Pid} {effect : Effect} {after : Call} (sound : Sound state)
    (recording : Recording p state.world (state.calls p) effect after) :
    Sound (state.take p effect after) := by
  constructor
  · exact sound.world.apply recording.guarded
  · intro q input pc called
    by_cases own : q = p
    · subst own
      rw [take_calls_self] at called
      exact recording.known input pc (Option.some.inj called)
    · rw [take_calls_other _ _ _ _ own] at called
      exact (sound.known q input pc called).apply_other own recording.guarded
  · rw [take_world, Effect.components_apply]
    refine sound.components.apply ?_ ?_
    · intro row inserts
      exact recording.inserts (.inl ⟨row, Effect.onComponents_eq_insert.mp inserts⟩)
    · intro call called committing
      exact Effect.onComponents_ends.trans (recording.settles call called committing)
  · rw [take_world, Effect.notes_apply]
    refine sound.notes.apply ?_ ?_
    · intro row inserts
      exact recording.inserts (.inr ⟨row, Effect.onNotes_eq_insert.mp inserts⟩)
    · intro call called committing
      exact Effect.onNotes_ends.trans (recording.settles call called committing)

theorem TxStep.recording {p : Pid} {world : World} {input : VerifyInput} {work : Work} {pc after : TxPc}
    {effect : Effect} (sound : world.Sound) (known : pc.Known p world input work)
    (tx : TxStep p world input work pc (.go effect after)) :
    Recording p world (some (.verify input (.transaction work pc))) effect
      (.verify input (.transaction work after)) where
  guarded := tx.guarded
  known _ _ same := by
    cases same
    exact tx.known sound known
  inserts inserted := by
    cases tx with
    | componentInserted | noteInserted => exact ⟨_, _, _, _, rfl⟩
    | _ => simp at inserted
  settles call same committing := by
    obtain ⟨_, _, _, _, rfl⟩ := committing
    cases same
    cases tx

theorem VerifyStep.recording {p : Pid} {world : World} {input : VerifyInput} {pc after : VerifyPc}
    {effect : Effect} (sound : world.Sound) (known : pc.Known p world input)
    (verifies : VerifyStep p world input pc effect after) :
    Recording p world (some (.verify input pc)) effect (.verify input after) := by
  have learned := verifies.known sound known
  have guarded := (CallStep.verify verifies).guarded
  cases verifies with
  | goes tx => exact tx.recording sound known
  | commits | aborts =>
    exact ⟨guarded, fun _ _ same => by cases same; exact learned, by simp, fun _ _ _ => rfl⟩
  | found | missed | stores | begins | storesDebug | updatesDebug =>
    refine ⟨guarded, fun _ _ same => by cases same; exact learned, by simp, ?_⟩
    rintro call same ⟨_, _, _, _, rfl⟩
    cases same

theorem CallStep.recording {state : State} {p : Pid} {call after : Call} {effect : Effect}
    (sound : Sound state) (called : state.calls p = some call)
    (stepped : CallStep p state.world call effect after) :
    Recording p state.world (some call) effect after := by
  have guarded := stepped.guarded
  cases stepped with
  | verify verifies => exact verifies.recording sound.world (sound.known p _ _ called)
  | cleanup cleans =>
    refine ⟨guarded, by simp, ?_, ?_⟩
    · cases cleans <;> simp
    · rintro call same ⟨_, _, _, _, rfl⟩
      cases same
  | download =>
    refine ⟨guarded, by simp, by simp, ?_⟩
    rintro call same ⟨_, _, _, _, rfl⟩
    cases same

theorem FailStep.recording {p : Pid} {world : World} {call after : Call} {effect : Effect}
    (failed : FailStep call effect after) : Recording p world (some call) effect after := by
  have guarded : effect.Guarded p world := failed.guarded
  cases failed with
  | before outside =>
    refine ⟨guarded, fun _ _ same => by cases same; trivial, by simp, ?_⟩
    rintro call same ⟨_, work, _, _, rfl⟩
    exact absurd (Call.verify.inj (Option.some.inj same)).2 (outside work _)
  | inside => exact ⟨guarded, fun _ _ same => by cases same; trivial, by simp, fun _ _ _ => rfl⟩
  | storingDebug | updatingDebug =>
    refine ⟨guarded, fun _ _ same => by cases same; trivial, by simp, ?_⟩
    rintro call same ⟨_, _, _, _, rfl⟩
    cases same
  | cleaning | removing | downloading =>
    refine ⟨guarded, by simp, by simp, ?_⟩
    rintro call same ⟨_, _, _, _, rfl⟩
    cases same

theorem Sound.step {state next : State} {action : Action} (sound : Sound state)
    (taken : step state action = some next) : Sound next := by
  cases step_cases taken with
  | starts fresh =>
    rename_i p request
    refine sound.take ⟨trivial, ?_, by simp, by simp [fresh]⟩
    intro input pc same
    cases request with
    | verify => cases same; trivial
    | cleanup | download => cases same
  | answered called =>
    rename_i p input answer
    refine sound.take ⟨trivial, ?_, by simp, ?_⟩
    · intro input pc same
      cases same
      unfold VerifyPc.answered
      split
      · trivial
      · split_ifs <;> trivial
    · rintro call same ⟨_, _, _, _, rfl⟩
      simp [called] at same
  | advances called stepped => exact sound.take (called ▸ stepped.recording sound called)
  | fails called failed => exact sound.take (called ▸ failed.recording)
  | ticks =>
    obtain ⟨packages, accounts, underAccounts, ofPackages, notesOfPackages⟩ := sound.world
    exact ⟨⟨packages, accounts, underAccounts, ofPackages, notesOfPackages⟩, sound.known,
      sound.components, sound.notes⟩

theorem sound_initial : Sound State.initial := by
  constructor
  · constructor <;> simp [State.initial, World.empty, Referential] <;> constructor <;> simp
  · simp [State.initial]
  · simp [State.initial, World.empty, Attended]
  · simp [State.initial, World.empty, Attended]

theorem run_sound {allowed : State → Action → Prop} {actions : List Action} {state : State}
    (run : Run step allowed State.initial actions state) : Sound state :=
  run.always Sound sound_initial fun _ _ _ sound _ => sound.step

end SourceVerification.Concurrent
