import SourceVerification.Concurrent.Indexes
import SourceVerification.Concurrent.Records

set_option autoImplicit false

namespace SourceVerification.Concurrent

open Registry Versions Runs Compile

def World.HasPackage (world : World) (id : RowId) (commitment : Word) : Prop :=
  ∃ row ∈ Versions.committed world.packages, row.id = id ∧ row.commitment = commitment

def World.HasAccount (world : World) (id : RowId) (networkId : String) (code : Word) : Prop :=
  ∃ row ∈ Versions.committed world.accounts, row.id = id ∧ accountKey row = (networkId, code)

def State.RecordCommitted (state : State) (input : VerifyInput) (build : VerifyResponse)
    (recordId : RowId) : Prop :=
  match input.resource with
  | .account _ => ∃ row ∈ Versions.committed state.world.components,
      row.id = recordId ∧ row.packageCommitment = build.commitment ∧ row.source = input.source ∧
      state.world.HasAccount row.verifiedAccountId input.networkId build.root ∧
      state.world.HasPackage row.packageId build.commitment
  | .note _ => ∃ row ∈ Versions.committed state.world.notes,
      row.id = recordId ∧ row.packageCommitment = build.commitment ∧ row.source = input.source ∧
      noteKey row = (input.networkId, build.root) ∧
      state.world.HasPackage row.packageId build.commitment

def State.AlreadyVerified (state : State) (input : VerifyInput) (build : VerifyResponse) : Prop :=
  match input.resource with
  | .account _ => ∃ row ∈ Versions.committed state.world.components,
      row.packageCommitment = build.commitment ∧
      state.world.HasAccount row.verifiedAccountId input.networkId build.root
  | .note _ => ∃ row ∈ Versions.committed state.world.notes,
      noteKey row = (input.networkId, build.root)

def alreadyVerified (input : VerifyInput) : Error :=
  match input.resource with
  | .account _ => componentAlreadyVerified
  | .note _ => noteAlreadyVerified

def Unfailing : State → Action → Prop
  | _, .fail _ => False
  | _, _ => True

/-- Nothing that the statement relies on has come or gone since an earlier one looked: the row of an
account's code or of a note that was not there, the rows a record references, the package's row that
an insert met. -/
def TxPc.Unraced (p : Pid) (world : World) (input : VerifyInput) (work : Work) : TxPc → Prop
  | .insertingAccount _ =>
    ∀ row ∈ view p world.accounts, accountKey row ≠ (input.networkId, work.build.root)
  | .insertingNote packageId =>
    (∀ row ∈ view p world.notes, noteKey row ≠ (input.networkId, work.build.root)) ∧
      hasParent p world.packages PackageRow.id packageId = true
  | .insertingComponent packageId accountId =>
    hasParent p world.accounts AccountRow.id accountId = true ∧
      hasParent p world.packages PackageRow.id packageId = true
  | .findingPackage => ∃ row ∈ view p world.packages, row.commitment = work.build.commitment
  | _ => True

def Unraced (state : State) : Action → Prop
  | .advance p => ∀ input work pc, state.calls p = some (.verify input (.transaction work pc)) →
      pc.Unraced p state.world input work
  | .fail _ => False
  | _ => True

section Endings

variable (allowed : State → Action → Prop)

def VerifyPc.EndsWell (actions : List Action) (input : VerifyInput) : VerifyPc → Prop
  | .returned build recordId =>
    Once step allowed State.initial actions (·.RecordCommitted input build recordId)
  | .threw (some build) error => error = alreadyVerified input ∧
      Once step allowed State.initial actions (·.AlreadyVerified input build)
  | _ => True

/-- Each verification that api-compile answered verified, and that has ended, has committed its record
and returned true, or has met its root already verified and thrown the 409. -/
def EndsWell (actions : List Action) (state : State) : Prop :=
  ∀ q input pc, state.calls q = some (.verify input pc) → pc.EndsWell allowed actions input

def VerifyPc.Ending (actions : List Action) (input : VerifyInput) : VerifyPc → Prop
  | .transaction work (.rollingBack error) => error = alreadyVerified input ∧
      Once step allowed State.initial actions (·.AlreadyVerified input work.build)
  | .storingDebug build _ recordId _ _ _ =>
    Once step allowed State.initial actions (·.RecordCommitted input build recordId)
  | .updatingDebug build _ recordId _ _ =>
    Once step allowed State.initial actions (·.RecordCommitted input build recordId)
  | pc => pc.EndsWell allowed actions input

end Endings

variable {allowed : State → Action → Prop} {actions : List Action}

theorem VerifyPc.Ending.later {input : VerifyInput} {pc : VerifyPc}
    (ending : pc.Ending allowed actions input) (action : Action) :
    pc.Ending allowed (actions ++ [action]) input := by
  cases pc with
  | transaction work pc =>
    cases pc with
    | rollingBack error => exact ⟨ending.1, ending.2.later action⟩
    | _ => trivial
  | storingDebug | updatingDebug | returned => exact Once.later ending action
  | threw build error =>
    cases build with
    | none => trivial
    | some build => exact ⟨ending.1, ending.2.later action⟩
  | asking | reading | storing | beginning | unverified => trivial

theorem VerifyPc.Ending.endsWell {input : VerifyInput} {pc : VerifyPc}
    (ending : pc.Ending allowed actions input) : pc.EndsWell allowed actions input := by
  cases pc with
  | returned | threw => exact ending
  | transaction | storingDebug | updatingDebug | asking | reading | storing | beginning
  | unverified => trivial

theorem supports_isCommitted {parent child : Status Pid} (supported : parent.supports child)
    (settled : child.isCommitted = true) : parent.isCommitted = true := by
  cases parent with
  | pending owner =>
    obtain rfl : child = .pending owner := supported
    cases settled
  | committed | deleting => rfl

theorem World.hasPackage_of_reference {world : World} {Row : Type} {table : Table Pid Row}
    {reference : Row → RowId} {version : Version Pid Row} {commitment : Word}
    (refers : Referential PackageRow.id reference world.packages table) (member : version ∈ table)
    (settled : version.status.isCommitted = true)
    (named : world.PackageNamed (reference version.row) commitment) :
    world.HasPackage (reference version.row) commitment := by
  obtain ⟨parent, inside, same, supported⟩ := refers version member
  exact ⟨parent.row, mem_committed.mpr ⟨parent, inside, rfl, supports_isCommitted supported settled⟩,
    same, named.holds parent inside same⟩

theorem World.Sound.hasAccount {world : World} {version : Version Pid ComponentRow}
    {networkId : String} {code : Word} (sound : world.Sound) (member : version ∈ world.components)
    (settled : version.status.isCommitted = true)
    (named : world.AccountNamed version.row.verifiedAccountId networkId code) :
    world.HasAccount version.row.verifiedAccountId networkId code := by
  obtain ⟨parent, inside, same, supported⟩ := sound.underAccounts version member
  obtain ⟨network, root⟩ := named.holds parent inside same
  exact ⟨parent.row, mem_committed.mpr ⟨parent, inside, rfl, supports_isCommitted supported settled⟩,
    same, Prod.ext network root⟩

theorem recordCommitted_commit {state : State} {p : Pid} {input : VerifyInput} {work : Work}
    {packageId recordId : RowId} {after : Call} (sound : Sound state)
    (called : state.calls p =
      some (.verify input (.transaction work (.committing packageId recordId)))) :
    (state.take p .commit after).RecordCommitted input work.build recordId := by
  obtain ⟨package, inserted⟩ := sound.known p input _ called
  have next : (Effect.commit.apply p state.world).Sound := sound.world.apply trivial
  have package : (Effect.commit.apply p state.world).PackageNamed packageId work.build.commitment :=
    package.apply trivial
  cases resource : input.resource with
  | account accountId =>
    simp only [World.Inserted, State.RecordCommitted, resource] at inserted ⊢
    obtain ⟨accountId, account, member⟩ := inserted
    have settled := mem_commit_of_pending member
    refine ⟨_, mem_committed.mpr ⟨_, settled, rfl, rfl⟩, rfl, rfl, rfl, ?_, ?_⟩
    · exact next.hasAccount settled rfl (account.apply trivial)
    · exact World.hasPackage_of_reference next.ofPackages settled rfl package
  | note noteId =>
    simp only [World.Inserted, State.RecordCommitted, resource] at inserted ⊢
    have settled := mem_commit_of_pending inserted
    refine ⟨_, mem_committed.mpr ⟨_, settled, rfl, rfl⟩, rfl, rfl, rfl, rfl, ?_⟩
    exact World.hasPackage_of_reference next.notesOfPackages settled rfl package

theorem Attended.committed_of_view {Row : Type} {calls : Pid → Option Call} {table : Table Pid Row}
    {p : Pid} {row : Row} (attended : Attended calls table)
    (outside : ∀ call, calls p = some call → ¬ call.Committing) (member : row ∈ view p table) :
    ∃ version ∈ table, version.row = row ∧ version.status.isCommitted = true := by
  obtain ⟨version, inside, same, seen⟩ := mem_view.mp member
  refine ⟨version, inside, same, ?_⟩
  cases before : version.status with
  | committed | deleting => rfl
  | pending other =>
    obtain rfl : other = p := by simpa [before, Status.seenBy] using seen
    obtain ⟨call, called, committing⟩ := attended version inside other before
    exact absurd committing (outside call called)

theorem alreadyVerified_of_component {state : State} {p : Pid} {input : VerifyInput} {work : Work}
    {packageId : RowId} {row : ComponentRow} (sound : Sound state)
    (called : state.calls p =
      some (.verify input (.transaction work (.findingComponent packageId row.verifiedAccountId))))
    (member : row ∈ view p state.world.components)
    (same : row.packageCommitment = work.build.commitment) :
    componentAlreadyVerified = alreadyVerified input ∧ state.AlreadyVerified input work.build := by
  obtain ⟨⟨accountId, resource⟩, _, account⟩ := sound.known p input _ called
  have outside : ∀ call, state.calls p = some call → ¬ call.Committing := by
    rintro call calling ⟨_, _, _, _, rfl⟩
    cases called.symm.trans calling
  obtain ⟨version, inside, rfl, settled⟩ := sound.components.committed_of_view outside member
  simp only [alreadyVerified, State.AlreadyVerified, resource, true_and]
  exact ⟨version.row, mem_committed.mpr ⟨version, inside, rfl, settled⟩, same,
    sound.world.hasAccount inside settled account⟩

theorem alreadyVerified_of_note {state : State} {p : Pid} {input : VerifyInput} {work : Work}
    {packageId : RowId} {row : NoteRow} (sound : Sound state)
    (called : state.calls p = some (.verify input (.transaction work (.findingNote packageId))))
    (member : row ∈ view p state.world.notes)
    (same : row.networkId = input.networkId ∧ row.script = work.build.root) :
    noteAlreadyVerified = alreadyVerified input ∧ state.AlreadyVerified input work.build := by
  obtain ⟨onNote, _⟩ := sound.known p input _ called
  have outside : ∀ call, state.calls p = some call → ¬ call.Committing := by
    rintro call calling ⟨_, _, _, _, rfl⟩
    cases called.symm.trans calling
  obtain ⟨version, inside, rfl, settled⟩ := sound.notes.committed_of_view outside member
  cases resource : input.resource with
  | account accountId => exact absurd ⟨accountId, resource⟩ onNote
  | note noteId =>
    simp only [alreadyVerified, State.AlreadyVerified, resource, true_and]
    exact ⟨version.row, mem_committed.mpr ⟨version, inside, rfl, settled⟩, Prod.ext same.1 same.2⟩

theorem ending_recording {input : VerifyInput} {work : Work} {packageId : RowId} :
    (VerifyPc.transaction work (recording input packageId)).Ending allowed actions input := by
  unfold recording
  split <;> trivial

theorem ending_recorded {input : VerifyInput} {work : Work} {packageId recordId : RowId}
    (committed : Once step allowed State.initial actions
      (·.RecordCommitted input work.build recordId)) :
    (recorded work packageId recordId).Ending allowed actions input := by
  unfold recorded
  split <;> exact committed

theorem TxStep.ending {state : State} {p : Pid} {input : VerifyInput} {work : Work} {pc after : TxPc}
    {effect : Effect} {action : Action} (run : Run step allowed State.initial actions state)
    (called : state.calls p = some (.verify input (.transaction work pc)))
    (unraced : pc.Unraced p state.world input work)
    (tx : TxStep p state.world input work pc (.go effect after)) :
    (VerifyPc.transaction work after).Ending allowed (actions ++ [action]) input := by
  have sound := run_sound run
  cases tx with
  | componentFound member same =>
    obtain ⟨rfl, commitment⟩ := same
    obtain ⟨error, already⟩ := alreadyVerified_of_component sound called member commitment
    exact ⟨error, (Once.now run already).later action⟩
  | noteFound member same =>
    obtain ⟨error, already⟩ := alreadyVerified_of_note sound called member same
    exact ⟨error, (Once.now run already).later action⟩
  | packageGone absent =>
    obtain ⟨row, member, same⟩ := unraced
    exact absurd same (absent row member)
  | packageInserted | packageFound => exact ending_recording
  | packageConflict | accountFound | accountAbsent | accountInserted | componentAbsent
  | componentInserted | noteAbsent | noteInserted => trivial

theorem TxStep.abort_ending {state : State} {p : Pid} {input : VerifyInput} {work : Work} {pc : TxPc}
    {error : Error} (ending : (VerifyPc.transaction work pc).Ending allowed actions input)
    (unraced : pc.Unraced p state.world input work)
    (tx : TxStep p state.world input work pc (.abort error)) :
    (VerifyPc.threw (some work.build) error).Ending allowed actions input := by
  cases tx with
  | rollsBack => exact ending
  | accountViolation member same => exact absurd (Prod.ext same.1 same.2) (unraced _ member)
  | noteConflict member same => exact absurd (Prod.ext same.1 same.2) (unraced.1 _ member)
  | componentViolation orphan => exact absurd unraced orphan
  | noteViolation orphan => exact absurd unraced.2 orphan

theorem ending_step {before after : State} {action : Action}
    (run : Run step Unraced State.initial actions before)
    (endings : ∀ q input pc, before.calls q = some (.verify input pc) →
      pc.Ending Unraced actions input)
    (unraced : Unraced before action) (taken : step before action = some after) :
    ∀ q input pc, after.calls q = some (.verify input pc) →
      pc.Ending Unraced (actions ++ [action]) input := by
  have next : Run step Unraced State.initial (actions ++ [action]) after := run.snoc unraced taken
  -- The call that takes the step ends well, and the others are where they were.
  have others : ∀ {p effect call}, (∀ input pc, call = .verify input pc →
      pc.Ending Unraced (actions ++ [action]) input) → ∀ q input pc,
      (before.take p effect call).calls q = some (.verify input pc) →
      pc.Ending Unraced (actions ++ [action]) input := by
    intro p effect call own q input pc called
    by_cases same : q = p
    · rw [same, take_calls_self] at called
      exact own input pc (Option.some.inj called)
    · rw [take_calls_other _ _ _ _ same] at called
      exact (endings q input pc called).later action
  cases step_cases taken with
  | starts fresh =>
    rename_i p request
    refine others fun input pc same => ?_
    cases request <;> cases same
    trivial
  | answered =>
    refine others fun input pc same => ?_
    cases same
    unfold VerifyPc.answered
    split
    · trivial
    · split_ifs <;> trivial
  | fails => exact unraced.elim
  | ticks => exact fun q input pc called => (endings q input pc called).later _
  | advances called stepped =>
    rename_i p call after effect
    cases stepped with
    | cleanup | download => exact others fun input pc same => by cases same
    | verify verifies =>
      refine others fun input pc same => ?_
      obtain ⟨rfl, rfl⟩ := Call.verify.inj same
      have ending := endings p _ _ called
      cases verifies with
      | goes tx => exact tx.ending run called (unraced _ _ _ called)
      | aborts tx => exact (tx.abort_ending ending (unraced _ _ _ called)).later _
      | commits tx =>
        cases tx with
        | commits =>
          exact ending_recorded (Once.now next (recordCommitted_commit (run_sound run) called))
      | begins =>
        rename_i build stored
        cases stored with
        | none => trivial
        | some row => exact ending_recording
      | storesDebug | updatesDebug => exact Once.later ending _
      | found | missed | stores => trivial

theorem run_ends_well (actions : List Action) (state : State)
    (run : Run step Unraced State.initial actions state) : EndsWell Unraced actions state := by
  have endings : ∀ q input pc, state.calls q = some (.verify input pc) →
      pc.Ending Unraced actions input := by
    refine run.invariant (fun actions state => ∀ q input pc,
      state.calls q = some (.verify input pc) → pc.Ending Unraced actions input) ?_ ?_
    · simp [State.initial]
    · intro actions before action after run endings unraced taken
      exact ending_step run endings unraced taken
  exact fun q input pc called => (endings q input pc called).endsWell

def State.thrown (state : State) (q : Pid) : Option Error :=
  match state.calls q with
  | some (.verify _ (.threw (some _) error)) => some error
  | _ => none

theorem State.thrown_endsWell {state : State} {q : Pid} {error : Error}
    (thrown : state.thrown q = some error) (ends : EndsWell allowed actions state) :
    error = componentAlreadyVerified ∨ error = noteAlreadyVerified := by
  unfold State.thrown at thrown
  split at thrown
  · rename_i input build raised called
    obtain rfl := Option.some.inj thrown
    have met := (ends q input _ called).1
    rw [met]
    unfold alreadyVerified
    split
    · exact .inl rfl
    · exact .inr rfl
  · cases thrown

def unfailing (_ : State) : Action → Bool
  | .fail _ => false
  | _ => true

theorem unfailing_sound (state : State) (action : Action) (unfails : unfailing state action = true) :
    Unfailing state action := by
  cases action with
  | fail => cases unfails
  | start | answer | advance | tick => trivial

def twoFirsts : List Action :=
  verifies 0 "miden-verify" (verifiedBuild counterCode counterCommitment [1]) 5 ++
    verifies 1 "miden-verify" (verifiedBuild counterCode adderCommitment [2]) 5 ++
    advances 0 4 ++ advances 1 1

theorem new_code_verified_twice_violates :
    ¬ ∀ actions state, Run step Unfailing State.initial actions state →
      EndsWell Unfailing actions state := by
  intro ends
  have ran : (exec step unfailing State.initial twoFirsts).any (fun state =>
      state.thrown 1 = some (.violation .accountsNetworkIdCode)) = true := by decide +kernel
  obtain ⟨state, reached, thrown⟩ := exists_run_of_exec unfailing_sound ran
  rcases State.thrown_endsWell (of_decide_eq_true thrown) (ends _ _ reached) with same | same
  · cases same
  · cases same

instance {p : Pid} {world : World} {input : VerifyInput} {work : Work} :
    (pc : TxPc) → Decidable (pc.Unraced p world input work)
  | .insertingAccount _ => inferInstanceAs (Decidable
      (∀ row ∈ view p world.accounts, accountKey row ≠ (input.networkId, work.build.root)))
  | .insertingNote packageId => inferInstanceAs (Decidable
      ((∀ row ∈ view p world.notes, noteKey row ≠ (input.networkId, work.build.root)) ∧
        hasParent p world.packages PackageRow.id packageId = true))
  | .insertingComponent packageId accountId => inferInstanceAs (Decidable
      (hasParent p world.accounts AccountRow.id accountId = true ∧
        hasParent p world.packages PackageRow.id packageId = true))
  | .findingPackage => inferInstanceAs (Decidable
      (∃ row ∈ view p world.packages, row.commitment = work.build.commitment))
  | .insertingPackage => .isTrue trivial
  | .findingAccount _ => .isTrue trivial
  | .findingComponent _ _ => .isTrue trivial
  | .findingNote _ => .isTrue trivial
  | .committing _ _ => .isTrue trivial
  | .rollingBack _ => .isTrue trivial

def unraced (state : State) : Action → Bool
  | .advance p =>
    match state.calls p with
    | some (.verify input (.transaction work pc)) => decide (pc.Unraced p state.world input work)
    | _ => true
  | .fail _ => false
  | _ => true

theorem unraced_sound (state : State) (action : Action) (clear : unraced state action = true) :
    Unraced state action := by
  cases action with
  | start | answer | tick => trivial
  | fail => cases clear
  | advance p =>
    intro input work pc called
    simpa [unraced, called] using clear

theorem counter_ends_well : ∃ actions state, EndsWell Unraced actions state ∧
    state.thrown 1 = some componentAlreadyVerified := by
  have ran : (exec step unraced State.initial (counterVerified ++
      verifies 1 "miden-verify" (verifiedBuild counterCode counterCommitment [1]) 5)).any (fun state =>
        state.thrown 1 = some componentAlreadyVerified) = true := by decide +kernel
  obtain ⟨state, reached, thrown⟩ := exists_run_of_exec unraced_sound ran
  exact ⟨_, state, run_ends_well _ state reached, of_decide_eq_true thrown⟩

end SourceVerification.Concurrent
