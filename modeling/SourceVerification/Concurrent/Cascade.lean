import SourceVerification.Concurrent.Records

set_option autoImplicit false

namespace SourceVerification.Concurrent

open Registry Versions Runs Compile

def Spared {Row : Type} (source : Row → String) (table : Table Pid Row) : Prop :=
  ∀ version ∈ table, ∀ q, version.status = .deleting q → source version.row = PLAYGROUND_SOURCE

def Stands {Row : Type} (id : Row → RowId) (source : Row → String) (table : Table Pid Row)
    (recordId : RowId) (name : String) : Prop :=
  ∃ version ∈ table, id version.row = recordId ∧ source version.row = name ∧
    version.status.isCommitted = true

section Rows

variable {Row : Type} {p : Pid} {id : Row → RowId} {source : Row → String} {table : Table Pid Row}
  {statement : Statement Row} {recordId : RowId} {name : String}

theorem Spared.apply (spared : Spared source table)
    (doomed : ∀ wanted, statement = .delete wanted → ∀ version ∈ table, version.status = .committed →
      wanted version.row = true → source version.row = PLAYGROUND_SOURCE) :
    Spared source (statement.apply p table) := by
  intro version member q deleting
  rcases Statement.origin member with ⟨row, _, rfl⟩ | ⟨old, inside, same, origin⟩
  · cases deleting
  · rw [← same]
    rcases origin with ⟨kept, _⟩ | ⟨settled, _⟩ | ⟨wanted, deletes, gone, was, _⟩
    · exact spared old inside q (kept ▸ deleting)
    · simp [deleting] at settled
    · exact doomed wanted deletes old inside was (same ▸ gone)

theorem Stands.apply (stands : Stands id source table recordId name) (spared : Spared source table)
    (elsewhere : name ≠ PLAYGROUND_SOURCE) :
    Stands id source (statement.apply p table) recordId name := by
  obtain ⟨version, member, rfl, rfl, settled⟩ := stands
  have undoomed : version.status ≠ .deleting p := fun deleting =>
    elsewhere (spared version member p deleting)
  obtain ⟨kept, inside, same, still⟩ := Statement.keeps_committed member settled undoomed
  exact ⟨kept, inside, by rw [same], by rw [same], still⟩

theorem Stands.commit {row : Row} (member : ⟨row, .pending p⟩ ∈ table) :
    Stands id source (Versions.commit p table) (id row) (source row) :=
  ⟨⟨row, .committed⟩, mem_commit_of_pending member, rfl, rfl, rfl⟩

end Rows

def VerifyPc.recordId : VerifyPc → Option RowId
  | .storingDebug _ _ recordId _ _ _ => some recordId
  | .updatingDebug _ _ recordId _ _ => some recordId
  | .returned _ recordId => some recordId
  | _ => none

def World.Recorded (world : World) (input : VerifyInput) (recordId : RowId) : Prop :=
  match input.resource with
  | .account _ => Stands ComponentRow.id ComponentRow.source world.components recordId input.source
  | .note _ => Stands NoteRow.id NoteRow.source world.notes recordId input.source

theorem World.Inserted.recorded {world : World} {q : Pid} {input : VerifyInput} {work : Work}
    {packageId recordId : RowId} (inserted : world.Inserted q input work packageId recordId) :
    (Effect.commit.apply q world).Recorded input recordId := by
  cases resource : input.resource with
  | account accountId =>
    simp only [World.Inserted, World.Recorded, resource] at inserted ⊢
    obtain ⟨accountId, _, member⟩ := inserted
    exact Stands.commit member
  | note noteId =>
    simp only [World.Inserted, World.Recorded, resource] at inserted ⊢
    exact Stands.commit inserted

/-- What a verification for another source than the playground has recorded stays. -/
def RecordsKept (state : State) : Prop :=
  ∀ q input build recordId, state.calls q = some (.verify input (.returned build recordId)) →
    input.source ≠ PLAYGROUND_SOURCE → state.world.Recorded input recordId

/-- When accounts or packages are deleted, the cleanup sees no component or note of them. -/
def DeletesUnused (state : State) : Action → Prop
  | .advance p =>
    (∀ cutoff deleted ids, state.calls p = some (.cleanup cutoff (.deletingAccounts deleted ids)) →
      ∀ row ∈ view p state.world.components, row.verifiedAccountId ∉ ids) ∧
    (∀ cutoff deleted ids, state.calls p = some (.cleanup cutoff (.deletingPackages deleted ids)) →
      (∀ row ∈ view p state.world.components, row.packageId ∉ ids) ∧
        ∀ row ∈ view p state.world.notes, row.packageId ∉ ids)
  | _ => True

def CleanupPc.SparesOthers : CleanupPc → Prop
  | .deletingComponents rows => ∀ row ∈ rows, row.source = PLAYGROUND_SOURCE
  | .deletingNotes _ rows => ∀ row ∈ rows, row.source = PLAYGROUND_SOURCE
  | _ => True

structure Kept (state : State) : Prop where
  sound : Sound state
  components : Spared ComponentRow.source state.world.components
  notes : Spared NoteRow.source state.world.notes
  records : ∀ q input pc recordId, state.calls q = some (.verify input pc) →
    pc.recordId = some recordId → input.source ≠ PLAYGROUND_SOURCE →
    state.world.Recorded input recordId
  cleanups : ∀ q cutoff pc, state.calls q = some (.cleanup cutoff pc) → pc.SparesOthers

theorem source_of_expired {cutoff : Time} {source : String} {createdAt : Time}
    (old : expired cutoff source createdAt = true) : source = PLAYGROUND_SOURCE :=
  (of_decide_eq_true old).1

theorem CleanupStep.sparesOthers {p : Pid} {world : World} {cutoff : Time} {pc after : CleanupPc}
    {effect : Effect} (cleans : CleanupStep p world cutoff pc effect after) : after.SparesOthers := by
  cases cleans with
  | reads reading rows notes artifacts =>
    cases after with
    | deletingComponents doomed =>
      exact fun row member => source_of_expired (rows doomed rfl row member)
    | deletingNotes deleted doomed =>
      exact fun row member => source_of_expired (notes deleted doomed rfl row member)
    | _ => trivial
  | deletesComponents free next =>
    obtain ⟨deleted, rfl⟩ := next
    trivial
  | deletesNotes free next =>
    obtain ⟨deleted, rfl⟩ := next
    unfold deletingUnused deletingUnusedPackages
    split_ifs <;> trivial
  | deletesAccounts accountsFree componentsFree next =>
    obtain ⟨deleted, rfl⟩ := next
    unfold deletingUnusedPackages
    split_ifs <;> trivial
  | deletesPackages packagesFree componentsFree notesFree next =>
    obtain ⟨deleted, rfl⟩ := next
    trivial
  | commits | removes | ends => trivial

theorem recordId_recorded {work : Work} {packageId recordId : RowId} :
    (recorded work packageId recordId).recordId = some recordId := by
  unfold recorded
  split <;> rfl

theorem VerifyStep.recordId {p : Pid} {world : World} {input : VerifyInput} {pc after : VerifyPc}
    {effect : Effect} {recordId : RowId} (verifies : VerifyStep p world input pc effect after)
    (recorded : after.recordId = some recordId) :
    pc.recordId = some recordId ∨ ∃ work packageId,
      pc = .transaction work (.committing packageId recordId) ∧ effect = .commit := by
  cases verifies with
  | commits tx =>
    cases tx with
    | commits =>
      rw [recordId_recorded] at recorded
      obtain rfl := Option.some.inj recorded
      exact .inr ⟨_, _, rfl, rfl⟩
  | storesDebug | updatesDebug => exact .inl recorded
  | found | missed | stores | begins | goes | aborts => cases recorded

structure Sparing (world : World) (before : Option Call) (effect : Effect) (after : Call) : Prop where
  components : ∀ wanted, effect.onComponents = .delete wanted → ∀ version ∈ world.components,
    version.status = .committed → wanted version.row = true →
    version.row.source = PLAYGROUND_SOURCE
  notes : ∀ wanted, effect.onNotes = .delete wanted → ∀ version ∈ world.notes,
    version.status = .committed → wanted version.row = true →
    version.row.source = PLAYGROUND_SOURCE
  records : ∀ input pc recordId, after = .verify input pc → pc.recordId = some recordId →
    (∃ old, before = some (.verify input old) ∧ old.recordId = some recordId) ∨
      ∃ work packageId, effect = .commit ∧
        before = some (.verify input (.transaction work (.committing packageId recordId)))
  cleanups : ∀ cutoff pc, after = .cleanup cutoff pc → pc.SparesOthers

theorem Kept.take {state : State} {p : Pid} {effect : Effect} {after : Call} (kept : Kept state)
    (sound : Sound (state.take p effect after))
    (sparing : Sparing state.world (state.calls p) effect after) :
    Kept (state.take p effect after) := by
  have stays : ∀ {input recordId}, state.world.Recorded input recordId →
      input.source ≠ PLAYGROUND_SOURCE → (effect.apply p state.world).Recorded input recordId := by
    intro input recordId stands elsewhere
    unfold World.Recorded at stands ⊢
    split at stands
    · rw [Effect.components_apply]
      exact stands.apply kept.components elsewhere
    · rw [Effect.notes_apply]
      exact stands.apply kept.notes elsewhere
  refine ⟨sound, ?_, ?_, ?_, ?_⟩
  · rw [take_world, Effect.components_apply]
    exact kept.components.apply sparing.components
  · rw [take_world, Effect.notes_apply]
    exact kept.notes.apply sparing.notes
  · intro q input pc recordId called recorded elsewhere
    by_cases own : q = p
    · subst own
      rw [take_calls_self] at called
      rcases sparing.records input pc recordId (Option.some.inj called) recorded with
        ⟨old, was, same⟩ | ⟨work, packageId, rfl, was⟩
      · exact stays (kept.records q input old recordId was same elsewhere) elsewhere
      · exact (kept.sound.known q input _ was).2.recorded
    · rw [take_calls_other _ _ _ _ own] at called
      exact stays (kept.records q input pc recordId called recorded elsewhere) elsewhere
  · intro q cutoff pc called
    by_cases own : q = p
    · rw [own, take_calls_self] at called
      exact sparing.cleanups cutoff pc (Option.some.inj called)
    · rw [take_calls_other _ _ _ _ own] at called
      exact kept.cleanups q cutoff pc called

theorem CallStep.sparing {state : State} {p : Pid} {call after : Call} {effect : Effect}
    (kept : Kept state) (unused : DeletesUnused state (.advance p)) (called : state.calls p = some call)
    (stepped : CallStep p state.world call effect after) :
    Sparing state.world (some call) effect after := by
  cases stepped with
  | download => exact ⟨by simp [Effect.onComponents], by simp [Effect.onNotes], by simp, by simp⟩
  | verify verifies =>
    refine ⟨?_, ?_, ?_, by simp⟩
    · cases verifies with
      | goes tx => cases tx <;> simp [Effect.onComponents]
      | _ => simp [Effect.onComponents]
    · cases verifies with
      | goes tx => cases tx <;> simp [Effect.onNotes]
      | _ => simp [Effect.onNotes]
    · intro input pc recordId same recorded
      obtain ⟨rfl, rfl⟩ := Call.verify.inj same
      rcases verifies.recordId recorded with old | ⟨work, packageId, rfl, commits⟩
      · exact .inl ⟨_, rfl, old⟩
      · exact .inr ⟨work, packageId, commits, rfl⟩
  | cleanup cleans =>
    have spares := kept.cleanups p _ _ called
    have sees : ∀ {Row : Type} {table : Table Pid Row} {version : Version Pid Row}, version ∈ table →
        version.status = .committed → version.row ∈ view p table := by
      intro Row table version member settled
      exact mem_view.mpr ⟨version, member, rfl, by simp [settled, Status.seenBy]⟩
    refine ⟨?_, ?_, by simp, ?_⟩
    · intro wanted deletes version member settled gone
      cases cleans with
      | deletesComponents =>
        obtain rfl := Statement.delete.inj deletes
        exact spares version.row (of_decide_eq_true gone)
      | deletesAccounts =>
        obtain rfl := Statement.delete.inj deletes
        exact absurd (of_decide_eq_true gone)
          (unused.1 _ _ _ called version.row (sees member settled))
      | deletesPackages =>
        obtain rfl := Statement.delete.inj deletes
        exact absurd (of_decide_eq_true gone)
          ((unused.2 _ _ _ called).1 version.row (sees member settled))
      | reads | deletesNotes | commits | removes | ends => cases deletes
    · intro wanted deletes version member settled gone
      cases cleans with
      | deletesNotes =>
        obtain rfl := Statement.delete.inj deletes
        exact spares version.row (of_decide_eq_true gone)
      | deletesPackages =>
        obtain rfl := Statement.delete.inj deletes
        exact absurd (of_decide_eq_true gone)
          ((unused.2 _ _ _ called).2 version.row (sees member settled))
      | reads | deletesComponents | deletesAccounts | commits | removes | ends => cases deletes
    · intro cutoff pc same
      obtain ⟨rfl, rfl⟩ := Call.cleanup.inj same
      exact cleans.sparesOthers

theorem FailStep.sparing {world : World} {call after : Call} {effect : Effect}
    (failed : FailStep call effect after) : Sparing world (some call) effect after := by
  cases failed with
  | before | inside =>
    refine ⟨by simp [Effect.onComponents], by simp [Effect.onNotes], ?_, by simp⟩
    intro input pc recordId same recorded
    cases same
    cases recorded
  | storingDebug | updatingDebug =>
    refine ⟨by simp [Effect.onComponents], by simp [Effect.onNotes], ?_, by simp⟩
    intro input pc recordId same recorded
    cases same
    exact .inl ⟨_, rfl, recorded⟩
  | cleaning | removing =>
    refine ⟨by simp [Effect.onComponents], by simp [Effect.onNotes], by simp, ?_⟩
    intro cutoff pc same
    cases same
    trivial
  | downloading => exact ⟨by simp [Effect.onComponents], by simp [Effect.onNotes], by simp, by simp⟩

theorem Kept.step {state next : State} {action : Action} (kept : Kept state)
    (unused : DeletesUnused state action) (taken : step state action = some next) : Kept next := by
  have sound := kept.sound.step taken
  cases step_cases taken with
  | starts fresh =>
    rename_i p request
    refine kept.take sound ⟨by simp [Effect.onComponents], by simp [Effect.onNotes], ?_, ?_⟩
    · intro input pc recordId same recorded
      cases request <;> cases same
      cases recorded
    · intro cutoff pc same
      cases request <;> cases same
      trivial
  | answered called =>
    refine kept.take sound ⟨by simp [Effect.onComponents], by simp [Effect.onNotes], ?_, by simp⟩
    intro input pc recordId same recorded
    cases same
    unfold VerifyPc.answered at recorded
    split at recorded
    · cases recorded
    · split_ifs at recorded <;> cases recorded
  | advances called stepped =>
    exact kept.take sound (called ▸ stepped.sparing kept unused called)
  | fails called failed => exact kept.take sound (called ▸ failed.sparing)
  | ticks => exact ⟨sound, kept.components, kept.notes, kept.records, kept.cleanups⟩

theorem run_records_kept (actions : List Action) (state : State)
    (run : Run step DeletesUnused State.initial actions state) : RecordsKept state := by
  have kept : Kept state := by
    refine run.always Kept ⟨sound_initial, ?_, ?_, ?_, ?_⟩ fun _ _ _ => Kept.step
    · simp [Spared, State.initial, World.empty]
    · simp [Spared, State.initial, World.empty]
    · simp [State.initial]
    · simp [State.initial]
  intro q input build recordId returned elsewhere
  exact kept.records q input _ recordId returned rfl elsewhere

def State.componentLost (state : State) (q : Pid) : Bool :=
  match state.calls q with
  | some (.verify { networkId := _, resource := .account _, project := _, source := source }
      (.returned _ recordId)) =>
    source ≠ PLAYGROUND_SOURCE && (Versions.committed state.world.components).all (·.id ≠ recordId)
  | _ => false

theorem State.componentLost_not_kept {state : State} {q : Pid} (lost : state.componentLost q = true) :
    ¬ RecordsKept state := by
  intro kept
  unfold componentLost at lost
  split at lost
  · rename_i networkId accountId project source build recordId called
    obtain ⟨elsewhere, gone⟩ := Bool.and_eq_true_iff.mp lost
    obtain ⟨version, member, same, _, settled⟩ := kept q _ build recordId called (by simpa using elsewhere)
    have row := List.all_eq_true.mp gone version.row (mem_committed.mpr ⟨version, member, rfl, settled⟩)
    exact of_decide_eq_true row same
  · cases lost

def verifiedBeforeCascade : List Action :=
  playgroundDay ++ [.start 1 .cleanup] ++ advances 1 6 ++
    verifies 2 "miden-verify" (verifiedBuild counterCode adderCommitment [2]) 8 ++ advances 1 4

theorem returned_record_cascades_away :
    ¬ ∀ actions state, Run step (fun _ _ => True) State.initial actions state →
      RecordsKept state := by
  intro kept
  have ran : (exec step (fun _ _ => true) State.initial verifiedBeforeCascade).any
      (·.componentLost 2) = true := by decide +kernel
  obtain ⟨state, reached, lost⟩ := exists_run_of_exec (fun _ _ _ => trivial) ran
  exact state.componentLost_not_kept lost (kept _ _ reached)

def deletesUnused (state : State) : Action → Bool
  | .advance p =>
    match state.calls p with
    | some (.cleanup _ (.deletingAccounts _ ids)) =>
      (view p state.world.components).all (·.verifiedAccountId ∉ ids)
    | some (.cleanup _ (.deletingPackages _ ids)) =>
      (view p state.world.components).all (·.packageId ∉ ids) &&
        (view p state.world.notes).all (·.packageId ∉ ids)
    | _ => true
  | _ => true

theorem deletesUnused_sound (state : State) (action : Action)
    (unused : deletesUnused state action = true) : DeletesUnused state action := by
  cases action with
  | start | answer | fail | tick => trivial
  | advance p =>
    constructor
    · intro cutoff deleted ids called
      simpa [deletesUnused, called] using unused
    · intro cutoff deleted ids called
      simpa [deletesUnused, called] using unused

def verifiedBeforeCleanup : List Action :=
  playgroundDay ++ verifies 1 "miden-verify" (verifiedBuild counterCode adderCommitment [2]) 8 ++
    [.start 2 .cleanup] ++ advances 2 13

theorem verified_counter_kept : ∃ state, RecordsKept state ∧
    (Versions.committed state.world.components).map (·.packageCommitment) = [adderCommitment] := by
  have ran : (exec step deletesUnused State.initial verifiedBeforeCleanup).any (fun state =>
      (Versions.committed state.world.components).map (·.packageCommitment) = [adderCommitment]) =
        true := by decide +kernel
  obtain ⟨state, reached, left⟩ := exists_run_of_exec deletesUnused_sound ran
  exact ⟨state, run_records_kept _ state reached, of_decide_eq_true left⟩

end SourceVerification.Concurrent
