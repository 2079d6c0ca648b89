import SourceVerification.Concurrent.Machine

set_option autoImplicit false

namespace SourceVerification.Concurrent

open Registry Versions Runs Compile

theorem TxStep.store_eq {p : Pid} {world : World} {input : VerifyInput} {work : Work} {pc after : TxPc}
    {effect : Effect} (tx : TxStep p world input work pc (.go effect after)) :
    (effect.apply p world).store = world.store := by
  cases tx <;> rfl

theorem VerifyStep.store_cases {p : Pid} {world : World} {input : VerifyInput} {pc after : VerifyPc}
    {effect : Effect} (verifies : VerifyStep p world input pc effect after) :
    (effect.apply p world).store = world.store ∨
      (∃ build, pc = .storing build ∧ effect = .put build.commitment build.masp .release) ∨
      ∃ commitment masp, effect = .put commitment masp .debug := by
  cases verifies with
  | stores => exact .inr (.inl ⟨_, rfl, rfl⟩)
  | storesDebug => exact .inr (.inr ⟨_, _, rfl⟩)
  | goes tx => exact .inl tx.store_eq
  | found | missed | begins | commits | aborts | updatesDebug => exact .inl rfl

theorem CleanupStep.store_cases {p : Pid} {world : World} {cutoff : Time} {pc after : CleanupPc}
    {effect : Effect} (cleans : CleanupStep p world cutoff pc effect after) :
    (effect.apply p world).store = world.store ∨
      ∃ deleted commitment variant rest, pc = .deletingArtifacts deleted ((commitment, variant) :: rest) ∧
        effect = .remove commitment variant := by
  cases cleans with
  | removes => exact .inr ⟨_, _, _, _, rfl, rfl⟩
  | reads | deletesComponents | deletesNotes | deletesAccounts | deletesPackages | commits | ends =>
    exact .inl rfl

theorem CallStep.store_cases {p : Pid} {world : World} {call after : Call} {effect : Effect}
    (stepped : CallStep p world call effect after) :
    (effect.apply p world).store = world.store ∨
      (∃ input build, call = .verify input (.storing build) ∧
        effect = .put build.commitment build.masp .release) ∨
      (∃ commitment masp, effect = .put commitment masp .debug) ∨
      ∃ cutoff deleted commitment variant rest,
        call = .cleanup cutoff (.deletingArtifacts deleted ((commitment, variant) :: rest)) ∧
          effect = .remove commitment variant := by
  cases stepped with
  | verify verifies =>
    rcases verifies.store_cases with kept | ⟨build, rfl, same⟩ | written
    · exact .inl kept
    · exact .inr (.inl ⟨_, build, rfl, same⟩)
    · exact .inr (.inr (.inl written))
  | cleanup cleans =>
    rcases cleans.store_cases with kept | ⟨deleted, commitment, variant, rest, rfl, same⟩
    · exact .inl kept
    · exact .inr (.inr (.inr ⟨_, deleted, commitment, variant, rest, rfl, same⟩))
  | download => exact .inl rfl

theorem FailStep.store_eq {p : Pid} {world : World} {call after : Call} {effect : Effect}
    (failed : FailStep call effect after) : (effect.apply p world).store = world.store := by
  cases failed <;> rfl

def Call.window : Call → Option Word
  | .verify _ (.beginning build none) => some build.commitment
  | .verify _ (.transaction work _) => if work.stored.isNone then some work.build.commitment else none
  | _ => none

def State.InWindow (state : State) (commitment : Word) : Prop :=
  ∃ q call, state.calls q = some call ∧ call.window = some commitment

def State.Released (state : State) (commitment : Word) : Prop :=
  (state.world.store.get commitment .release).isSome = true

def ArtifactsStored (state : State) : Prop :=
  ∀ row ∈ Versions.committed state.world.packages, state.Released row.commitment

/-- A release artifact is deleted only while its package has no row and no verification is about to
commit one. -/
def DeletesUnneeded (state : State) : Action → Prop
  | .advance p => ∀ cutoff deleted commitment rest,
      state.calls p = some (.cleanup cutoff
        (.deletingArtifacts deleted ((commitment, .release) :: rest))) →
      (∀ row ∈ Versions.committed state.world.packages, row.commitment ≠ commitment) ∧
        ¬ state.InWindow commitment
  | _ => True

structure Stored (state : State) : Prop where
  released : ArtifactsStored state
  window : ∀ commitment, state.InWindow commitment → state.Released commitment
  pending : ∀ version ∈ state.world.packages, ∀ p, version.status = .pending p →
    ∃ input work pc, state.calls p = some (.verify input (.transaction work pc)) ∧
      work.stored = none ∧ work.build.commitment = version.row.commitment
  inserting : ∀ p input work,
    state.calls p = some (.verify input (.transaction work .insertingPackage)) → work.stored = none

theorem Effect.packages_origin {p : Pid} {world : World} {effect : Effect}
    {version : Version Pid PackageRow} (member : version ∈ (effect.apply p world).packages) :
    (∃ row, effect = .insertPackage row ∧ version.row.commitment = row.commitment ∧
        version.status = .pending p) ∨
      ∃ old ∈ world.packages, old.row.commitment = version.row.commitment ∧
        ((version.status = old.status ∧ (effect.ends = true → version.status ≠ .pending p)) ∨
          (version.status.isCommitted = true ∧
            (old.status.isCommitted = true ∨ old.status = .pending p))) := by
  rw [packages_apply] at member
  obtain ⟨version, inside, rewritten, status⟩ := mem_update member
  rw [← rewritten, rewrites_commitment, status]
  rcases Statement.origin inside with ⟨row, inserts, rfl⟩ | ⟨old, before, same, origin⟩
  · exact .inl ⟨row, onPackages_eq_insert.mp inserts, rfl, rfl⟩
  · refine .inr ⟨old, before, by rw [same], ?_⟩
    rcases origin with ⟨kept, free⟩ | ⟨after, ⟨_, was⟩ | ⟨_, was⟩⟩ | ⟨_, _, _, was, after⟩
    · exact .inl ⟨kept, fun ends => (free (onPackages_ends.trans ends)).1⟩
    · exact .inr ⟨by simp [after, Status.isCommitted], .inr was⟩
    · exact .inr ⟨by simp [after, Status.isCommitted], .inl (by simp [was, Status.isCommitted])⟩
    · exact .inr ⟨by simp [after, Status.isCommitted], .inl (by simp [was, Status.isCommitted])⟩

structure Windowed (p : Pid) (world : World) (before : Option Call) (effect : Effect) (after : Call) :
    Prop where
  entered : ∀ commitment, after.window = some commitment →
    before.bind Call.window = some commitment ∨
      ((effect.apply p world).store.get commitment .release).isSome = true
  inserted : ∀ row, effect = .insertPackage row → ∃ input work pc,
    after = .verify input (.transaction work pc) ∧
      before = some (.verify input (.transaction work .insertingPackage)) ∧
      work.build.commitment = row.commitment
  stays : ∀ input work pc, before = some (.verify input (.transaction work pc)) →
    (∃ next, after = .verify input (.transaction work next)) ∨ effect.ends = true
  inserting : ∀ input work, after = .verify input (.transaction work .insertingPackage) →
    work.stored = none

theorem recording_ne_insertingPackage {input : VerifyInput} {packageId : RowId} :
    recording input packageId ≠ .insertingPackage := by
  unfold recording
  split <;> simp

theorem TxStep.windowed {p : Pid} {world : World} {input : VerifyInput} {work : Work} {pc after : TxPc}
    {effect : Effect} (tx : TxStep p world input work pc (.go effect after)) :
    Windowed p world (some (.verify input (.transaction work pc))) effect
      (.verify input (.transaction work after)) where
  entered _ same := .inl same
  inserted row same := by
    cases tx with
    | packageInserted =>
      cases same
      exact ⟨input, work, _, rfl, rfl, rfl⟩
    | packageConflict | packageFound | packageGone | accountFound | accountAbsent | accountInserted
    | componentFound | componentAbsent | componentInserted | noteFound | noteAbsent | noteInserted =>
      cases same
  stays _ _ _ same := by
    cases same
    exact .inl ⟨after, rfl⟩
  inserting _ _ same := by
    cases tx with
    | packageInserted | packageFound =>
      have stuck := (VerifyPc.transaction.inj (Call.verify.inj same).2).2
      exact absurd stuck recording_ne_insertingPackage
    | packageConflict | packageGone | accountFound | accountAbsent | accountInserted
    | componentFound | componentAbsent | componentInserted | noteFound | noteAbsent | noteInserted =>
      cases same

theorem window_recorded {input : VerifyInput} {work : Work} {packageId recordId : RowId} :
    (Call.verify input (recorded work packageId recordId)).window = none := by
  unfold recorded
  split <;> rfl

theorem Windowed.outside {p : Pid} {world : World} {before : Option Call} {effect : Effect} {after : Call}
    (entered : ∀ commitment, after.window = some commitment →
      before.bind Call.window = some commitment ∨
        ((effect.apply p world).store.get commitment .release).isSome = true)
    (inserts : ∀ row, effect ≠ .insertPackage row)
    (elsewhere : ∀ input work pc, before ≠ some (.verify input (.transaction work pc)))
    (begins : ∀ input work, after = .verify input (.transaction work .insertingPackage) →
      work.stored = none) :
    Windowed p world before effect after where
  entered := entered
  inserted row same := absurd same (inserts row)
  stays input work pc same := absurd same (elsewhere input work pc)
  inserting := begins

theorem Windowed.ends {p : Pid} {world : World} {before : Option Call} {effect : Effect} {after : Call}
    (ended : after.window = none) (settles : effect.ends = true)
    (elsewhere : ∀ input work, after ≠ .verify input (.transaction work .insertingPackage)) :
    Windowed p world before effect after where
  entered commitment same := by simp [ended] at same
  inserted row same := by
    rw [same] at settles
    cases settles
  stays _ _ _ _ := .inr settles
  inserting input work same := absurd same (elsewhere input work)

theorem VerifyStep.windowed {p : Pid} {world : World} {input : VerifyInput} {pc after : VerifyPc}
    {effect : Effect} (verifies : VerifyStep p world input pc effect after) :
    Windowed p world (some (.verify input pc)) effect (.verify input after) := by
  cases verifies with
  | goes tx => exact tx.windowed
  | commits tx =>
    refine .ends window_recorded rfl ?_
    intro input work same
    unfold recorded at same
    split at same <;> cases same
  | aborts tx => exact .ends rfl rfl (by simp)
  | begins =>
    rename_i build stored
    refine .outside ?_ (by simp) (by simp) ?_
    · cases stored with
      | none => exact fun commitment same => .inl same
      | some row => simp [Call.window]
    · intro input work same
      cases stored with
      | none =>
        cases same
        rfl
      | some row =>
        have stuck := (VerifyPc.transaction.inj (Call.verify.inj same).2).2
        exact absurd stuck recording_ne_insertingPackage
  | stores =>
    refine .outside ?_ (by simp) (by simp) (by simp)
    intro commitment same
    obtain rfl := Option.some.inj same
    simp [Effect.apply, MaspStore.get_put]
  | found | missed | storesDebug | updatesDebug =>
    exact .outside (by simp [Call.window]) (by simp) (by simp) (by simp)

theorem CallStep.windowed {p : Pid} {world : World} {call after : Call} {effect : Effect}
    (stepped : CallStep p world call effect after) :
    Windowed p world (some call) effect after := by
  cases stepped with
  | verify verifies => exact verifies.windowed
  | cleanup cleans =>
    refine .outside (by simp [Call.window]) ?_ (by simp) (by simp)
    cases cleans <;> simp
  | download => exact .outside (by simp [Call.window]) (by simp) (by simp) (by simp)

theorem FailStep.windowed {p : Pid} {world : World} {call after : Call} {effect : Effect}
    (failed : FailStep call effect after) : Windowed p world (some call) effect after := by
  cases failed with
  | before outside =>
    refine .outside (by simp [Call.window]) (by simp) ?_ (by simp)
    intro input work pc same
    exact outside work pc (Call.verify.inj (Option.some.inj same)).2
  | inside => exact .ends rfl rfl (by simp)
  | storingDebug | updatingDebug | cleaning | removing | downloading =>
    exact .outside (by simp [Call.window]) (by simp) (by simp) (by simp)

theorem Stored.take {state : State} {p : Pid} {effect : Effect} {after : Call} (stored : Stored state)
    (windowed : Windowed p state.world (state.calls p) effect after)
    (keeps : ∀ commitment, state.Released commitment →
      (∃ row ∈ Versions.committed state.world.packages, row.commitment = commitment) ∨
        state.InWindow commitment →
      ((effect.apply p state.world).store.get commitment .release).isSome = true) :
    Stored (state.take p effect after) := by
  have kept : ∀ commitment, (∃ row ∈ Versions.committed state.world.packages,
      row.commitment = commitment) ∨ state.InWindow commitment →
      (state.take p effect after).Released commitment := by
    intro commitment needed
    refine keeps commitment ?_ needed
    rcases needed with ⟨row, member, rfl⟩ | waiting
    · exact stored.released row member
    · exact stored.window commitment waiting
  constructor
  · intro row member
    obtain ⟨version, inside, rfl, settled⟩ := mem_committed.mp member
    rcases Effect.packages_origin inside with ⟨row, _, _, status⟩ | ⟨old, before, same, origin⟩
    · simp [status, Status.isCommitted] at settled
    · apply kept
      rcases origin with ⟨unchanged, _⟩ | ⟨_, was | was⟩
      · exact .inl ⟨old.row, mem_committed.mpr ⟨old, before, rfl, unchanged ▸ settled⟩, same⟩
      · exact .inl ⟨old.row, mem_committed.mpr ⟨old, before, rfl, was⟩, same⟩
      · obtain ⟨input, work, pc, called, fresh, commits⟩ := stored.pending old before p was
        exact .inr ⟨p, _, called, by simp [Call.window, fresh, commits, same]⟩
  · rintro commitment ⟨q, call, called, window⟩
    by_cases own : q = p
    · rw [own, take_calls_self] at called
      obtain rfl := Option.some.inj called
      rcases windowed.entered commitment window with before | written
      · obtain ⟨old, was, same⟩ := Option.bind_eq_some_iff.mp before
        exact kept commitment (.inr ⟨p, old, was, same⟩)
      · exact written
    · rw [take_calls_other _ _ _ _ own] at called
      exact kept commitment (.inr ⟨q, call, called, window⟩)
  · intro version inside q owned
    rcases Effect.packages_origin inside with ⟨row, inserts, names, status⟩ | ⟨old, before, same, origin⟩
    · obtain rfl : p = q := Status.pending.inj (status.symm.trans owned)
      obtain ⟨input, work, pc, rfl, called, commits⟩ := windowed.inserted row inserts
      exact ⟨input, work, pc, take_calls_self .., stored.inserting p input work called,
        commits.trans names.symm⟩
    · rcases origin with ⟨unchanged, settles⟩ | ⟨settled, _⟩
      · obtain ⟨input, work, pc, called, fresh, commits⟩ :=
          stored.pending old before q (unchanged ▸ owned)
        by_cases own : q = p
        · subst own
          rcases windowed.stays input work pc called with ⟨next, rfl⟩ | ends
          · exact ⟨input, work, next, take_calls_self .., fresh, same ▸ commits⟩
          · exact absurd owned (settles ends)
        · exact ⟨input, work, pc, (take_calls_other _ _ _ _ own).trans called, fresh, same ▸ commits⟩
      · simp [owned, Status.isCommitted] at settled
  · intro q input work called
    by_cases own : q = p
    · rw [own, take_calls_self] at called
      exact windowed.inserting input work (Option.some.inj called)
    · rw [take_calls_other _ _ _ _ own] at called
      exact stored.inserting q input work called

theorem Stored.step {state next : State} {action : Action} (stored : Stored state)
    (deletes : DeletesUnneeded state action) (taken : step state action = some next) :
    Stored next := by
  cases step_cases taken with
  | starts fresh =>
    rename_i p request
    refine stored.take (.outside ?_ (by simp) (by simp [fresh]) ?_) fun _ here _ => here
    · cases request <;> simp [Request.begin, Call.window]
    · cases request <;> simp [Request.begin]
  | answered called =>
    rename_i p input answer
    refine stored.take (.outside ?_ (by simp) (by simp [called]) ?_) fun _ here _ => here
    · intro commitment
      unfold VerifyPc.answered
      split
      · simp [Call.window]
      · split_ifs <;> simp [Call.window]
    · intro input work
      unfold VerifyPc.answered
      split
      · simp
      · split_ifs <;> simp
  | ticks => exact ⟨stored.released, stored.window, stored.pending, stored.inserting⟩
  | fails called failed =>
    refine stored.take (called ▸ failed.windowed) fun commitment here _ => ?_
    rw [failed.store_eq]
    exact here
  | advances called stepped =>
    rename_i p call after effect
    refine stored.take (called ▸ stepped.windowed) fun commitment here needed => ?_
    rcases stepped.store_cases with kept | ⟨_, build, _, rfl⟩ | ⟨other, masp, rfl⟩ |
      ⟨cutoff, deleted, other, variant, rest, rfl, rfl⟩
    · rw [kept]
      exact here
    · by_cases same : commitment = build.commitment
      · simp [Effect.apply, MaspStore.get_put, same]
      · simpa [Effect.apply, MaspStore.get_put, same, State.Released] using here
    · simpa [Effect.apply, MaspStore.get_put, State.Released] using here
    · simp only [Effect.apply, MaspStore.get_delete]
      split_ifs with own
      · obtain ⟨rfl, rfl⟩ := own
        obtain ⟨unrecorded, unneeded⟩ := deletes cutoff deleted _ rest called
        rcases needed with ⟨row, member, same⟩ | waiting
        · exact absurd same (unrecorded row member)
        · exact absurd waiting unneeded
      · exact here

theorem run_artifacts_stored (actions : List Action) (state : State)
    (run : Run step DeletesUnneeded State.initial actions state) : ArtifactsStored state := by
  have stored : Stored state := by
    refine run.always Stored ?_ fun _ _ _ => Stored.step
    constructor <;>
      simp [State.initial, State.InWindow, ArtifactsStored, World.empty, Versions.committed]
  exact stored.released

def verifiedBeforeArtifactGoes : List Action :=
  playgroundDay ++ [.start 1 .cleanup] ++ advances 1 10 ++
    verifies 2 "miden-verify" (verifiedBuild counterCode counterCommitment [1]) 9 ++ advances 1 1

theorem row_outlives_artifact :
    ¬ ∀ actions state, Run step (fun _ _ => True) State.initial actions state →
      ArtifactsStored state := by
  intro holds
  have ran : (exec step (fun _ _ => true) State.initial verifiedBeforeArtifactGoes).any (fun state =>
      (Versions.committed state.world.packages).any fun row =>
        (state.world.store.get row.commitment .release).isNone) = true := by decide +kernel
  obtain ⟨state, reached, missing⟩ := exists_run_of_exec (fun _ _ _ => trivial) ran
  obtain ⟨row, member, gone⟩ := List.any_eq_true.mp missing
  have there : (state.world.store.get row.commitment .release).isSome = true :=
    holds _ _ reached row member
  rw [Option.isNone_iff_eq_none.mp gone] at there
  cases there

def deletesUnneeded (limit : Pid) (state : State) : Action → Bool
  | .advance p =>
    match state.calls p with
    | some (.cleanup _ (.deletingArtifacts _ ((commitment, .release) :: _))) =>
      (Versions.committed state.world.packages).all (·.commitment ≠ commitment) &&
        state.everyCall limit fun call => call.window ≠ some commitment
    | _ => true
  | _ => true

theorem deletesUnneeded_sound {limit : Pid} (state : State) (action : Action) (within : state.Within limit)
    (unneeded : deletesUnneeded limit state action = true) : DeletesUnneeded state action := by
  cases action with
  | start | answer | fail | tick => trivial
  | advance p =>
    intro cutoff deleted commitment rest called
    simp only [deletesUnneeded, called, Bool.and_eq_true, List.all_eq_true] at unneeded
    refine ⟨fun row member => of_decide_eq_true (unneeded.1 row member), ?_⟩
    rintro ⟨q, call, calling, waiting⟩
    exact of_decide_eq_true (within.everyCall unneeded.2 calling) waiting

def verifiedAfterCleanup : List Action :=
  playgroundDay ++ verifies 2 "miden-verify" (verifiedBuild adderCode adderCommitment [2]) 3 ++
    [.start 1 .cleanup] ++ advances 1 13 ++ advances 2 6 ++
    verifies 3 "miden-verify" (verifiedBuild counterCode counterCommitment [3]) 9

theorem verified_counter_stored : ∃ state, ArtifactsStored state ∧
    (Versions.committed state.world.packages).map (·.commitment) = [adderCommitment, counterCommitment] ∧
    state.world.store.get counterCommitment .release = some [3] := by
  have ran : (exec step (fun state action => action.within 4 && deletesUnneeded 4 state action) State.initial
      verifiedAfterCleanup).any (fun state =>
        (Versions.committed state.world.packages).map (·.commitment) = [adderCommitment, counterCommitment] ∧
          state.world.store.get counterCommitment .release = some [3]) = true := by decide +kernel
  obtain ⟨state, reached, recorded⟩ := exists_run_within deletesUnneeded_sound ran
  exact ⟨state, run_artifacts_stored _ state reached, of_decide_eq_true recorded⟩

end SourceVerification.Concurrent
