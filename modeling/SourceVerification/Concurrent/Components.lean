import SourceVerification.Concurrent.Indexes

set_option autoImplicit false

namespace SourceVerification.Concurrent

open Registry Versions Runs Compile

def componentKey (row : ComponentRow) : RowId × Word := (row.verifiedAccountId, row.packageCommitment)

def State.recordedUnder (state : State) (accountId : RowId) : List Word :=
  ((Versions.committed state.world.components).filter (·.verifiedAccountId = accountId)).map
    (·.packageCommitment)

def State.recordedOf (state : State) (networkId : String) (code : Word) : List Word :=
  ((Versions.committed state.world.accounts).filter (accountKey · = (networkId, code))).flatMap
    fun row => state.recordedUnder row.id

/-- No package is recorded twice under one account, nor of one account code of a network. -/
def RecordedOnce (state : State) : Prop :=
  (∀ accountId, (state.recordedUnder accountId).Nodup) ∧
    ∀ networkId code, (state.recordedOf networkId code).Nodup

def Call.adding : Call → Option (RowId × Word)
  | .verify _ (.transaction work (.insertingComponent _ accountId)) =>
    some (accountId, work.build.commitment)
  | _ => none

def State.Adding (state : State) (q : Pid) (key : RowId × Word) : Prop :=
  ∃ call, state.calls q = some call ∧ call.adding = some key

/-- A verification looks for a component of a pair only while no other one, that has not ended its
transaction, has looked for it and found none. -/
def LooksAlone (state : State) : Action → Prop
  | .advance p => ∀ input work packageId accountId,
      state.calls p = some (.verify input (.transaction work (.findingComponent packageId accountId))) →
      (∀ q, ¬ state.Adding q (accountId, work.build.commitment)) ∧
        ∀ version ∈ state.world.components,
          componentKey version.row = (accountId, work.build.commitment) →
          version.status.seenBy p = true
  | _ => True

structure Unduplicated (state : State) : Prop where
  keys : (state.world.components.map fun version => componentKey version.row).Nodup
  absent : ∀ q key, state.Adding q key → ∀ version ∈ state.world.components,
    componentKey version.row ≠ key
  alone : ∀ q r key, state.Adding q key → state.Adding r key → q = r

theorem adding_take {state : State} {p q : Pid} {effect : Effect} {after : Call} {key : RowId × Word}
    (adding : (state.take p effect after).Adding q key) :
    (q = p ∧ after.adding = some key) ∨ (q ≠ p ∧ state.Adding q key) := by
  obtain ⟨call, called, same⟩ := adding
  by_cases own : q = p
  · rw [own, take_calls_self] at called
    exact .inl ⟨own, Option.some.inj called ▸ same⟩
  · rw [take_calls_other _ _ _ _ own] at called
    exact .inr ⟨own, call, called, same⟩

theorem Unduplicated.inserts {state : State} {p : Pid} {row : ComponentRow} {after : Call}
    (once : Unduplicated state) (adding : state.Adding p (componentKey row))
    (ended : after.adding = none) :
    Unduplicated (state.take p (.insertComponent row) after) := by
  have others : ∀ {q key}, (state.take p (.insertComponent row) after).Adding q key →
      q ≠ p ∧ state.Adding q key := by
    intro q key still
    rcases adding_take still with ⟨_, same⟩ | other
    · simp [ended] at same
    · exact other
  constructor
  · rw [take_world, Effect.components_apply]
    refine Statement.nodup_apply componentKey once.keys ?_
    intro inserted same
    obtain rfl := Statement.insert.inj same
    exact once.absent p _ adding
  · intro q key still version member
    obtain ⟨differs, was⟩ := others still
    rcases mem_insert.mp member with old | rfl
    · exact once.absent q key was version old
    · intro same
      exact differs (once.alone q p key was (same ▸ adding))
  · intro q r key first second
    exact once.alone q r key (others first).2 (others second).2

theorem Unduplicated.keeps {state : State} {p : Pid} {effect : Effect} {after : Call}
    (once : Unduplicated state) (kept : ∀ row, effect ≠ .insertComponent row)
    (added : ∀ key, after.adding = some key → (∀ q, ¬ state.Adding q key) ∧
      ∀ version ∈ state.world.components, componentKey version.row ≠ key) :
    Unduplicated (state.take p effect after) := by
  have inserts : ∀ row, effect.onComponents ≠ .insert row := fun row same =>
    kept row (Effect.onComponents_eq_insert.mp same)
  constructor
  · rw [take_world, Effect.components_apply]
    exact Statement.nodup_apply componentKey once.keys fun row same => absurd same (inserts row)
  · intro q key adding version member
    rw [take_world, Effect.components_apply] at member
    rcases Statement.row_origin member with same | ⟨old, inside, same⟩
    · exact absurd same (inserts _)
    · rw [← same]
      rcases adding_take adding with ⟨_, new⟩ | ⟨_, was⟩
      · exact (added key new).2 old inside
      · exact once.absent q key was old inside
  · intro q r key first second
    rcases adding_take first with ⟨own, new⟩ | ⟨_, was⟩
    · rcases adding_take second with ⟨other, _⟩ | ⟨_, still⟩
      · rw [own, other]
      · exact absurd still ((added key new).1 r)
    · rcases adding_take second with ⟨_, new⟩ | ⟨_, still⟩
      · exact absurd was ((added key new).1 q)
      · exact once.alone q r key was still

theorem adding_recording {input : VerifyInput} {work : Work} {packageId : RowId} :
    (Call.verify input (.transaction work (recording input packageId))).adding = none := by
  unfold recording
  split <;> rfl

theorem adding_recorded {input : VerifyInput} {work : Work} {packageId recordId : RowId} :
    (Call.verify input (recorded work packageId recordId)).adding = none := by
  unfold recorded
  split <;> rfl

theorem TxStep.adds {p : Pid} {world : World} {input : VerifyInput} {work : Work} {pc after : TxPc}
    {effect : Effect} (tx : TxStep p world input work pc (.go effect after)) :
    (∃ row, effect = .insertComponent row ∧
        (Call.verify input (.transaction work pc)).adding = some (componentKey row) ∧
        (Call.verify input (.transaction work after)).adding = none) ∨
      ((∀ row, effect ≠ .insertComponent row) ∧
        ((Call.verify input (.transaction work after)).adding = none ∨
          ∃ packageId accountId, pc = .findingComponent packageId accountId ∧
            after = .insertingComponent packageId accountId ∧
            ∀ row ∈ view p world.components,
              componentKey row ≠ (accountId, work.build.commitment))) := by
  cases tx with
  | componentInserted => exact .inl ⟨_, rfl, rfl, rfl⟩
  | componentAbsent absent =>
    refine .inr ⟨by simp, .inr ⟨_, _, rfl, rfl, ?_⟩⟩
    simpa [componentKey] using absent
  | packageInserted | packageFound => exact .inr ⟨by simp, .inl adding_recording⟩
  | packageConflict | packageGone | accountFound | accountAbsent | accountInserted | componentFound
  | noteFound | noteAbsent | noteInserted => exact .inr ⟨by simp, .inl rfl⟩

theorem Unduplicated.step {state next : State} {action : Action} (once : Unduplicated state)
    (alone : LooksAlone state action) (taken : step state action = some next) : Unduplicated next := by
  cases step_cases taken with
  | starts fresh =>
    rename_i p request
    refine once.keeps (by simp) ?_
    cases request <;> simp [Request.begin, Call.adding]
  | answered called =>
    refine once.keeps (by simp) ?_
    unfold VerifyPc.answered
    split
    · simp [Call.adding]
    · split_ifs <;> simp [Call.adding]
  | ticks => exact ⟨once.keys, once.absent, once.alone⟩
  | fails called failed =>
    refine once.keeps ?_ ?_
    · cases failed <;> simp
    · cases failed <;> simp [Call.adding]
  | advances called stepped =>
    rename_i p call after effect
    cases stepped with
    | download => exact once.keeps (by simp) (by simp [Call.adding])
    | cleanup cleans =>
      refine once.keeps ?_ (by simp [Call.adding])
      cases cleans <;> simp
    | verify verifies =>
      cases verifies with
      | found | missed | stores | aborts | storesDebug | updatesDebug =>
        exact once.keeps (by simp) (by simp [Call.adding])
      | begins =>
        rename_i input build stored
        refine once.keeps (by simp) ?_
        cases stored with
        | none => simp [Call.adding]
        | some row => simp [adding_recording]
      | commits => exact once.keeps (by simp) (by simp [adding_recorded])
      | goes tx =>
        rename_i input work pc next
        rcases tx.adds with ⟨row, rfl, adding, ended⟩ | ⟨kept, idle | ⟨packageId, accountId, rfl, rfl, unseen⟩⟩
        · exact once.inserts ⟨_, called, adding⟩ ended
        · exact once.keeps kept (by simp [idle])
        · refine once.keeps kept ?_
          intro key same
          obtain rfl := Option.some.inj same
          obtain ⟨others, seen⟩ := alone input work packageId accountId called
          refine ⟨others, fun version member named => ?_⟩
          have sees : version.row ∈ view p state.world.components :=
            mem_view.mpr ⟨version, member, rfl, seen version member named⟩
          exact unseen version.row sees named

theorem Unduplicated.recordedUnder {state : State} (once : Unduplicated state) (accountId : RowId) :
    (state.recordedUnder accountId).Nodup := by
  have keys := nodup_committed componentKey once.keys
  refine (keys.of_map.filter _).map_on ?_
  intro a member b other same
  obtain ⟨inside, under⟩ := List.mem_filter.mp member
  obtain ⟨otherInside, otherUnder⟩ := List.mem_filter.mp other
  refine List.inj_on_of_nodup_map keys inside otherInside ?_
  have accounts := (of_decide_eq_true under).trans (of_decide_eq_true otherUnder).symm
  exact Prod.ext accounts same

theorem run_recorded_once (actions : List Action) (state : State)
    (run : Run step LooksAlone State.initial actions state) : RecordedOnce state := by
  have once : Unduplicated state := by
    refine run.always Unduplicated ?_ fun _ _ _ => Unduplicated.step
    constructor <;> simp [State.initial, World.empty, State.Adding]
  refine ⟨once.recordedUnder, fun networkId code => ?_⟩
  have codes := nodup_committed accountKey (run_indexed run).codes
  refine List.nodup_flatMap.mpr ⟨fun row _ => once.recordedUnder row.id, ?_⟩
  -- The index leaves at most one row of the account code.
  refine (codes.of_map.filter _).pairwise_of_forall_ne ?_
  intro a member b other differs
  obtain ⟨inside, named⟩ := List.mem_filter.mp member
  obtain ⟨otherInside, otherNamed⟩ := List.mem_filter.mp other
  have same := (of_decide_eq_true named).trans (of_decide_eq_true otherNamed).symm
  exact absurd (List.inj_on_of_nodup_map codes inside otherInside same) differs

def twoLooks : List Action :=
  counterVerified ++ verifies 1 "miden-verify" (verifiedBuild adderCode adderCommitment [2]) 9 ++
    verifies 2 "miden-verify" (verifiedBuild counterCode adderCommitment [2]) 4 ++
    verifies 3 "miden-verify" (verifiedBuild counterCode adderCommitment [2]) 4 ++
    advances 2 2 ++ advances 3 2

theorem package_recorded_twice :
    ¬ ∀ actions state, Run step (fun _ _ => True) State.initial actions state →
      RecordedOnce state := by
  intro once
  have ran : (exec step (fun _ _ => true) State.initial twoLooks).any (fun state =>
      state.recordedOf "mtst" counterCode =
        [counterCommitment, adderCommitment, adderCommitment]) = true := by decide +kernel
  obtain ⟨state, reached, recorded⟩ := exists_run_of_exec (fun _ _ _ => trivial) ran
  have distinct := (once _ _ reached).2 "mtst" counterCode
  rw [of_decide_eq_true recorded] at distinct
  exact absurd distinct (by decide)

def looksAlone (limit : Pid) (state : State) : Action → Bool
  | .advance p =>
    match state.calls p with
    | some (.verify _ (.transaction work (.findingComponent _ accountId))) =>
      (state.everyCall limit fun call => call.adding ≠ some (accountId, work.build.commitment)) &&
        state.world.components.all fun version =>
          componentKey version.row ≠ (accountId, work.build.commitment) || version.status.seenBy p
    | _ => true
  | _ => true

theorem looksAlone_sound {limit : Pid} (state : State) (action : Action) (within : state.Within limit)
    (alone : looksAlone limit state action = true) : LooksAlone state action := by
  cases action with
  | start | answer | fail | tick => trivial
  | advance p =>
    intro input work packageId accountId called
    simp only [looksAlone, called, Bool.and_eq_true, List.all_eq_true] at alone
    refine ⟨?_, ?_⟩
    · rintro q ⟨call, calling, adding⟩
      exact of_decide_eq_true (within.everyCall alone.1 calling) adding
    · intro version member own
      simpa [own] using alone.2 version member

def bothAtOnce : List Action :=
  counterVerified ++ verifies 1 "miden-verify" (verifiedBuild counterCode adderCommitment [2]) 3 ++
    verifies 2 "miden-verify" (verifiedBuild counterCode adderCommitment [2]) 3 ++ advances 1 5 ++ advances 2 5

theorem counter_recorded_once : ∃ state, RecordedOnce state ∧
    state.recordedOf "mtst" counterCode = [counterCommitment, adderCommitment] := by
  have ran : (exec step (fun state action => action.within 3 && looksAlone 3 state action) State.initial
      bothAtOnce).any (fun state =>
        state.recordedOf "mtst" counterCode = [counterCommitment, adderCommitment]) = true := by decide +kernel
  obtain ⟨state, reached, recorded⟩ := exists_run_within looksAlone_sound ran
  exact ⟨state, run_recorded_once _ state reached, of_decide_eq_true recorded⟩

end SourceVerification.Concurrent
