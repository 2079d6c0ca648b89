import SourceVerification.Concurrent.DebugBuilds
import SourceVerification.Concurrent.SequentialVerify

set_option autoImplicit false

namespace SourceVerification.Concurrent

open Registry Versions Tables Runs
open Compile (counterCommitment)

section

variable (parse : String → Option (List (String × Json)))
  (answer : Files → String → Except Error DebugBuild) (p : Pid)

inductive Backfills (commitment : String) : World → BackfillPc → World → BackfillPc → Prop
  | refl {world : World} {pc : BackfillPc} : Backfills commitment world pc world pc
  | step {world next final : World} {pc after last : BackfillPc}
      (taken : pc.next parse p world commitment = some (next, after))
      (rest : Backfills commitment next after final last) : Backfills commitment world pc final last
  | answered {world final : World} {root : Word} {dbPackage : PackageRow} {entrypoint : String}
      {last : BackfillPc}
      (rest : Backfills commitment world
        (.answered root dbPackage entrypoint (answer dbPackage.files entrypoint)) final last) :
      Backfills commitment world (.building root dbPackage entrypoint) final last

def BuildAction.Solo (state : BuildState) : BuildAction → Prop
  | .post q _ | .advance q => q = p
  | .answer q debug => q = p ∧ ∀ commitment root dbPackage entrypoint,
      state.backfills p = some ⟨commitment, .building root dbPackage entrypoint⟩ →
        debug = answer dbPackage.files entrypoint
  | _ => False

def Backfilled (commitment : String) (world : World) (pc : BackfillPc)
    (result : Except Error Word × Registry.State) : Prop :=
  ∃ final, Backfills parse answer p commitment world pc final (.ended result.1) ∧ final.Quiet ∧
    final.committed = result.2

variable {parse answer p} {commitment : String} {world : World}

theorem Backfills.run {final : World} {pc last : BackfillPc}
    (follows : Backfills parse answer p commitment world pc final last)
    {initial state : BuildState} {actions : List BuildAction}
    (run : Run (buildStep parse) (BuildAction.Solo answer p) initial actions state)
    (here : state.registry.world = world) (called : state.backfills p = some ⟨commitment, pc⟩) :
    ∃ more next, Run (buildStep parse) (BuildAction.Solo answer p) initial (actions ++ more) next ∧
      next.registry.world = final ∧ next.backfills p = some ⟨commitment, last⟩ := by
  induction follows generalizing state actions with
  | refl => exact ⟨[], state, by simpa using run, here, called⟩
  | step taken _ ih =>
    rename_i next _ _ after _ _
    have moves : buildStep parse state (.advance p) = some (state.take p next ⟨commitment, after⟩) := by
      simp [buildStep, called, here, taken]
    have own : BuildAction.Solo answer p state (.advance p) := rfl
    obtain ⟨more, reached, ran, ends⟩ := ih (run.snoc own moves) rfl (Function.update_self ..)
    exact ⟨.advance p :: more, reached, by simpa using ran, ends⟩
  | answered _ ih =>
    rename_i root dbPackage entrypoint _ _
    have moves : buildStep parse state (.answer p (answer dbPackage.files entrypoint)) =
        some (state.take p state.registry.world
          ⟨commitment, .answered root dbPackage entrypoint (answer dbPackage.files entrypoint)⟩) := by
      simp [buildStep, called]
    have own : BuildAction.Solo answer p state (.answer p (answer dbPackage.files entrypoint)) := by
      refine ⟨rfl, fun _ _ _ _ again => ?_⟩
      obtain ⟨-, waits⟩ := Backfill.mk.inj (Option.some.inj (called.symm.trans again))
      obtain ⟨-, rfl, rfl⟩ := BackfillPc.building.inj waits
      rfl
    obtain ⟨more, reached, ran, ends⟩ := ih (run.snoc own moves) here (Function.update_self ..)
    exact ⟨.answer p (answer dbPackage.files entrypoint) :: more, reached, by simpa using ran, ends⟩

theorem Backfilled.step {next : World} {pc after : BackfillPc}
    {result : Except Error Word × Registry.State}
    (taken : pc.next parse p world commitment = some (next, after))
    (rest : Backfilled parse answer p commitment next after result) :
    Backfilled parse answer p commitment world pc result := by
  obtain ⟨final, follows, ends⟩ := rest
  exact ⟨final, .step taken follows, ends⟩

theorem backfilled_ended (quiet : world.Quiet) (result : Except Error Word) :
    Backfilled parse answer p commitment world (.ended result) (result, world.committed) :=
  ⟨world, .refl, quiet, rfl⟩

theorem committed_withEntrypoint (packageId : RowId) (entrypoint : String) :
    ({ world with
        packages := update (withEntrypointAt packageId entrypoint world.clock) world.packages } :
      World).committed =
      { world.committed with
        db := world.committed.db.updatePackage packageId (·.withEntrypoint entrypoint world.clock) } := by
  simp only [World.committed, committed_update, Database.updatePackage]
  rfl

theorem backfilled_storingDebug (quiet : world.Quiet) (root : Word) (dbPackage : PackageRow)
    (entrypoint : String) (masp : Masp) (debugCommitment : Word) (builtWith : Option String) :
    Backfilled parse answer p commitment world
      (.storingDebug root dbPackage entrypoint masp debugCommitment builtWith)
      (let stored := (storeDebugBuild (fun _ => false) world.committed dbPackage.id root
          (some (.built masp debugCommitment builtWith)) world.clock).2
        if dbPackage.entrypoint.isSome then (.ok debugCommitment, stored)
        else (.ok debugCommitment, { stored with
          db := stored.db.updatePackage dbPackage.id (·.withEntrypoint entrypoint world.clock) })) := by
  let put := (Effect.put root masp .debug).apply p world
  have still : put.Quiet := ⟨quiet.packages, quiet.accounts, quiet.components, quiet.notes⟩
  let updated := (Effect.updateDebug dbPackage.id debugCommitment builtWith).apply p put
  have settled : updated.Quiet := still.updateDebug ..
  have came : updated.committed = (storeDebugBuild (fun _ => false) world.committed dbPackage.id root
      (some (.built masp debugCommitment builtWith)) world.clock).2 :=
    committed_updateDebug dbPackage.id debugCommitment builtWith
  have free : held p put.packages (·.id = dbPackage.id) = false :=
    still.packages.inserting.alone.held _
  have updates : (BackfillPc.updatingDebug dbPackage entrypoint debugCommitment builtWith).next parse p
      put commitment = some (updated, if dbPackage.entrypoint.isSome then .ended (.ok debugCommitment)
        else .updatingEntrypoint dbPackage entrypoint debugCommitment) := by
    simp only [BackfillPc.next, free, Bool.false_eq_true, if_false]
    rfl
  refine .step rfl (.step updates ?_)
  rw [← came]
  cases dbPackage.entrypoint.isSome with
  | true => exact backfilled_ended settled _
  | false =>
    have again : held p updated.packages (·.id = dbPackage.id) = false :=
      settled.packages.inserting.alone.held _
    have records : (BackfillPc.updatingEntrypoint dbPackage entrypoint debugCommitment).next parse p
        updated commitment = some ({ updated with
          packages := update (withEntrypointAt dbPackage.id entrypoint updated.clock)
            updated.packages }, .ended (.ok debugCommitment)) := by
      simp only [BackfillPc.next, again, Bool.false_eq_true, if_false]
    refine .step records ⟨_, .refl, ?_, committed_withEntrypoint dbPackage.id entrypoint⟩
    exact ⟨settled.packages.update _, settled.accounts, settled.components, settled.notes⟩

theorem backfilled_postDebugBuild (quiet : world.Quiet) :
    Backfilled parse answer p commitment world .reading
      (postDebugBuild parse (fun _ => false) world.committed commitment answer world.clock) := by
  refine .step rfl ?_
  unfold BackfillPc.read postDebugBuild
  cases parseRoot commitment with
  | none => exact backfilled_ended quiet _
  | some root =>
    have reads : world.committed.db.getPackage root =
        (Versions.committed world.packages).find? (·.commitment = root) := rfl
    simp only [reads, Bool.false_eq_true, if_false]
    cases (Versions.committed world.packages).find? (·.commitment = root) with
    | none => exact backfilled_ended quiet _
    | some dbPackage =>
      dsimp only
      cases dbPackage.debugCommitment with
      | some debugCommitment => exact backfilled_ended quiet _
      | none =>
        dsimp only
        cases dbPackage.entrypoint <|> inferEntrypoint parse dbPackage.files dbPackage.name with
        | none => exact backfilled_ended quiet _
        | some entrypoint =>
          dsimp only
          suffices answers : Backfilled parse answer p commitment world
              (.answered root dbPackage entrypoint (answer dbPackage.files entrypoint)) _ by
            obtain ⟨final, follows, ends⟩ := answers
            exact ⟨final, .answered follows, ends⟩
          cases answer dbPackage.files entrypoint with
          | error error => exact backfilled_ended quiet _
          | ok debug =>
            cases debug with
            | failed error => exact backfilled_ended quiet _
            | built masp debugCommitment builtWith =>
              exact backfilled_storingDebug quiet root dbPackage entrypoint masp debugCommitment
                builtWith

end

theorem post_postDebugBuild (parse : String → Option (List (String × Json)))
    (answer : Files → String → Except Error DebugBuild) {state : BuildState} {p : Pid}
    (commitment : String) (quiet : state.registry.world.Quiet) (fresh : state.registry.calls p = none)
    (free : state.backfills p = none) :
    ∃ actions next result, Run (buildStep parse) (BuildAction.Solo answer p) state
        (.post p commitment :: actions) next ∧
      next.backfills p = some ⟨commitment, .ended result⟩ ∧ next.registry.world.Quiet ∧
      (result, next.registry.world.committed) = postDebugBuild parse (fun _ => false)
        state.registry.world.committed commitment answer state.registry.world.clock := by
  obtain ⟨final, follows, still, came⟩ : Backfilled parse answer p commitment state.registry.world
    .reading _ := backfilled_postDebugBuild quiet
  have posts : buildStep parse state (.post p commitment) =
      some (state.take p state.registry.world ⟨commitment, .reading⟩) := by
    simp [buildStep, fresh, free]
  have own : BuildAction.Solo answer p state (.post p commitment) := rfl
  obtain ⟨actions, next, ran, rfl, ended⟩ :=
    follows.run (Run.nil.snoc own posts) rfl (Function.update_self ..)
  exact ⟨actions, next, _, ran, ended, still, Prod.ext rfl came⟩

def counterDebugBuild : DebugBuild :=
  .built [3] adderCommitment (some "0.7.0")

theorem counter_backfilled_alone : ∃ before actions next,
    exec Concurrent.step (fun _ _ => true) State.initial counterVerified = some before ∧
      (Versions.committed before.world.packages).map (·.debugCommitment) = [none] ∧
      Run (buildStep fun _ => none) (BuildAction.Solo (fun _ _ => .ok counterDebugBuild) 1)
        { BuildState.initial with registry := before } (.post 1 counterCommitment.text :: actions) next ∧
      next.backfills 1 = some ⟨counterCommitment.text, .ended (.ok adderCommitment)⟩ ∧
      next.registry.world.committed.store.get counterCommitment .debug = some [3] ∧
      next.registry.world.committed.db.packages.map (fun row => (row.debugCommitment, row.debugBuiltWith)) =
        [(some adderCommitment, some "0.7.0")] := by
  have reached : (exec Concurrent.step (fun _ _ => true) State.initial counterVerified).any (fun before =>
      let backfilled := postDebugBuild (fun _ => none) (fun _ => false) before.world.committed counterCommitment.text
        (fun _ _ => .ok counterDebugBuild) before.world.clock
      before.world.Quiet ∧ (before.calls 1).isNone ∧
        (Versions.committed before.world.packages).map (·.debugCommitment) = [none] ∧
        backfilled.1 = .ok adderCommitment ∧
        backfilled.2.store.get counterCommitment .debug = some [3] ∧
        backfilled.2.db.packages.map (fun row => (row.debugCommitment, row.debugBuiltWith)) =
          [(some adderCommitment, some "0.7.0")]) = true := by decide +kernel
  obtain ⟨before, ran, shown⟩ := (Option.any_eq_true _ _).mp reached
  obtain ⟨quiet, fresh, packages, answered, left⟩ := of_decide_eq_true shown
  have still : ({ BuildState.initial with registry := before } : BuildState).registry.world.Quiet := quiet
  obtain ⟨actions, next, result, backfills, ended, -, same⟩ := post_postDebugBuild (fun _ => none)
    (fun _ _ => .ok counterDebugBuild) counterCommitment.text still (Option.isNone_iff_eq_none.mp fresh) rfl
  have told : result = .ok adderCommitment := (congrArg Prod.fst same).trans answered
  have committed : next.registry.world.committed = _ := congrArg Prod.snd same
  refine ⟨before, actions, next, ran, packages, backfills, ?_⟩
  rw [ended, told, committed]
  exact ⟨rfl, left⟩

end SourceVerification.Concurrent
