import SourceVerification.Concurrent.Machine

set_option autoImplicit false

namespace SourceVerification.Concurrent

open Registry Versions Tables

structure World.Alone (p : Pid) (world : World) : Prop where
  packages : Versions.Alone p world.packages
  accounts : Versions.Alone p world.accounts
  components : Versions.Alone p world.components
  notes : Versions.Alone p world.notes

structure World.Inserting (p : Pid) (world : World) : Prop where
  packages : Versions.Inserting p world.packages
  accounts : Versions.Inserting p world.accounts
  components : Versions.Inserting p world.components
  notes : Versions.Inserting p world.notes

structure World.Quiet (world : World) : Prop where
  packages : Versions.Quiet world.packages
  accounts : Versions.Quiet world.accounts
  components : Versions.Quiet world.components
  notes : Versions.Quiet world.notes

theorem World.quiet_iff {world : World} : world.Quiet ↔
    Versions.Quiet world.packages ∧ Versions.Quiet world.accounts ∧ Versions.Quiet world.components ∧
      Versions.Quiet world.notes := by
  constructor
  · intro quiet
    exact ⟨quiet.packages, quiet.accounts, quiet.components, quiet.notes⟩
  · intro all
    exact ⟨all.1, all.2.1, all.2.2.1, all.2.2.2⟩

instance (world : World) : Decidable world.Quiet :=
  decidable_of_iff _ World.quiet_iff.symm

theorem World.Inserting.alone {p : Pid} {world : World} (inserting : world.Inserting p) :
    world.Alone p :=
  ⟨inserting.packages.alone, inserting.accounts.alone, inserting.components.alone,
    inserting.notes.alone⟩

theorem World.Quiet.inserting {world : World} (quiet : world.Quiet) (p : Pid) : world.Inserting p :=
  ⟨quiet.packages.inserting, quiet.accounts.inserting, quiet.components.inserting,
    quiet.notes.inserting⟩

def World.seenBy (p : Pid) (world : World) : Database where
  packages := view p world.packages
  accounts := view p world.accounts
  components := view p world.components
  notes := view p world.notes
  nextId := world.nextId

def World.committed (world : World) : Registry.State where
  db := {
    packages := Versions.committed world.packages
    accounts := Versions.committed world.accounts
    components := Versions.committed world.components
    notes := Versions.committed world.notes
    nextId := world.nextId }
  store := world.store

theorem World.Quiet.seenBy {world : World} (quiet : world.Quiet) (p : Pid) :
    world.seenBy p = world.committed.db := by
  simp only [World.seenBy, World.committed, quiet.packages.view, quiet.accounts.view,
    quiet.components.view, quiet.notes.view]

theorem World.Alone.apply {p : Pid} {world : World} (alone : world.Alone p) (effect : Effect) :
    (effect.apply p world).Alone p where
  packages := effect.packages_apply p world ▸ (alone.packages.apply _).update _
  accounts := effect.accounts_apply p world ▸ alone.accounts.apply _
  components := effect.components_apply p world ▸ alone.components.apply _
  notes := effect.notes_apply p world ▸ alone.notes.apply _

theorem World.Alone.quiet_commit {p : Pid} {world : World} (alone : world.Alone p) :
    (Effect.commit.apply p world).Quiet :=
  ⟨alone.packages.quiet_commit, alone.accounts.quiet_commit, alone.components.quiet_commit,
    alone.notes.quiet_commit⟩

theorem World.Alone.quiet_rollback {p : Pid} {world : World} (alone : world.Alone p) :
    (Effect.rollback.apply p world).Quiet :=
  ⟨alone.packages.quiet_rollback, alone.accounts.quiet_rollback, alone.components.quiet_rollback,
    alone.notes.quiet_rollback⟩

theorem World.Alone.committed_commit {p : Pid} {world : World} (alone : world.Alone p) :
    (Effect.commit.apply p world).committed = { db := world.seenBy p, store := world.store } := by
  simp only [World.committed, World.seenBy, Effect.apply, alone.packages.committed_commit,
    alone.accounts.committed_commit, alone.components.committed_commit,
    alone.notes.committed_commit]

theorem World.Alone.committed_rollback {p : Pid} {world : World} (alone : world.Alone p) :
    (Effect.rollback.apply p world).committed = world.committed := by
  simp only [World.committed, Effect.apply, alone.packages.committed_rollback,
    alone.accounts.committed_rollback, alone.components.committed_rollback,
    alone.notes.committed_rollback]

inductive Solo (p : Pid) : World → Call → World → Call → Prop
  | refl {world : World} {call : Call} : Solo p world call world call
  | step {world final : World} {call after last : Call} {effect : Effect}
      (taken : call.next p world = some (effect, after))
      (rest : Solo p (effect.apply p world) after final last) : Solo p world call final last

theorem Solo.trans {p : Pid} {world middle final : World} {call between last : Call}
    (first : Solo p world call middle between) (second : Solo p middle between final last) :
    Solo p world call final last := by
  induction first with
  | refl => exact second
  | step taken _ ih => exact .step taken (ih second)

theorem Solo.verify {p : Pid} {input : VerifyInput} {world final : World} {pc after : VerifyPc}
    {effect : Effect} {last : Call} (taken : pc.next p world input = some (effect, after))
    (rest : Solo p (effect.apply p world) (.verify input after) final last) :
    Solo p world (.verify input pc) final last :=
  .step (by simp [Call.next, taken]) rest

theorem Solo.cleanup {p : Pid} {cutoff : Time} {world final : World} {pc after : CleanupPc}
    {effect : Effect} {last : Call} (taken : pc.next p world cutoff = some (effect, after))
    (rest : Solo p (effect.apply p world) (.cleanup cutoff after) final last) :
    Solo p world (.cleanup cutoff pc) final last :=
  .step (by simp [Call.next, taken]) rest

theorem Solo.exec {p : Pid} {world final : World} {call last : Call}
    (solo : Solo p world call final last) {state : State} (here : state.world = world)
    (called : state.calls p = some call) :
    ∃ steps next, Runs.exec Concurrent.step (fun _ _ => true) state (advances p steps) = some next ∧
      next.world = final ∧ next.calls p = some last := by
  induction solo generalizing state with
  | refl => exact ⟨0, state, rfl, here, called⟩
  | step taken rest ih =>
    rename_i world final call after last effect
    have moves : Concurrent.step state (.advance p) = some (state.take p effect after) := by
      simp [Concurrent.step, called, here, taken]
    obtain ⟨steps, next, ran, reached⟩ :=
      @ih (state.take p effect after) (by simp [here]) (take_calls_self ..)
    refine ⟨steps + 1, next, ?_, reached⟩
    simpa [advances, List.replicate_succ, Runs.exec, moves] using ran

end SourceVerification.Concurrent
