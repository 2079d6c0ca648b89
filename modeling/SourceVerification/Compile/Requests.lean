import SourceVerification.Compile.CargoLock
import SourceVerification.Compile.Limiter

set_option autoImplicit false

namespace SourceVerification.QueueCompile

open Compile Limiter Limiter.State Paths Runs

structure CompileArgs where
  project : Project
  debug : Bool
  expectedCommitment : Option String
  signal : Option SignalId

structure Config where
  limits : Limiter.Config
  tmpdir : List Char
  cargoTargetDir : List Char
  args : TaskId → CompileArgs

inductive Kind
  | copy
  | output
deriving DecidableEq

def tmpDir (config : Config) (suffix : List Char) : List Char :=
  join config.tmpdir "miden-project-".toList ++ suffix

def lastSegment (path : List Char) : List Char :=
  (path.splitOn '/').getLast?.getD []

def outputName (tmpDir : List Char) : List Char :=
  (lastSegment tmpDir).map fun char => if char = '-' then '_' else char

def midencTargetDir (config : Config) (tmpDir : List Char) : List Char :=
  config.cargoTargetDir ++ '/' :: outputName tmpDir

def directory (config : Config) (suffix : List Char) : Kind → List Char
  | .copy => tmpDir config suffix
  | .output => midencTargetDir config (tmpDir config suffix)

def Kind.start : Kind → List Char
  | .copy => "miden-project-".toList
  | .output => "miden_project_".toList

theorem Kind.start_length (kind : Kind) : kind.start.length = 14 := by
  cases kind <;> decide

theorem lastSegment_append (before : List Char) {last : List Char} (slash : '/' ∉ last) :
    lastSegment (before ++ '/' :: last) = last := by
  rw [lastSegment, List.splitOn_append_cons_self, List.splitOn_eq_singleton slash]
  simp

section

variable {config : Config} {suffix : List Char} (alphanum : suffix.all Char.isAlphanum = true)

include alphanum

theorem not_mem_suffix {char : Char} (other : char.isAlphanum = false) : char ∉ suffix := by
  intro member
  have letter := List.all_eq_true.mp alphanum char member
  simp [other] at letter

theorem lastSegment_tmpDir : lastSegment (tmpDir config suffix) = Kind.copy.start ++ suffix := by
  have slash : '/' ∉ Kind.copy.start ++ suffix := by
    rw [List.mem_append, not_or]
    exact ⟨by decide, not_mem_suffix alphanum (by decide)⟩
  have plain : Plain Kind.copy.start := by decide
  have joined : tmpDir config suffix = join config.tmpdir Kind.copy.start ++ suffix := rfl
  rcases join_name config.tmpdir plain with alone | ⟨before, below⟩
  · rw [joined, alone, lastSegment, List.splitOn_eq_singleton slash]
    simp
  · rw [joined, below, List.append_assoc, List.cons_append]
    exact lastSegment_append before slash

theorem outputName_tmpDir : outputName (tmpDir config suffix) = Kind.output.start ++ suffix := by
  have dash : '-' ∉ suffix := not_mem_suffix alphanum (by decide)
  have kept : suffix.map (fun char => if char = '-' then '_' else char) = suffix := by
    refine (List.map_congr_left fun char member => if_neg ?_).trans (List.map_id suffix)
    rintro rfl
    exact dash member
  rw [outputName, lastSegment_tmpDir alphanum, List.map_append, kept]
  rfl

theorem lastSegment_directory (kind : Kind) :
    lastSegment (directory config suffix kind) = kind.start ++ suffix := by
  cases kind with
  | copy => exact lastSegment_tmpDir alphanum
  | output =>
    have slash : '/' ∉ outputName (tmpDir config suffix) := by
      rw [outputName_tmpDir alphanum, List.mem_append, not_or]
      exact ⟨by decide, not_mem_suffix alphanum (by decide)⟩
    rw [directory, midencTargetDir, lastSegment_append _ slash, outputName_tmpDir alphanum]

end

theorem directory_injective {config : Config} {suffix other : List Char} {kind another : Kind}
    (alphanum : suffix.all Char.isAlphanum = true) (too : other.all Char.isAlphanum = true)
    (same : directory config suffix kind = directory config other another) :
    suffix = other ∧ kind = another := by
  have segments := congrArg lastSegment same
  rw [lastSegment_directory alphanum, lastSegment_directory too] at segments
  obtain ⟨starts, suffixes⟩ := List.append_inj segments (by simp only [Kind.start_length])
  refine ⟨suffixes, ?_⟩
  cases kind with
  | copy =>
    cases another with
    | copy => rfl
    | output => exact absurd starts (by decide)
  | output =>
    cases another with
    | copy => exact absurd starts (by decide)
    | output => rfl

inductive Ending
  -- `BusyError`, as the queue is full.
  | busy
  -- The reason of the signal, before or during the wait.
  | aborted
  -- `mkdtemp` throws.
  | unmade
  -- What `buildProject` throws.
  | threw (error : BuildError)
  -- `use` returns or throws.
  | used (threw : Bool)

inductive Phase
  | waiting
  -- In `mkdtemp`, and once it has thrown.
  | making
  | unmade
  | building
  -- The `catch` of `compile`, still in the slot, with what is left to delete.
  | catching (error : BuildError) (pending : List Kind)
  | compiled (build : Build)
  -- The slot is released.
  | built (build : Build)
  | inUse (build : Build)
  -- The `finally` of `queueCompile`.
  | cleaning (threw : Bool) (pending : List Kind)
  | settled (ending : Ending)

def acquiredPhase : Acquired → Phase
  | .aborted => .settled .aborted
  | .busy => .settled .busy
  | .resolved | .pending => .waiting

structure State where
  limiter : Limiter.State
  phase : TaskId → Option Phase
  -- What `mkdtemp` has appended for each request, and for any.
  suffix : TaskId → Option (List Char)
  given : List (List Char)
  disk : List Char → Bool

def State.initial : State where
  limiter := Limiter.State.initial
  phase _ := none
  suffix _ := none
  given := []
  disk _ := false

namespace State

variable (state : State)

def move (request : TaskId) (phase : Phase) : State :=
  { state with phase := Function.update state.phase request (some phase) }

def write (directory : List Char) (present : Bool) : State :=
  { state with disk := Function.update state.disk directory present }

def mkdtemp (config : Config) (request : TaskId) (suffix : List Char) : State :=
  { state with
    suffix := Function.update state.suffix request (some suffix)
    given := state.given ++ [suffix] }.write (tmpDir config suffix) true

def limit (config : Config) (action : Limiter.Action) (request : TaskId) (phase : Phase) :
    Option State :=
  (Limiter.step config.limits state.limiter action).map fun limiter =>
    { state with limiter := limiter }.move request phase

end State

inductive Action
  | submit (request : TaskId)
  | begin
  -- `mkdtemp` throws, or makes a directory with a name that it has not given before.
  | mkdtemp (request : TaskId) (suffix : Option (List Char))
  -- The build makes its output directory.
  | makeOutput (request : TaskId)
  | endBuild (request : TaskId) (steps : BuildSteps)
  -- The `finally` of the limiter.
  | release (request : TaskId)
  | use (request : TaskId)
  | endUse (request : TaskId) (threw : Bool)
  -- One of the two `rm` of `removeDirs` is done.
  | remove (request : TaskId) (kind : Kind)
  | settle (request : TaskId)
  | abort (signal : SignalId)
  | dispatch (signal : SignalId)

-- `compile` after `buildProject`.
def compilePhase (config : Config) (request : TaskId) (suffix : List Char) (steps : BuildSteps) : Phase :=
  let args := config.args request
  match buildProject steps (tmpDir config suffix) args.project args.debug args.expectedCommitment with
  | .ok build => .compiled build
  | .error error => .catching error [.copy, .output]

def step (config : Config) (state : State) : Action → Option State
  | .submit request =>
    match state.phase request with
    | some _ => none
    | none =>
      let signal := (config.args request).signal
      state.limit config (.submit request signal) request
        (acquiredPhase (acquire config.limits state.limiter request signal).1)
  | .begin =>
    match state.limiter.ready with
    | request :: _ => state.limit config .begin request .making
    | [] => none
  | .mkdtemp request suffix =>
    match state.phase request, suffix with
    | some .making, none => some (state.move request .unmade)
    | some .making, some suffix =>
      if suffix.all Char.isAlphanum ∧ suffix ∉ state.given then
        some ((state.mkdtemp config request suffix).move request .building)
      else none
    | _, _ => none
  | .makeOutput request =>
    match state.phase request, state.suffix request with
    | some .building, some suffix => some (state.write (directory config suffix .output) true)
    | _, _ => none
  | .endBuild request steps =>
    match state.phase request, state.suffix request with
    | some .building, some suffix => some (state.move request (compilePhase config request suffix steps))
    | _, _ => none
  | .release request =>
    match state.phase request with
    | some (.compiled build) => state.limit config (.finish request) request (.built build)
    | some (.catching error []) => state.limit config (.finish request) request (.settled (.threw error))
    | some .unmade => state.limit config (.finish request) request (.settled .unmade)
    | _ => none
  | .use request =>
    match state.phase request with
    | some (.built build) => some (state.move request (.inUse build))
    | _ => none
  | .endUse request threw =>
    match state.phase request with
    | some (.inUse _) => some (state.move request (.cleaning threw [.copy, .output]))
    | _ => none
  | .remove request kind =>
    match state.phase request, state.suffix request with
    | some (.catching error pending), some suffix =>
      if kind ∈ pending then
        some ((state.write (directory config suffix kind) false).move request
          (.catching error (pending.filter (· ≠ kind))))
      else none
    | some (.cleaning threw pending), some suffix =>
      if kind ∈ pending then
        some ((state.write (directory config suffix kind) false).move request
          (.cleaning threw (pending.filter (· ≠ kind))))
      else none
    | _, _ => none
  | .settle request =>
    match state.phase request with
    | some (.cleaning threw []) => some (state.move request (.settled (.used threw)))
    | _ => none
  | .abort signal =>
    (Limiter.step config.limits state.limiter (.abort signal)).map fun limiter =>
      { state with limiter := limiter }
  | .dispatch signal =>
    match state.limiter.listeners.find? (·.1 = signal) with
    | some listener => state.limit config (.dispatch signal) listener.2 (.settled .aborted)
    | none => none

inductive Advance (config : Config) (request : TaskId) : Action → Phase → Phase → Prop
  | unmade : Advance config request (.mkdtemp request none) .making .unmade
  | endBuild (suffix : List Char) (steps : BuildSteps) :
      Advance config request (.endBuild request steps) .building (compilePhase config request suffix steps)
  | use (build : Build) : Advance config request (.use request) (.built build) (.inUse build)
  | endUse (build : Build) (threw : Bool) :
      Advance config request (.endUse request threw) (.inUse build) (.cleaning threw [.copy, .output])
  | settle (threw : Bool) :
      Advance config request (.settle request) (.cleaning threw []) (.settled (.used threw))

inductive Released : Phase → Phase → Prop
  | returned (build : Build) : Released (.compiled build) (.built build)
  | threw (error : BuildError) : Released (.catching error []) (.settled (.threw error))
  | unmade : Released .unmade (.settled .unmade)

inductive Removed (kind : Kind) : Phase → Phase → Prop
  | catching (error : BuildError) (pending : List Kind) (present : kind ∈ pending) :
      Removed kind (.catching error pending) (.catching error (pending.filter (· ≠ kind)))
  | cleaning (threw : Bool) (pending : List Kind) (present : kind ∈ pending) :
      Removed kind (.cleaning threw pending) (.cleaning threw (pending.filter (· ≠ kind)))

inductive Change (config : Config) (before : State) : Action → State → Prop
  | submitted (request : TaskId) (limiter : Limiter.State) (fresh : before.phase request = none)
      (taken : Limiter.step config.limits before.limiter
        (.submit request (config.args request).signal) = some limiter) :
      Change config before (.submit request) ({ before with limiter := limiter }.move request
        (acquiredPhase (acquire config.limits before.limiter request (config.args request).signal).1))
  | begun (request : TaskId) (rest : List TaskId) (limiter : Limiter.State)
      (next : before.limiter.ready = request :: rest)
      (taken : Limiter.step config.limits before.limiter .begin = some limiter) :
      Change config before .begin ({ before with limiter := limiter }.move request .making)
  | made (request : TaskId) (suffix : List Char) (here : before.phase request = some .making)
      (alphanum : suffix.all Char.isAlphanum = true) (fresh : suffix ∉ before.given) :
      Change config before (.mkdtemp request (some suffix))
        ((before.mkdtemp config request suffix).move request .building)
  | output (request : TaskId) (suffix : List Char) (here : before.phase request = some .building)
      (named : before.suffix request = some suffix) :
      Change config before (.makeOutput request) (before.write (directory config suffix .output) true)
  | advanced (action : Action) (request : TaskId) (phase next : Phase)
      (here : before.phase request = some phase) (advance : Advance config request action phase next) :
      Change config before action (before.move request next)
  | released (request : TaskId) (phase next : Phase) (limiter : Limiter.State)
      (here : before.phase request = some phase) (released : Released phase next)
      (taken : Limiter.step config.limits before.limiter (.finish request) = some limiter) :
      Change config before (.release request) ({ before with limiter := limiter }.move request next)
  | removed (request : TaskId) (kind : Kind) (suffix : List Char) (phase next : Phase)
      (here : before.phase request = some phase) (removed : Removed kind phase next)
      (named : before.suffix request = some suffix) :
      Change config before (.remove request kind)
        ((before.write (directory config suffix kind) false).move request next)
  | aborted (signal : SignalId) (limiter : Limiter.State)
      (taken : Limiter.step config.limits before.limiter (.abort signal) = some limiter) :
      Change config before (.abort signal) { before with limiter := limiter }
  | withdrawn (signal : SignalId) (listener : SignalId × TaskId) (limiter : Limiter.State)
      (found : before.limiter.listeners.find? (·.1 = signal) = some listener)
      (taken : Limiter.step config.limits before.limiter (.dispatch signal) = some limiter) :
      Change config before (.dispatch signal)
        ({ before with limiter := limiter }.move listener.2 (.settled .aborted))

theorem State.limit_eq_some {config : Config} {state after : State} {action : Limiter.Action}
    {request : TaskId} {phase : Phase} (taken : state.limit config action request phase = some after) :
    ∃ limiter, Limiter.step config.limits state.limiter action = some limiter ∧
      after = { state with limiter := limiter }.move request phase := by
  obtain ⟨limiter, took, rfl⟩ := Option.map_eq_some_iff.mp taken
  exact ⟨limiter, took, rfl⟩

theorem step_change {config : Config} {before after : State} {action : Action}
    (taken : step config before action = some after) : Change config before action after := by
  cases action with
  | submit request =>
    simp only [step] at taken
    split at taken
    next => cases taken
    next fresh =>
      obtain ⟨limiter, took, rfl⟩ := State.limit_eq_some taken
      exact .submitted request limiter fresh took
  | begin =>
    simp only [step] at taken
    split at taken
    next request rest next =>
      obtain ⟨limiter, took, rfl⟩ := State.limit_eq_some taken
      exact .begun request rest limiter next took
    next => cases taken
  | mkdtemp request suffix =>
    simp only [step] at taken
    split at taken
    next here =>
      obtain rfl := Option.some.inj taken
      exact .advanced _ request _ _ here .unmade
    next suffix here =>
      rw [Option.ite_none_right_eq_some, Option.some.injEq] at taken
      obtain ⟨⟨alphanum, fresh⟩, rfl⟩ := taken
      exact .made request suffix here alphanum fresh
    next => cases taken
  | makeOutput request =>
    simp only [step] at taken
    split at taken
    next suffix here named =>
      obtain rfl := Option.some.inj taken
      exact .output request suffix here named
    next => cases taken
  | endBuild request steps =>
    simp only [step] at taken
    split at taken
    next suffix here named =>
      obtain rfl := Option.some.inj taken
      exact .advanced _ request _ _ here (.endBuild suffix steps)
    next => cases taken
  | release request =>
    simp only [step] at taken
    split at taken
    next build here =>
      obtain ⟨limiter, took, rfl⟩ := State.limit_eq_some taken
      exact .released request _ _ limiter here (.returned build) took
    next error here =>
      obtain ⟨limiter, took, rfl⟩ := State.limit_eq_some taken
      exact .released request _ _ limiter here (.threw error) took
    next here =>
      obtain ⟨limiter, took, rfl⟩ := State.limit_eq_some taken
      exact .released request _ _ limiter here .unmade took
    next => cases taken
  | use request =>
    simp only [step] at taken
    split at taken
    next build here =>
      obtain rfl := Option.some.inj taken
      exact .advanced _ request _ _ here (.use build)
    next => cases taken
  | endUse request threw =>
    simp only [step] at taken
    split at taken
    next build here =>
      obtain rfl := Option.some.inj taken
      exact .advanced _ request _ _ here (.endUse build threw)
    next => cases taken
  | remove request kind =>
    simp only [step] at taken
    split at taken
    next error pending suffix here named =>
      rw [Option.ite_none_right_eq_some, Option.some.injEq] at taken
      obtain ⟨present, rfl⟩ := taken
      exact .removed request kind suffix _ _ here (.catching error pending present) named
    next threw pending suffix here named =>
      rw [Option.ite_none_right_eq_some, Option.some.injEq] at taken
      obtain ⟨present, rfl⟩ := taken
      exact .removed request kind suffix _ _ here (.cleaning threw pending present) named
    next => cases taken
  | settle request =>
    simp only [step] at taken
    split at taken
    next threw here =>
      obtain rfl := Option.some.inj taken
      exact .advanced _ request _ _ here (.settle threw)
    next => cases taken
  | abort signal =>
    rw [step, Option.map_eq_some_iff] at taken
    obtain ⟨limiter, took, rfl⟩ := taken
    exact .aborted signal limiter took
  | dispatch signal =>
    simp only [step] at taken
    split at taken
    next listener found =>
      obtain ⟨limiter, took, rfl⟩ := State.limit_eq_some taken
      exact .withdrawn signal listener limiter found took
    next => cases taken

inductive Place
  | queue
  | slot
  | outside
deriving DecidableEq

def Phase.place : Phase → Place
  | .waiting => .queue
  | .making | .unmade | .building | .catching _ _ | .compiled _ => .slot
  | .built _ | .inUse _ | .cleaning _ _ | .settled _ => .outside

def State.place (state : State) (request : TaskId) : Option Place :=
  (state.phase request).map Phase.place

-- Its `acquire` has not resolved, or the call has not gone on yet.
def Waits (limiter : Limiter.State) (request : TaskId) : Prop :=
  request ∈ limiter.waiting ∨ request ∈ limiter.ready

structure Linked (limits : Limiter.Config) (limiter : Limiter.State) (place : TaskId → Option Place) : Prop where
  sound : Sound limits limiter
  submitted : ∀ request ∈ limiter.accepted, place request ≠ none
  queue : ∀ request, Waits limiter request ↔ place request = some .queue
  slot : ∀ request, request ∈ limiter.running ↔ place request = some .slot

theorem Linked.initial (config : Config) :
    Linked config.limits State.initial.limiter State.initial.place where
  sound := Sound.initial config.limits
  submitted := by simp [State.initial, Limiter.State.initial]
  queue := by simp [State.initial, Limiter.State.initial, Waits, waiting, State.place]
  slot := by simp [State.initial, Limiter.State.initial, State.place]

section

variable {limits : Limiter.Config} {before after : Limiter.State} {place : TaskId → Option Place}

theorem count_places {state : Limiter.State} (sound : Sound limits state) (request : TaskId) :
    state.waiting.count request + state.ready.count request + state.running.count request +
      state.finished.count request + state.left.count request ≤ 1 := by
  have places := sound.places request
  have once := sound.count_le_one request
  simp only [State.holders, List.count_append] at places
  omega

theorem not_waits {state : Limiter.State} (sound : Sound limits state) {request : TaskId}
    (elsewhere : request ∈ state.running ∨ request ∈ state.finished ∨ request ∈ state.left) :
    ¬ Waits state request := by
  have once := count_places sound request
  simp only [Waits, ← List.count_pos_iff] at elsewhere ⊢
  omega

theorem not_running {state : Limiter.State} (sound : Sound limits state) {request : TaskId}
    (elsewhere : request ∈ state.finished ∨ request ∈ state.left) : request ∉ state.running := by
  have once := count_places sound request
  simp only [← List.count_pos_iff] at elsewhere ⊢
  omega

theorem Linked.update (linked : Linked limits before place) (sound : Sound limits after) {request : TaskId}
    {moved : Place} (accepted : ∀ other ∈ after.accepted, other ≠ request → other ∈ before.accepted)
    (waits : ∀ other, other ≠ request → (Waits after other ↔ Waits before other))
    (runs : ∀ other, other ≠ request → (other ∈ after.running ↔ other ∈ before.running))
    (queue : Waits after request ↔ moved = .queue) (slot : request ∈ after.running ↔ moved = .slot) :
    Linked limits after (Function.update place request (some moved)) := by
  refine ⟨sound, fun other member => ?_, fun other => ?_, fun other => ?_⟩ <;>
    by_cases same : other = request
  · simp [same]
  · rw [Function.update_of_ne same]
    exact linked.submitted other (accepted other member same)
  · simp [same, queue]
  · rw [Function.update_of_ne same, waits other same]
    exact linked.queue other
  · simp [same, slot]
  · rw [Function.update_of_ne same, runs other same]
    exact linked.slot other

theorem Linked.submit (linked : Linked limits before place) {request : TaskId} {signal : Option SignalId}
    (fresh : place request = none)
    (taken : Limiter.step limits before (.submit request signal) = some after) :
    Linked limits after (Function.update place request
      (some (acquiredPhase (acquire limits before request signal).1).place)) := by
  have sound := linked.sound.step taken
  have unqueued : ¬ Waits before request := by simp [linked.queue, fresh]
  have unslotted : request ∉ before.running := by simp [linked.slot, fresh]
  rw [Limiter.step, Option.ite_none_left_eq_some, Option.some.injEq] at taken
  obtain ⟨-, rfl⟩ := taken
  unfold acquire at sound ⊢
  split_ifs at sound ⊢
  · exact linked.update sound (fun _ member _ => member) (by simp) (by simp)
      (by simp [unqueued, acquiredPhase, Phase.place]) (by simp [unslotted, acquiredPhase, Phase.place])
  · refine linked.update sound (fun other member different => ?_) (fun other different => ?_) (by simp [occupy]) ?_ ?_
    · simpa [occupy, different] using member
    · simp [Waits, occupy, Limiter.State.waiting, different]
    · simp [Waits, occupy, acquiredPhase, Phase.place]
    · simp [occupy, unslotted, acquiredPhase, Phase.place]
  · exact linked.update sound (fun _ member _ => member) (by simp) (by simp)
      (by simp [unqueued, acquiredPhase, Phase.place]) (by simp [unslotted, acquiredPhase, Phase.place])
  · refine linked.update sound (fun other member different => ?_) (fun other different => ?_) (by simp [enqueue]) ?_ ?_
    · simpa [enqueue, different] using member
    · simp [Waits, enqueue, Limiter.State.waiting, different]
    · simp [Waits, enqueue, Limiter.State.waiting, acquiredPhase, Phase.place]
    · simp [enqueue, unslotted, acquiredPhase, Phase.place]

theorem Linked.begin (linked : Linked limits before place) {request : TaskId} {rest : List TaskId}
    (next : before.ready = request :: rest) (taken : Limiter.step limits before .begin = some after) :
    Linked limits after (Function.update place request (some .slot)) := by
  have sound := linked.sound.step taken
  simp only [Limiter.step, next, Option.some.injEq] at taken
  subst taken
  have unqueued := not_waits sound (.inl (List.mem_append_right before.running (List.mem_singleton.mpr rfl)))
  refine linked.update sound (fun _ member _ => member) (fun other different => ?_) (fun other different => ?_) ?_ ?_
  · simp [Waits, Limiter.State.waiting, next, different]
  · simp [different]
  · simp [unqueued]
  · simp

theorem release_moves (state : Limiter.State) : (∀ request, Waits state.release request ↔ Waits state request) ∧
    state.release.running = state.running ∧ state.release.finished = state.finished ∧
      state.release.accepted = state.accepted := by
  unfold release
  split
  next waiter rest queued =>
    refine ⟨fun request => ?_, rfl, rfl, rfl⟩
    simp only [Waits, start, waiting, queued, List.map_cons, List.mem_cons, List.mem_append,
      List.not_mem_nil, or_false]
    exact or_assoc.symm.trans or_comm |>.trans or_assoc.symm
  next => exact ⟨fun _ => Iff.rfl, rfl, rfl, rfl⟩

theorem Linked.finish (linked : Linked limits before place) {request : TaskId}
    (taken : Limiter.step limits before (.finish request) = some after) :
    Linked limits after (Function.update place request (some .outside)) := by
  have sound := linked.sound.step taken
  rw [Limiter.step, Option.ite_none_right_eq_some, Option.some.injEq] at taken
  obtain ⟨-, same⟩ := taken
  obtain ⟨waits, running, finished, accepted⟩ := release_moves { before with
    running := before.running.erase request
    finished := before.finished ++ [request] }
  rw [same] at waits running finished accepted
  have done : request ∈ after.finished := by simp [finished]
  refine linked.update sound (fun other member _ => accepted ▸ member) (fun other _ => waits other)
    (fun other different => ?_) ?_ ?_
  · rw [running, List.mem_erase_of_ne different]
  · simp [not_waits sound (.inr (.inl done))]
  · simp [not_running sound (.inl done)]

theorem Linked.abort (linked : Linked limits before place) {signal : SignalId}
    (taken : Limiter.step limits before (.abort signal) = some after) : Linked limits after place := by
  have sound := linked.sound.step taken
  obtain rfl := Option.some.inj taken
  exact ⟨sound, linked.submitted, linked.queue, linked.slot⟩

theorem Linked.dispatch (linked : Linked limits before place) {signal : SignalId}
    {listener : SignalId × TaskId} (found : before.listeners.find? (·.1 = signal) = some listener)
    (taken : Limiter.step limits before (.dispatch signal) = some after) :
    Linked limits after (Function.update place listener.2 (some .outside)) := by
  have sound := linked.sound.step taken
  have left : after.left = before.left ++ [listener.2] := by
    simp only [Limiter.step, found, Option.ite_none_right_eq_some, Option.some.injEq] at taken
    obtain ⟨-, rfl⟩ := taken
    rfl
  obtain ⟨earlier, later, task, queued, rfl⟩ := linked.sound.dispatched taken
  obtain rfl : task = listener.2 := by simpa using left
  have gone : listener.2 ∈ before.left ++ [listener.2] := List.mem_append_right _ (List.mem_singleton.mpr rfl)
  refine linked.update sound (fun _ member _ => member) (fun other different => ?_) (fun _ _ => Iff.rfl) ?_ ?_
  · simp [Waits, waiting, queued, different]
  · simp [not_waits sound (.inr (.inr gone))]
  · simp [not_running sound (.inr gone)]

end

section

variable {config : Config} {before after : State} {action : Action}

theorem place_move (state : State) (request : TaskId) (phase : Phase) :
    (state.move request phase).place = Function.update state.place request (some phase.place) := by
  funext other
  by_cases same : other = request
  · simp [State.place, State.move, same]
  · simp [State.place, State.move, same]

theorem place_stays {state : State} {request : TaskId} {phase next : Phase}
    (here : state.phase request = some phase) (same : next.place = phase.place) :
    (state.move request next).place = state.place := by
  rw [place_move, same]
  exact Function.update_eq_self_iff.mpr (by simp [State.place, here])

theorem Advance.place {request : TaskId} {phase next : Phase}
    (advance : Advance config request action phase next) : next.place = phase.place := by
  cases advance with
  | endBuild suffix steps =>
    unfold compilePhase
    simp only
    split <;> rfl
  | unmade | use | endUse | settle => rfl

theorem Removed.place {kind : Kind} {phase next : Phase} (removed : Removed kind phase next) :
    next.place = phase.place := by
  cases removed <;> rfl

theorem Released.place {phase next : Phase} (released : Released phase next) : next.place = .outside := by
  cases released <;> rfl

theorem linked_step (linked : Linked config.limits before.limiter before.place)
    (taken : step config before action = some after) :
    Linked config.limits after.limiter after.place := by
  cases step_change taken with
  | submitted request limiter fresh took =>
    rw [place_move]
    exact linked.submit (by simp [State.place, fresh]) took
  | begun request rest limiter next took =>
    rw [place_move]
    exact linked.begin next took
  | made request suffix here alphanum fresh =>
    have unmoved : (before.mkdtemp config request suffix).phase request = some .making := here
    rw [place_stays unmoved (show Phase.building.place = Phase.making.place from rfl)]
    exact linked
  | output request suffix here named => exact linked
  | advanced action request phase next here advance =>
    rw [place_stays here advance.place]
    exact linked
  | released request phase next limiter here released took =>
    rw [place_move, released.place]
    exact linked.finish took
  | removed request kind suffix phase next here removed named =>
    have unmoved : (before.write (directory config suffix kind) false).phase request = some phase := here
    rw [place_stays unmoved removed.place]
    exact linked
  | aborted signal limiter took => exact linked.abort took
  | withdrawn signal listener limiter found took =>
    rw [place_move]
    exact linked.dispatch found took

end

end SourceVerification.QueueCompile
