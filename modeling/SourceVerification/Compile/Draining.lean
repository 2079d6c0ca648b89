import Mathlib.Algebra.Order.BigOperators.Group.Finset
import SourceVerification.Compile.QueueCompile

set_option autoImplicit false

namespace SourceVerification.QueueCompile

open Compile Limiter Runs

def Action.progresses : Action → Bool
  | .submit _ | .abort _ | .makeOutput _ => false
  | _ => true

def Action.submits : Action → Option TaskId
  | .submit request => some request
  | _ => none

def submitted (actions : List Action) : Finset TaskId :=
  (actions.filterMap Action.submits).toFinset

def Phase.remaining : Phase → Nat
  | .waiting => 9
  | .making => 8
  | .building => 7
  | .compiled _ => 6
  | .built _ => 5
  | .inUse _ => 4
  | .catching _ pending | .cleaning _ pending => pending.length + 1
  | .unmade => 1
  | .settled _ => 0

def remaining (requests : Finset TaskId) (state : State) : Nat :=
  ∑ request ∈ requests, (state.phase request).elim 0 Phase.remaining

theorem remaining_update {requests : Finset TaskId} {before after : State} {request : TaskId} {phase next : Phase}
    (member : request ∈ requests) (here : before.phase request = some phase)
    (moved : after.phase = Function.update before.phase request (some next)) :
    remaining requests after + phase.remaining = remaining requests before + next.remaining := by
  have others : ∑ other ∈ requests.erase request, (after.phase other).elim 0 Phase.remaining =
      ∑ other ∈ requests.erase request, (before.phase other).elim 0 Phase.remaining := by
    refine Finset.sum_congr rfl fun other among => ?_
    rw [moved, Function.update_of_ne (Finset.ne_of_mem_erase among)]
  unfold remaining
  rw [← Finset.add_sum_erase _ _ member, ← Finset.add_sum_erase _ _ member, others, moved, Function.update_self, here]
  simp only [Option.elim_some]
  omega

theorem moves_of_progresses {config : Config} {before after : State} {action : Action}
    (linked : Linked config.limits before.limiter before.place) (progresses : action.progresses = true)
    (taken : step config before action = some after) :
    ∃ request phase next, before.phase request = some phase ∧
      after.phase = Function.update before.phase request (some next) ∧ next.remaining < phase.remaining := by
  cases step_change taken with
  | submitted request limiter fresh took => cases progresses
  | output request suffix here named => cases progresses
  | aborted signal limiter took => cases progresses
  | begun request rest limiter next took =>
    have waits : Waits before.limiter request := .inr (by rw [next]; exact List.mem_cons_self)
    exact ⟨request, .waiting, .making, phase_of_queue ((linked.queue request).mp waits), rfl, by decide⟩
  | made request suffix here alphanum fresh => exact ⟨request, .making, .building, here, rfl, by decide⟩
  | advanced action request phase next here advance =>
    refine ⟨request, phase, next, here, rfl, ?_⟩
    cases advance with
    | unmade => decide
    | endBuild suffix steps =>
      unfold compilePhase
      dsimp only
      split
      next => exact Nat.lt_add_one 6
      next => exact (show 3 < 7 by decide)
    | use build => exact Nat.lt_add_one 4
    | endUse build threw => exact Nat.lt_add_one 3
    | settle threw => exact Nat.lt_add_one 0
  | released request phase next limiter here released took =>
    refine ⟨request, phase, next, here, rfl, ?_⟩
    cases released with
    | returned build => exact Nat.lt_add_one 5
    | threw error => exact Nat.lt_add_one 0
    | unmade => decide
  | removed request kind suffix phase next here removed named =>
    refine ⟨request, phase, next, here, rfl, ?_⟩
    have fewer {pending : List Kind} (present : kind ∈ pending) :
        (pending.filter (· ≠ kind)).length < pending.length :=
      List.length_filter_lt_length_iff_exists.mpr ⟨kind, present, by simp⟩
    cases removed with
    | catching error pending present => exact Nat.add_lt_add_right (fewer present) 1
    | cleaning threw pending present => exact Nat.add_lt_add_right (fewer present) 1
  | withdrawn signal listener limiter found took =>
    have waits := linked.sound.listener_waits (List.mem_of_find?_eq_some found)
    have waiting := phase_of_queue ((linked.queue listener.2).mp (.inl (List.mem_map_of_mem waits)))
    exact ⟨listener.2, .waiting, .settled .aborted, waiting, rfl, by decide⟩

theorem stays_of_not_progresses {config : Config} {before after : State} {action : Action}
    (waits : action.progresses = false) (old : action.submits = none) (taken : step config before action = some after) :
    after.phase = before.phase := by
  cases step_change taken with
  | submitted request limiter fresh took => cases old
  | output request suffix here named => rfl
  | aborted signal limiter took => rfl
  | begun | made | released | removed | withdrawn => cases waits
  | advanced action request phase next here advance => cases advance <;> cases waits

structure Known (actions : List Action) (state : State) : Prop where
  known : ∀ request, state.phase request ≠ none ↔ request ∈ submitted actions
  near : ∀ request phase, state.phase request = some phase → phase.remaining ≤ 9

theorem mem_submitted_snoc {actions : List Action} {action : Action} {request : TaskId} :
    request ∈ submitted (actions ++ [action]) ↔ request ∈ submitted actions ∨ action.submits = some request := by
  unfold submitted
  rw [List.mem_toFinset, List.filterMap_append, List.mem_append, List.mem_toFinset]
  exact or_congr_right (by simp [List.mem_filterMap])

theorem Known.moved {actions : List Action} {before after : State} {action : Action} (kept : Known actions before)
    {request : TaskId} {next : Phase} (near : next.remaining ≤ 9)
    (requested : before.phase request ≠ none ∧ action.submits = none ∨ action.submits = some request)
    (moved : after.phase = Function.update before.phase request (some next)) : Known (actions ++ [action]) after := by
  constructor
  case known =>
    intro other
    rw [mem_submitted_snoc, moved]
    by_cases same : other = request
    next =>
      subst same
      rw [Function.update_self]
      refine iff_of_true (by simp) ?_
      rcases requested with ⟨before, -⟩ | submits
      · exact .inl ((kept.known other).mp before)
      · exact .inr submits
    next =>
      rw [Function.update_of_ne same, kept.known other]
      refine (or_iff_left ?_).symm
      rcases requested with ⟨-, none⟩ | submits
      · simp [none]
      · simpa [submits] using Ne.symm same
  case near =>
    intro other phase here
    rw [moved] at here
    by_cases same : other = request
    next =>
      subst same
      rw [Function.update_self] at here
      obtain rfl := Option.some.inj here
      exact near
    next =>
      rw [Function.update_of_ne same] at here
      exact kept.near other phase here

theorem acquiredPhase_remaining (acquired : Acquired) : (acquiredPhase acquired).remaining ≤ 9 := by
  cases acquired <;> decide

theorem Reached.known {config : Config} {actions : List Action} {state : State} (run : Reached config actions state) :
    Known actions state := by
  refine Run.invariant run Known ⟨by simp [State.initial, submitted], by simp [State.initial]⟩ ?_
  intro actions before action after reached kept _ taken
  cases progresses : action.progresses with
  | true =>
    have linked := (Reached.kept reached).linked
    obtain ⟨request, phase, next, here, moved, nearer⟩ := moves_of_progresses linked progresses taken
    have near := kept.near request phase here
    have old : action.submits = none := by
      cases action <;> first | rfl | cases progresses
    exact kept.moved (by omega) (.inl ⟨by simp [here], old⟩) moved
  | false =>
    cases action with
    | submit request =>
      cases step_change taken with
      | submitted request limiter fresh took => exact kept.moved (acquiredPhase_remaining _) (.inr rfl) rfl
      | advanced action request phase next here advance => cases advance
    | abort signal =>
      have same := stays_of_not_progresses rfl rfl taken
      exact ⟨fun request => by rw [same, mem_submitted_snoc, kept.known]; simp [Action.submits],
        fun request phase here => kept.near request phase (same ▸ here)⟩
    | makeOutput request =>
      have same := stays_of_not_progresses rfl rfl taken
      exact ⟨fun request => by rw [same, mem_submitted_snoc, kept.known]; simp [Action.submits],
        fun request phase here => kept.near request phase (same ▸ here)⟩
    | begin | mkdtemp | endBuild | release | use | endUse | remove | settle | dispatch => cases progresses

theorem Known.remaining_le {actions : List Action} {state : State} (kept : Known actions state) :
    remaining (submitted actions) state ≤ 9 * (submitted actions).card := by
  have each : ∀ request ∈ submitted actions, (state.phase request).elim 0 Phase.remaining ≤ 9 := by
    intro request _
    cases here : state.phase request with
    | none => exact Nat.zero_le 9
    | some phase => exact kept.near request phase here
  calc remaining (submitted actions) state
      ≤ ∑ _request ∈ submitted actions, 9 := Finset.sum_le_sum each
    _ = 9 * (submitted actions).card := by rw [Finset.sum_const_nat fun _ _ => rfl, Nat.mul_comm]

section

variable {config : Config} {state : State} {actions : List Action}

def GoesOn (config : Config) (state : State) : Prop :=
  ∃ action, action.progresses = true ∧ (step config state action).isSome

theorem Kept.suffix_of_held (kept : Kept config actions state) {request : TaskId} {kind : Kind}
    (held : state.status request kind ≠ .absent) : ∃ suffix, state.suffix request = some suffix := by
  refine Option.ne_none_iff_exists'.mp fun unnamed => ?_
  exact held ((kept.owned.named request kind).mp unnamed)

theorem Kept.goesOn (kept : Kept config actions state) {request : TaskId} {phase : Phase}
    (here : state.phase request = some phase) (started : phase.place ≠ .queue)
    (unsettled : ∀ ending, phase ≠ .settled ending) : GoesOn config state := by
  cases phase with
  | waiting => exact absurd rfl started
  | settled ending => exact absurd rfl (unsettled ending)
  | making => exact ⟨.mkdtemp request none, rfl, by simp [step, here]⟩
  | unmade => exact ⟨.release request, rfl, kept.releases here .unmade⟩
  | building =>
    have held : state.status request .copy ≠ .absent := by simp [status_of_phase here, Phase.status]
    obtain ⟨suffix, named⟩ := kept.suffix_of_held held
    exact ⟨.endBuild request (crateSteps copyRoot), rfl, by simp [step, here, named]⟩
  | compiled build => exact ⟨.release request, rfl, kept.releases here (.returned build)⟩
  | built build => exact ⟨.use request, rfl, by simp [step, here]⟩
  | inUse build => exact ⟨.endUse request false, rfl, by simp [step, here]⟩
  | catching error pending =>
    cases pending with
    | nil => exact ⟨.release request, rfl, kept.releases here (.threw error)⟩
    | cons kind rest => exact ⟨.remove request kind, rfl, kept.removes here (.catching error _ List.mem_cons_self)⟩
  | cleaning threw pending =>
    cases pending with
    | nil => exact ⟨.settle request, rfl, by simp [step, here]⟩
    | cons kind rest => exact ⟨.remove request kind, rfl, kept.removes here (.cleaning threw _ List.mem_cons_self)⟩

theorem goesOn_of_ready {request : TaskId} {rest : List TaskId} (next : state.limiter.ready = request :: rest) :
    GoesOn config state :=
  ⟨.begin, rfl, by simp [step, next, State.limit, Limiter.step]⟩

theorem Kept.goesOn_of_unsettled (kept : Kept config actions state) (positive : 0 < config.limits.concurrency)
    {request : TaskId} {phase : Phase} (here : state.phase request = some phase)
    (unsettled : ∀ ending, phase ≠ .settled ending) : GoesOn config state := by
  by_cases queued : phase.place = .queue
  next =>
    have sound := kept.linked.sound
    have place : state.place request = some .queue := by simp [State.place, here, queued]
    cases ready : state.limiter.ready with
    | cons first rest => exact goesOn_of_ready ready
    | nil =>
      rcases (kept.linked.queue request).mpr place with waits | first
      · have full : state.limiter.holders.length = config.limits.concurrency := by
          refine sound.busy ?_
          rintro empty
          simp [Limiter.State.waiting, empty] at waits
        simp only [Limiter.State.holders, ready, List.nil_append] at full
        obtain ⟨other, running⟩ := List.exists_mem_of_length_pos (full ▸ positive)
        have slot := (kept.linked.slot other).mp running
        obtain ⟨held, there, placed⟩ := Option.map_eq_some_iff.mp slot
        refine kept.goesOn there (by simp [placed]) ?_
        rintro ending rfl
        cases placed
      · simp [ready] at first
  next => exact kept.goesOn here queued unsettled

end

/-- Every request has ended, and nothing of it is left. -/
structure Drained (actions : List Action) (state : State) : Prop where
  settled : ∀ request ∈ submitted actions, ∃ ending, state.phase request = some (.settled ending)
  idle : state.limiter.active = 0
  nobody : state.limiter.queue = []
  deleted : ∀ path, state.disk path = false

theorem Kept.drained {config : Config} {actions : List Action} {state : State} (kept : Kept config actions state)
    (known : Known actions state)
    (settled : ∀ request phase, state.phase request = some phase → ∃ ending, phase = .settled ending) :
    Drained actions state := by
  have outside {request : TaskId} {place : Place} (placed : state.place request = some place) : place = .outside := by
    obtain ⟨phase, here, rfl⟩ := Option.map_eq_some_iff.mp placed
    obtain ⟨ending, rfl⟩ := settled request phase here
    rfl
  have nobody (request : TaskId) : ¬ Waits state.limiter request ∧ request ∉ state.limiter.running := by
    rw [kept.linked.queue, kept.linked.slot]
    constructor
    case left =>
      intro queued
      cases outside queued
    case right =>
      intro slot
      cases outside slot
  have waiting : state.limiter.waiting = [] :=
    List.eq_nil_iff_forall_not_mem.mpr fun request member => (nobody request).1 (.inl member)
  have ready : state.limiter.ready = [] :=
    List.eq_nil_iff_forall_not_mem.mpr fun request member => (nobody request).1 (.inr member)
  have running : state.limiter.running = [] :=
    List.eq_nil_iff_forall_not_mem.mpr fun request member => (nobody request).2 member
  constructor
  case settled =>
    intro request member
    obtain ⟨phase, here⟩ := Option.ne_none_iff_exists'.mp ((known.known request).mpr member)
    obtain ⟨ending, rfl⟩ := settled request phase here
    exact ⟨ending, here⟩
  case idle => simp [kept.linked.sound.counted, Limiter.State.holders, ready, running]
  case nobody => exact List.map_eq_nil_iff.mp waiting
  case deleted =>
    intro path
    rw [← Bool.not_eq_true]
    intro present
    obtain ⟨request, kind, -, held⟩ := kept.owned.owned path present
    cases here : state.phase request with
    | none => simp [State.status, here] at held
    | some phase =>
      obtain ⟨ending, rfl⟩ := settled request phase here
      exact settled_status here kind held

theorem Kept.stops {config : Config} {actions : List Action} {state : State} (kept : Kept config actions state)
    (known : Known actions state) (nothing : remaining (submitted actions) state = 0) : ¬ GoesOn config state := by
  rintro ⟨action, progresses, taken⟩
  obtain ⟨after, taken⟩ := Option.isSome_iff_exists.mp taken
  obtain ⟨request, phase, next, here, moved, nearer⟩ := moves_of_progresses kept.linked progresses taken
  have member : request ∈ submitted actions := (known.known request).mp (by simp [here])
  have balance := remaining_update member here moved
  omega

theorem Drained.remaining {actions : List Action} {state : State} (drained : Drained actions state) :
    remaining (submitted actions) state = 0 := by
  refine Finset.sum_eq_zero fun request member => ?_
  obtain ⟨ending, here⟩ := drained.settled request member
  rw [here]
  rfl

def NoNew (_ : State) (action : Action) : Prop := action.submits = none

theorem news {config : Config} {state final : State} {later : List Action}
    (rest : Run (step config) NoNew state later final) : ∀ action ∈ later, action.submits = none := by
  refine rest.invariant (fun later _ => ∀ action ∈ later, action.submits = none) (by simp) ?_
  intro later before action after _ none old _ other member
  rcases List.mem_append.mp member with earlier | last
  · exact none other earlier
  · obtain rfl := List.mem_singleton.mp last
    exact old

theorem submitted_append {actions later : List Action} (none : ∀ action ∈ later, action.submits = none) :
    submitted (actions ++ later) = submitted actions := by
  have nobody : later.filterMap Action.submits = [] := List.filterMap_eq_nil_iff.mpr none
  rw [submitted, List.filterMap_append, nobody, List.append_nil, submitted]

/-- Once no more requests come in, however many wait: at most nine more steps are taken for every request there is, in all
and in any order, and, with a slot to be had, no step is left exactly where each has ended, the slots are free and every
directory is deleted. -/
theorem queueCompile_drains {config : Config} {actions later : List Action} {state final : State}
    (reached : Reached config actions state) (rest : Run (step config) NoNew state later final) :
    later.countP Action.progresses ≤ 9 * (submitted actions).card ∧
      (0 < config.limits.concurrency → (¬ GoesOn config final ↔ Drained actions final)) := by
  have weaker : ∀ before action, NoNew before action → True := fun _ _ _ => trivial
  have same : submitted (actions ++ later) = submitted actions := submitted_append (news rest)
  constructor
  case left =>
    have counted := rest.countP_le (remaining (submitted actions)) Action.progresses ?_
    next =>
      have start := reached.known.remaining_le
      omega
    intro earlier before action after ran old taken
    have now : Reached config (actions ++ earlier) before := reached.append ran weaker
    cases progresses : action.progresses with
    | true =>
      have linked := (Reached.kept now).linked
      obtain ⟨request, phase, next, here, moved, nearer⟩ := moves_of_progresses linked progresses taken
      have member : request ∈ submitted (actions ++ earlier) := ((Reached.known now).known request).mp (by simp [here])
      rw [submitted_append (news ran)] at member
      have balance := remaining_update member here moved
      simp only [Bool.toNat_true]
      omega
    | false =>
      have unmoved := stays_of_not_progresses progresses old taken
      simp [remaining, unmoved]
  case right =>
    intro positive
    have whole : Reached config (actions ++ later) final := reached.append rest weaker
    have kept := Reached.kept whole
    have known := Reached.known whole
    constructor
    case mp =>
      intro stuck
      have settled : ∀ request phase, final.phase request = some phase → ∃ ending, phase = .settled ending := by
        intro request phase here
        by_contra unsettled
        rw [not_exists] at unsettled
        exact stuck (kept.goesOn_of_unsettled positive here unsettled)
      have drained := kept.drained known settled
      exact ⟨same ▸ drained.settled, drained.idle, drained.nobody, drained.deleted⟩
    case mpr =>
      intro drained
      exact kept.stops known (same ▸ drained.remaining)

-- The second request of `overlap` is used and deleted too.
def closing : List Action :=
  [.release 1, .use 1, .endUse 1 true, .remove 1 .output, .remove 1 .copy, .settle 1]

theorem overlap_drains : ∃ state final, Reached counterConfig overlap state ∧ Run (step counterConfig) NoNew state closing final ∧
    closing.countP Action.progresses ≤ 9 * (submitted overlap).card ∧ Drained overlap final := by
  have ran : (exec (step counterConfig) (fun _ _ => true) State.initial overlap).any (fun state =>
      (exec (step counterConfig) (fun _ action => action.submits.isNone) state closing).any (fun final =>
        decide (remaining (submitted (overlap ++ closing)) final = 0))) = true := by decide +kernel
  obtain ⟨state, reached, ran⟩ := exists_run_of_exec (fun _ _ _ => trivial) ran
  obtain ⟨final, rest, done⟩ := exists_run_of_exec (fun _ _ => Option.isNone_iff_eq_none.mp) ran
  have whole : Reached counterConfig (overlap ++ closing) final := Run.append reached rest fun _ _ _ => trivial
  have stopped := (Reached.kept whole).stops (Reached.known whole) (of_decide_eq_true done)
  obtain ⟨few, ended⟩ := queueCompile_drains reached rest
  exact ⟨state, final, reached, rest, few, (ended (by decide)).mp stopped⟩

end SourceVerification.QueueCompile
