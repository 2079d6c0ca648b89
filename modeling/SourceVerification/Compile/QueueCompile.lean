import SourceVerification.Compile.Requests

set_option autoImplicit false

namespace SourceVerification.QueueCompile

open Compile Limiter Paths Runs

inductive Status
  -- Not made yet, or never.
  | absent
  | held
  | deleted
deriving DecidableEq

def Phase.status (kind : Kind) : Phase → Status
  | .waiting | .making | .unmade => .absent
  | .building | .compiled _ | .built _ | .inUse _ => .held
  | .catching _ pending | .cleaning _ pending => if kind ∈ pending then .held else .deleted
  | .settled .busy | .settled .aborted | .settled .unmade => .absent
  | .settled (.threw _) | .settled (.used _) => .deleted

def State.status (state : State) (request : TaskId) (kind : Kind) : Status :=
  (state.phase request).elim .absent (Phase.status kind)

def Owns (config : Config) (state : State) (request : TaskId) (kind : Kind) (path : List Char) : Prop :=
  ∃ suffix, state.suffix request = some suffix ∧ path = directory config suffix kind

structure Owned (config : Config) (state : State) : Prop where
  alphanum : ∀ request suffix, state.suffix request = some suffix → suffix.all Char.isAlphanum = true
  given : ∀ request suffix, state.suffix request = some suffix → suffix ∈ state.given
  apart : ∀ request other suffix, state.suffix request = some suffix → state.suffix other = some suffix →
    request = other
  named : ∀ request kind, state.suffix request = none ↔ state.status request kind = .absent
  owned : ∀ path, state.disk path = true →
    ∃ request kind, Owns config state request kind path ∧ state.status request kind = .held
  -- The copy is there for as long as it is not deleted.
  kept : ∀ request path, Owns config state request .copy path → state.status request .copy = .held →
    state.disk path = true

section

variable {config : Config} {before after : State} {action : Action}

theorem Owned.owner (owned : Owned config before) {request other : TaskId} {kind another : Kind}
    {path : List Char} (owns : Owns config before request kind path)
    (too : Owns config before other another path) : request = other ∧ kind = another := by
  obtain ⟨suffix, named, rfl⟩ := owns
  obtain ⟨another, named', same⟩ := too
  obtain ⟨rfl, rfl⟩ := directory_injective (owned.alphanum _ _ named) (owned.alphanum _ _ named') same
  exact ⟨owned.apart _ _ _ named named', rfl⟩

theorem status_move (state : State) (request : TaskId) (phase : Phase) :
    (state.move request phase).status =
      Function.update state.status request (fun kind => phase.status kind) := by
  funext other kind
  by_cases same : other = request
  · subst same
    simp [State.status, State.move]
  · simp [State.status, State.move, same]

theorem status_stays {state : State} {request : TaskId} {next : Phase}
    (same : ∀ kind, next.status kind = state.status request kind) :
    (state.move request next).status = state.status := by
  rw [status_move]
  exact Function.update_eq_self_iff.mpr (funext same)

theorem Advance.status {request : TaskId} {phase next : Phase}
    (advance : Advance config request action phase next) (kind : Kind) :
    next.status kind = phase.status kind := by
  cases advance with
  | endBuild suffix steps =>
    unfold compilePhase
    simp only
    split <;> cases kind <;> rfl
  | endUse => cases kind <;> rfl
  | unmade | use | settle => rfl

theorem Released.status {phase next : Phase} (released : Released phase next) (kind : Kind) :
    next.status kind = phase.status kind := by
  cases released <;> rfl

theorem Removed.status {kind : Kind} {phase next : Phase} (removed : Removed kind phase next) :
    phase.status kind = .held ∧ next.status kind = .deleted ∧
      ∀ other, other ≠ kind → next.status other = phase.status other := by
  cases removed with
  | catching error pending present =>
    refine ⟨by simp [Phase.status, present], by simp [Phase.status], fun other different => ?_⟩
    simp [Phase.status, different]
  | cleaning threw pending present =>
    refine ⟨by simp [Phase.status, present], by simp [Phase.status], fun other different => ?_⟩
    simp [Phase.status, different]

theorem status_of_phase {state : State} {request : TaskId} {phase : Phase}
    (here : state.phase request = some phase) (kind : Kind) :
    state.status request kind = phase.status kind := by
  simp [State.status, here]

theorem acquiredPhase_status (acquired : Acquired) (kind : Kind) :
    (acquiredPhase acquired).status kind = .absent := by
  cases acquired <;> rfl

theorem phase_of_queue {state : State} {request : TaskId} (queue : state.place request = some .queue) :
    state.phase request = some .waiting := by
  obtain ⟨phase, here, place⟩ := Option.map_eq_some_iff.mp queue
  cases phase <;> first | exact here | cases place

theorem Owned.frame (owned : Owned config before) (suffix : after.suffix = before.suffix)
    (given : after.given = before.given) (disk : after.disk = before.disk)
    (status : after.status = before.status) : Owned config after := by
  constructor
  · simpa only [suffix] using owned.alphanum
  · simpa only [suffix, given] using owned.given
  · simpa only [suffix] using owned.apart
  · simpa only [suffix, status] using owned.named
  · simpa only [Owns, suffix, disk, status] using owned.owned
  · simpa only [Owns, suffix, disk, status] using owned.kept

theorem write_present {state : State} {path : List Char} (directory : List Char) (present : state.disk path = true) :
    (state.write directory true).disk path = true := by
  by_cases same : path = directory
  · simp [State.write, same]
  · simpa [State.write, same] using present

theorem suffix_made (config : Config) (before : State) {request other : TaskId} {suffix another : List Char} :
    (before.mkdtemp config request suffix).suffix other = some another ↔
      (other = request ∧ another = suffix) ∨ (other ≠ request ∧ before.suffix other = some another) := by
  by_cases same : other = request
  · simp [State.mkdtemp, State.write, same, eq_comm]
  · simp [State.mkdtemp, State.write, same]

theorem Owned.made (owned : Owned config before) {request : TaskId} {suffix : List Char}
    (here : before.phase request = some .making) (alphanum : suffix.all Char.isAlphanum = true)
    (fresh : suffix ∉ before.given) :
    Owned config ((before.mkdtemp config request suffix).move request .building) := by
  have absent (kind : Kind) : before.status request kind = .absent := status_of_phase here kind
  have status : ((before.mkdtemp config request suffix).move request .building).status =
      Function.update before.status request fun _ => .held := status_move _ request .building
  have unused {other : TaskId} : before.suffix other ≠ some suffix :=
    fun named => fresh (owned.given _ _ named)
  constructor
  case alphanum =>
    intro other another named
    rcases (suffix_made config before).mp named with ⟨-, rfl⟩ | ⟨-, old⟩
    · exact alphanum
    · exact owned.alphanum other another old
  case given =>
    intro other another named
    rcases (suffix_made config before).mp named with ⟨-, rfl⟩ | ⟨-, old⟩
    · exact List.mem_append_right _ (List.mem_singleton.mpr rfl)
    · exact List.mem_append_left _ (owned.given other another old)
  case apart =>
    intro other third another named too
    rcases (suffix_made config before).mp named with ⟨rfl, rfl⟩ | ⟨-, old⟩
    · rcases (suffix_made config before).mp too with ⟨rfl, -⟩ | ⟨-, old⟩
      · rfl
      · exact absurd old unused
    · rcases (suffix_made config before).mp too with ⟨-, rfl⟩ | ⟨-, old'⟩
      · exact absurd old unused
      · exact owned.apart other third another old old'
  case named =>
    intro other kind
    rw [status]
    by_cases same : other = request
    · simp [State.move, State.mkdtemp, State.write, same]
    · simpa [State.move, State.mkdtemp, State.write, same] using owned.named other kind
  case owned =>
    intro path present
    rw [status]
    by_cases new : path = tmpDir config suffix
    · have named : (before.mkdtemp config request suffix).suffix request = some suffix :=
        (suffix_made config before).mpr (.inl ⟨rfl, rfl⟩)
      exact ⟨request, .copy, ⟨suffix, named, new⟩, by simp⟩
    · have old : before.disk path = true := by
        simpa [State.move, State.mkdtemp, State.write, new] using present
      obtain ⟨other, kind, ⟨another, named, same⟩, held⟩ := owned.owned path old
      have different : other ≠ request := by
        rintro rfl
        simp [absent] at held
      exact ⟨other, kind, ⟨another, (suffix_made config before).mpr (.inr ⟨different, named⟩), same⟩, by simp [different, held]⟩
  case kept =>
    rintro other path ⟨another, named, rfl⟩ held
    rcases (suffix_made config before).mp named with ⟨-, rfl⟩ | ⟨different, old⟩
    · simp [State.move, State.mkdtemp, State.write, directory]
    · exact write_present _ (owned.kept other _ ⟨another, old, rfl⟩ (by simpa [status, different] using held))

theorem Owned.output (owned : Owned config before) {request : TaskId} {suffix : List Char}
    (here : before.phase request = some .building) (named : before.suffix request = some suffix) :
    Owned config (before.write (directory config suffix .output) true) := by
  refine ⟨owned.alphanum, owned.given, owned.apart, owned.named, fun path present => ?_,
    fun other path owns held => ?_⟩
  · by_cases new : path = directory config suffix .output
    · exact ⟨request, .output, ⟨suffix, named, new⟩, status_of_phase here .output⟩
    · exact owned.owned path (by simpa [State.write, new] using present)
  · exact write_present _ (owned.kept other path owns held)

theorem Owned.removed (owned : Owned config before) {request : TaskId} {kind : Kind} {suffix : List Char}
    {phase next : Phase} (here : before.phase request = some phase) (removed : Removed kind phase next)
    (named : before.suffix request = some suffix) :
    Owned config ((before.write (directory config suffix kind) false).move request next) := by
  obtain ⟨was, gone, others⟩ := removed.status
  rw [← status_of_phase here] at was
  have mine : Owns config before request kind (directory config suffix kind) := ⟨suffix, named, rfl⟩
  have moved : ((before.write (directory config suffix kind) false).move request next).status =
      Function.update before.status request fun kind => next.status kind := status_move _ request next
  have deleted : ((before.write (directory config suffix kind) false).move request next).status request kind =
      .deleted := by rw [moved, Function.update_self, gone]
  have stays {other : TaskId} {another : Kind} (different : ¬ (other = request ∧ another = kind)) :
      ((before.write (directory config suffix kind) false).move request next).status other another =
        before.status other another := by
    rw [moved]
    by_cases same : other = request
    · subst same
      rw [Function.update_self, others another fun too => different ⟨rfl, too⟩, status_of_phase here]
    · rw [Function.update_of_ne same]
  refine ⟨owned.alphanum, owned.given, owned.apart, fun other another => ?_, fun path present => ?_,
    fun other path owns held => ?_⟩
  · by_cases this : other = request ∧ another = kind
    · obtain ⟨rfl, rfl⟩ := this
      have known : before.suffix other ≠ none := by simp [named]
      exact iff_of_false known (by simp [deleted])
    · rw [stays this]
      exact owned.named other another
  · have other : path ≠ directory config suffix kind := by
      rintro rfl
      simp [State.move, State.write] at present
    obtain ⟨owner, another, owns, held⟩ := owned.owned path
      (by simpa [State.move, State.write, other] using present)
    refine ⟨owner, another, owns, (stays ?_).trans held⟩
    rintro ⟨rfl, rfl⟩
    obtain ⟨_, named', rfl⟩ := owns
    rw [named, Option.some.injEq] at named'
    exact other (by rw [named'])
  · have different : ¬ (other = request ∧ Kind.copy = kind) := by
      rintro ⟨rfl, rfl⟩
      simp [deleted] at held
    have present := owned.kept other path owns (stays different ▸ held)
    have apart : path ≠ directory config suffix kind := by
      rintro rfl
      exact different (owned.owner owns mine)
    simpa [State.move, State.write, apart] using present

theorem Owned.step (owned : Owned config before) (linked : Linked config.limits before.limiter before.place)
    (taken : QueueCompile.step config before action = some after) : Owned config after := by
  cases step_change taken with
  | submitted request limiter fresh took =>
    refine owned.frame rfl rfl rfl (status_stays fun kind => ?_)
    simp [acquiredPhase_status, State.status, fresh]
  | begun request rest limiter next took =>
    have waiting := phase_of_queue ((linked.queue request).mp (.inr (next ▸ List.mem_cons_self ..)))
    exact owned.frame rfl rfl rfl (status_stays fun kind => (status_of_phase waiting kind).symm)
  | made request suffix here alphanum fresh => exact owned.made here alphanum fresh
  | output request suffix here named => exact owned.output here named
  | advanced action request phase next here advance =>
    refine owned.frame rfl rfl rfl (status_stays fun kind => ?_)
    rw [advance.status, status_of_phase here]
  | released request phase next limiter here released took =>
    refine owned.frame rfl rfl rfl (status_stays fun kind => ?_)
    exact (released.status kind).trans (status_of_phase here kind).symm
  | removed request kind suffix phase next here removed named => exact owned.removed here removed named
  | aborted signal limiter took => exact owned.frame rfl rfl rfl rfl
  | withdrawn signal listener limiter found took =>
    have waits := linked.sound.listener_waits (List.mem_of_find?_eq_some found)
    have waiting := phase_of_queue ((linked.queue listener.2).mp (.inl (List.mem_map_of_mem waits)))
    exact owned.frame rfl rfl rfl (status_stays fun kind => (status_of_phase waiting kind).symm)

end

def Action.removes (request : TaskId) (kind : Kind) : Action → Bool
  | .remove other another => other = request && another = kind
  | _ => false

-- `use` has been called.
def Phase.called : Phase → Bool
  | .inUse _ | .cleaning _ _ | .settled (.used _) => true
  | _ => false

def State.called (state : State) (request : TaskId) : Bool :=
  (state.phase request).any Phase.called

structure Recorded (actions : List Action) (state : State) : Prop where
  removals : ∀ request kind, actions.countP (Action.removes request kind) =
    if state.status request kind = .deleted then 1 else 0
  uses : ∀ request, .use request ∈ actions → state.called request = true
  ended : ∀ request threw pending, state.phase request = some (.cleaning threw pending) →
    .endUse request threw ∈ actions

section

variable {config : Config} {before after : State} {action : Action} {actions : List Action}

theorem called_move (state : State) (request : TaskId) (phase : Phase) :
    (state.move request phase).called = Function.update state.called request phase.called := by
  funext other
  by_cases same : other = request
  · subst same
    simp [State.called, State.move]
  · simp [State.called, State.move, same]

theorem Recorded.skip (recorded : Recorded actions before) (phase : after.phase = before.phase)
    (removes : ∀ request kind, action.removes request kind = false) (unused : ∀ request, action ≠ .use request) :
    Recorded (actions ++ [action]) after where
  removals request kind := by
    have status : after.status request kind = before.status request kind := by rw [State.status, phase, State.status]
    rw [List.countP_append, recorded.removals, status]
    simp [removes]
  uses request member := by
    have called : after.called request = before.called request := by rw [State.called, phase, State.called]
    rw [called]
    refine recorded.uses request ?_
    simpa [(unused request).symm] using member
  ended request threw pending here := by
    rw [phase] at here
    exact List.mem_append_left _ (recorded.ended request threw pending here)

theorem Recorded.move (recorded : Recorded actions before) {request : TaskId} {next : Phase} {state : State}
    (same : state.phase = before.phase)
    (removals : ∀ kind, (if before.status request kind = .deleted then 1 else 0) +
      (action.removes request kind).toNat = if next.status kind = .deleted then 1 else 0)
    (others : ∀ other kind, other ≠ request → action.removes other kind = false)
    (uses : ∀ other, action = .use other → other = request ∧ next.called = true)
    (called : before.called request = true → next.called = true)
    (ended : ∀ threw pending, next = .cleaning threw pending →
      action = .endUse request threw ∨ ∃ earlier, before.phase request = some (.cleaning threw earlier)) :
    Recorded (actions ++ [action]) (state.move request next) := by
  have status : state.status = before.status := by
    funext other kind
    rw [State.status, same, State.status]
  have callers : state.called = before.called := by
    funext other
    rw [State.called, same, State.called]
  constructor
  case removals =>
    intro other kind
    rw [List.countP_append, recorded.removals, status_move, status]
    by_cases moved : other = request
    · subst moved
      rw [Function.update_self, ← removals kind]
      by_cases removes : action.removes other kind = true <;> simp [removes]
    · simp [moved, others other kind moved]
  case uses =>
    intro other member
    rw [called_move, callers]
    by_cases moved : other = request
    · subst moved
      rw [Function.update_self]
      rcases List.mem_append.mp member with earlier | now
      · exact called (recorded.uses other earlier)
      · exact (uses other (List.mem_singleton.mp now).symm).2
    · rw [Function.update_of_ne moved]
      rcases List.mem_append.mp member with earlier | now
      · exact recorded.uses other earlier
      · exact absurd (uses other (List.mem_singleton.mp now).symm).1 moved
  case ended =>
    intro other threw pending here
    by_cases moved : other = request
    · subst moved
      have now : next = .cleaning threw pending := by simpa [State.move] using here
      rcases ended threw pending now with rfl | ⟨earlier, already⟩
      · simp
      · exact List.mem_append_left _ (recorded.ended other threw earlier already)
    · have unmoved : before.phase other = some (.cleaning threw pending) := by
        simpa [State.move, moved, same] using here
      exact List.mem_append_left _ (recorded.ended other threw pending unmoved)

theorem called_of_phase {state : State} {request : TaskId} {phase : Phase}
    (here : state.phase request = some phase) : state.called request = phase.called := by
  simp [State.called, here]

theorem Recorded.advance (recorded : Recorded actions before) {request : TaskId} {phase next : Phase}
    (here : before.phase request = some phase) (advance : Advance config request action phase next) :
    Recorded (actions ++ [action]) (before.move request next) := by
  refine recorded.move rfl (fun kind => ?_) ?_ ?_ ?_ ?_
  · rw [status_of_phase here, advance.status]
    cases advance <;> rfl
  · intro other kind _
    cases advance <;> rfl
  · intro other same
    cases advance <;> cases same
    exact ⟨rfl, rfl⟩
  · rw [called_of_phase here]
    cases advance <;> simp [Phase.called]
  · intro threw pending same
    cases advance with
    | endUse => exact .inl (by cases same; rfl)
    | endBuild suffix steps =>
      unfold compilePhase at same
      simp only at same
      split at same <;> cases same
    | unmade | use | settle => cases same

theorem Recorded.remove (recorded : Recorded actions before) {request : TaskId} {kind : Kind} {suffix : List Char}
    {phase next : Phase} (here : before.phase request = some phase) (removed : Removed kind phase next) :
    Recorded (actions ++ [.remove request kind])
      ((before.write (directory config suffix kind) false).move request next) := by
  obtain ⟨was, gone, others⟩ := removed.status
  refine recorded.move rfl (fun another => ?_) ?_ ?_ ?_ ?_
  · rw [status_of_phase here]
    by_cases same : another = kind
    · subst same
      simp [was, gone, Action.removes]
    · simp [others another same, Action.removes, Ne.symm same]
  · intro other another different
    simp [Action.removes, Ne.symm different]
  · rintro other ⟨⟩
  · rw [called_of_phase here]
    cases removed <;> simp [Phase.called]
  · intro threw pending same
    cases removed with
    | catching => cases same
    | cleaning _ earlier =>
      cases same
      exact .inr ⟨earlier, here⟩

theorem Recorded.unmade (recorded : Recorded actions before) {request : TaskId} {next : Phase} {state : State}
    (same : state.phase = before.phase) (absent : ∀ kind, before.status request kind = .absent)
    (uncalled : before.called request = false) (undeleted : ∀ kind, next.status kind ≠ .deleted)
    (uncleaned : ∀ threw pending, next ≠ .cleaning threw pending)
    (removes : ∀ other kind, action.removes other kind = false) (unused : ∀ other, action ≠ .use other) :
    Recorded (actions ++ [action]) (state.move request next) := by
  refine recorded.move same (fun kind => ?_) (fun other kind _ => removes other kind) ?_ ?_ ?_
  · rw [absent, removes, if_neg (undeleted kind)]
    rfl
  · exact fun other use => absurd use (unused other)
  · simp [uncalled]
  · exact fun threw pending cleaning => absurd cleaning (uncleaned threw pending)

theorem acquiredPhase_ne_cleaning (acquired : Acquired) (threw : Bool) (pending : List Kind) :
    acquiredPhase acquired ≠ .cleaning threw pending := by
  cases acquired <;> rintro ⟨⟩

theorem Recorded.step (recorded : Recorded actions before)
    (linked : Linked config.limits before.limiter before.place)
    (taken : QueueCompile.step config before action = some after) : Recorded (actions ++ [action]) after := by
  cases step_change taken with
  | submitted request limiter fresh took =>
    exact recorded.unmade rfl (by simp [State.status, fresh]) (by simp [State.called, fresh])
      (by simp [acquiredPhase_status]) (acquiredPhase_ne_cleaning _) (fun _ _ => rfl) (by simp)
  | begun request rest limiter next took =>
    have waiting := phase_of_queue ((linked.queue request).mp (.inr (next ▸ List.mem_cons_self ..)))
    exact recorded.unmade rfl (status_of_phase waiting) (called_of_phase waiting) (by simp [Phase.status])
      (by simp) (fun _ _ => rfl) (by simp)
  | made request suffix here alphanum fresh =>
    exact recorded.unmade rfl (status_of_phase here) (called_of_phase here) (by simp [Phase.status])
      (by simp) (fun _ _ => rfl) (by simp)
  | output request suffix here named => exact recorded.skip rfl (fun _ _ => rfl) (by simp)
  | advanced action request phase next here advance => exact recorded.advance here advance
  | released request phase next limiter here released took =>
    refine recorded.move rfl (fun kind => ?_) (fun _ _ _ => rfl) (by simp) ?_ ?_
    · rw [status_of_phase here, released.status]
      rfl
    · rw [called_of_phase here]
      cases released <;> simp [Phase.called]
    · intro threw pending same
      cases released <;> cases same
  | removed request kind suffix phase next here removed named => exact recorded.remove here removed
  | aborted signal limiter took => exact recorded.skip rfl (fun _ _ => rfl) (by simp)
  | withdrawn signal listener limiter found took =>
    have waits := linked.sound.listener_waits (List.mem_of_find?_eq_some found)
    have waiting := phase_of_queue ((linked.queue listener.2).mp (.inl (List.mem_map_of_mem waits)))
    exact recorded.unmade rfl (status_of_phase waiting) (called_of_phase waiting) (by simp [Phase.status])
      (by simp) (fun _ _ => rfl) (by simp)

end

abbrev Reached (config : Config) : List Action → State → Prop :=
  Run (step config) (fun _ _ => True) State.initial

theorem Owned.initial (config : Config) : Owned config State.initial := by
  constructor <;> simp [State.initial, State.status, Owns]

theorem Recorded.initial : Recorded [] State.initial := by
  constructor <;> simp [State.initial, State.status]

structure Kept (config : Config) (actions : List Action) (state : State) : Prop where
  linked : Linked config.limits state.limiter state.place
  owned : Owned config state
  recorded : Recorded actions state

theorem Reached.kept {config : Config} {actions : List Action} {state : State}
    (run : Reached config actions state) : Kept config actions state := by
  refine Run.invariant run (Kept config) ⟨Linked.initial config, Owned.initial config, Recorded.initial⟩ ?_
  rintro actions before action after - ⟨linked, owned, recorded⟩ - taken
  exact ⟨linked_step linked taken, owned.step linked taken, recorded.step linked taken⟩

section

variable {config : Config} {state after : State} {action : Action} {actions : List Action}

theorem Owned.absent (owned : Owned config state) {request : TaskId} {kind : Kind} {path : List Char}
    (owns : Owns config state request kind path) (unheld : state.status request kind ≠ .held) :
    state.disk path = false := by
  rw [← Bool.not_eq_true]
  intro present
  obtain ⟨other, another, too, held⟩ := owned.owned path present
  obtain ⟨rfl, rfl⟩ := owned.owner owns too
  exact unheld held

theorem settled_status {request : TaskId} {ending : Ending} (settled : state.phase request = some (.settled ending))
    (kind : Kind) : state.status request kind ≠ .held := by
  rw [status_of_phase settled]
  cases ending <;> simp [Phase.status]

theorem deleted_by_owner (taken : step config state action = some after)
    {path : List Char} (present : state.disk path = true) (gone : after.disk path = false) :
    ∃ request kind phase next, action = .remove request kind ∧ Owns config state request kind path ∧
      state.phase request = some phase ∧ Removed kind phase next := by
  cases step_change taken with
  | removed request kind suffix phase next here removed named =>
    have same : path = directory config suffix kind := by
      by_contra other
      have still : state.disk path = false := by simpa [State.move, State.write, other] using gone
      simp [present] at still
    exact ⟨request, kind, phase, next, rfl, ⟨suffix, named, same⟩, here, removed⟩
  | made request suffix here alphanum fresh =>
    have still := write_present (tmpDir config suffix) present
    exact absurd gone (by simpa [State.move, State.mkdtemp, State.write] using still)
  | output request suffix here named =>
    have still := write_present (directory config suffix .output) present
    exact absurd gone (by simp [still])
  | submitted | begun | advanced | released | aborted | withdrawn =>
    have same : state.disk path = false := gone
    simp [present] at same

theorem Kept.settled (kept : Kept config actions state) {request : TaskId} {ending : Ending}
    (settled : state.phase request = some (.settled ending)) {kind : Kind} {path : List Char}
    (owns : Owns config state request kind path) :
    state.disk path = false ∧ actions.countP (Action.removes request kind) = 1 := by
  have unheld := settled_status settled kind
  refine ⟨kept.owned.absent owns unheld, ?_⟩
  obtain ⟨suffix, named, -⟩ := owns
  have made : state.status request kind ≠ .absent := fun absent => by
    simp [(kept.owned.named request kind).mpr absent] at named
  have deleted : state.status request kind = .deleted := by
    cases status : state.status request kind with
    | absent => exact absurd status made
    | held => exact absurd status unheld
    | deleted => rfl
  rw [kept.recorded.removals, if_pos deleted]

theorem Kept.used_or_caught (kept : Kept config actions state) {request : TaskId} {kind : Kind} {phase next : Phase}
    (here : state.phase request = some phase) (removed : Removed kind phase next) :
    (∃ threw, .endUse request threw ∈ actions) ∨
      (∃ error pending, state.phase request = some (.catching error pending)) ∧ .use request ∉ actions := by
  cases removed with
  | catching error pending =>
    refine .inr ⟨⟨error, pending, here⟩, fun used => ?_⟩
    have called := kept.recorded.uses request used
    simp [called_of_phase here, Phase.called] at called
  | cleaning threw pending => exact .inl ⟨threw, kept.recorded.ended request threw pending here⟩

theorem Kept.removes (kept : Kept config actions state) {request : TaskId} {kind : Kind} {phase next : Phase}
    (here : state.phase request = some phase) (removed : Removed kind phase next) :
    (step config state (.remove request kind)).isSome := by
  have held := removed.status.1
  rw [← status_of_phase here] at held
  obtain ⟨suffix, named⟩ : ∃ suffix, state.suffix request = some suffix := by
    refine Option.ne_none_iff_exists'.mp fun unnamed => ?_
    simp [(kept.owned.named request kind).mp unnamed] at held
  cases removed with
  | catching error pending present => simp [step, here, named, present]
  | cleaning threw pending present => simp [step, here, named, present]

theorem Kept.releases (kept : Kept config actions state) {request : TaskId} {phase next : Phase}
    (here : state.phase request = some phase) (released : Released phase next) :
    (step config state (.release request)).isSome := by
  have slot : request ∈ state.limiter.running := by
    rw [kept.linked.slot]
    cases released <;> simp [State.place, here, Phase.place]
  cases released <;> simp [step, here, State.limit, Limiter.step, slot]

end

/-- What is left of the requests, and when their directories are deleted. -/
structure NothingLeft (config : Config) (actions : List Action) (state : State) : Prop where
  settled : ∀ request ending, state.phase request = some (.settled ending) →
    ∀ kind path, Owns config state request kind path →
      state.disk path = false ∧ actions.countP (Action.removes request kind) = 1
  unsettled : ∀ path, state.disk path = true →
    ∃ request kind, Owns config state request kind path ∧
      (∀ other another, Owns config state other another path → other = request) ∧
        ∀ ending, state.phase request ≠ some (.settled ending)
  -- A directory goes in no other way than this.
  deleted : ∀ action after path, step config state action = some after → state.disk path = true →
    after.disk path = false → ∃ request kind, action = .remove request kind ∧
      Owns config state request kind path ∧
        (∀ other another, Owns config state other another path → other = request) ∧
          ((∃ threw, .endUse request threw ∈ actions) ∨
            (∃ error pending, state.phase request = some (.catching error pending)) ∧
              .use request ∉ actions)
  once : ∀ request kind, actions.countP (Action.removes request kind) ≤ 1
  -- `use` still finds the copy.
  inUse : ∀ request build path, state.phase request = some (.inUse build) →
    Owns config state request .copy path → state.disk path = true
  -- What is left to delete can be, and nothing else keeps the request from settling.
  removes : ∀ request kind phase next, state.phase request = some phase → Removed kind phase next →
    (step config state (.remove request kind)).isSome
  releases : ∀ request phase next, state.phase request = some phase → Released phase next →
    (step config state (.release request)).isSome
  settles : ∀ request threw, state.phase request = some (.cleaning threw []) →
    (step config state (.settle request)).isSome

/-- Every request, however it ends, has deleted both its directories when it settles, once each, and
only after its `use`: no other request does it. -/
theorem queueCompile_nothing_left {config : Config} {actions : List Action} {state : State}
    (run : Reached config actions state) : NothingLeft config actions state := by
  have kept := run.kept
  have alone {request other : TaskId} {kind another : Kind} {path : List Char}
      (owns : Owns config state request kind path) (too : Owns config state other another path) :
      other = request := (kept.owned.owner too owns).1
  constructor
  case settled => exact fun request ending settled kind path owns => kept.settled settled owns
  case unsettled =>
    intro path present
    obtain ⟨request, kind, owns, held⟩ := kept.owned.owned path present
    refine ⟨request, kind, owns, fun _ _ too => alone owns too, fun ending settled => ?_⟩
    exact settled_status settled kind held
  case deleted =>
    intro action after path taken present gone
    obtain ⟨request, kind, phase, next, rfl, owns, here, removed⟩ := deleted_by_owner taken present gone
    exact ⟨request, kind, rfl, owns, fun _ _ too => alone owns too, kept.used_or_caught here removed⟩
  case once =>
    intro request kind
    rw [kept.recorded.removals]
    split <;> decide
  case inUse =>
    intro request build path here owns
    exact kept.owned.kept request path owns (status_of_phase here .copy)
  case removes => exact fun request kind phase next here removed => kept.removes here removed
  case releases => exact fun request phase next here released => kept.releases here released
  case settles =>
    intro request threw here
    simp [step, here]

def counterConfig : Config where
  limits := ⟨1, 8⟩
  tmpdir := "/tmp".toList
  cargoTargetDir := "/cache/target".toList
  args _ := {
    project := { files := counterWithDependency, entrypoint := ".", name := "counter" }
    debug := false
    expectedCommitment := none
    signal := none }

def overlap : List Action :=
  [.submit 0, .submit 1, .begin, .mkdtemp 0 (some ['a']), .makeOutput 0, .endBuild 0 (crateSteps copyRoot),
    .release 0, .use 0, .begin, .mkdtemp 1 (some ['b']), .makeOutput 1, .endUse 0 false, .remove 0 .copy,
    .endBuild 1 (crateSteps copyRoot), .remove 0 .output, .settle 0]

theorem overlap_nothing_left : ∃ state : State, NothingLeft counterConfig overlap state ∧
    (∀ kind, state.disk (directory counterConfig ['a'] kind) = false) ∧
      state.disk (directory counterConfig ['b'] .copy) = true := by
  have ran : (exec (step counterConfig) (fun _ _ => true) State.initial overlap).any (fun state =>
      !state.disk (directory counterConfig ['a'] .copy) && (!state.disk (directory counterConfig ['a'] .output) &&
        state.disk (directory counterConfig ['b'] .copy))) = true := by decide +kernel
  obtain ⟨state, reached, shown⟩ := exists_run_of_exec (fun _ _ _ => trivial) ran
  simp only [Bool.and_eq_true, Bool.not_eq_true'] at shown
  obtain ⟨copy, output, other⟩ := shown
  refine ⟨state, queueCompile_nothing_left reached, fun kind => ?_, other⟩
  cases kind with
  | copy => exact copy
  | output => exact output

end SourceVerification.QueueCompile
