import Mathlib.Data.List.Nodup
import Mathlib.Data.List.Perm.Basic
import SourceVerification.Shared.Runs

set_option autoImplicit false

namespace SourceVerification.Limiter

open Runs

abbrev TaskId := Nat

abbrev SignalId := Nat

structure Config where
  concurrency : Nat
  queueSize : Nat

-- A `start` in the queue, with the signal it closes over.
structure Waiter where
  task : TaskId
  signal : Option SignalId
deriving DecidableEq

structure State where
  active : Int
  queue : List Waiter
  -- The `onAbort` listeners of the signals, in the order they were added.
  listeners : List (SignalId × TaskId)
  aborted : SignalId → Bool
  -- The calls whose `acquire` has resolved and that have not gone on yet, in the order of their
  -- microtasks.
  ready : List TaskId
  running : List TaskId
  -- What has happened so far.
  accepted : List TaskId
  waited : List TaskId
  started : List TaskId
  finished : List TaskId
  -- The calls whose signal aborted while they waited.
  left : List TaskId

def State.initial : State where
  active := 0
  queue := []
  listeners := []
  aborted _ := false
  ready := []
  running := []
  accepted := []
  waited := []
  started := []
  finished := []
  left := []

namespace State

variable (state : State)

def holders : List TaskId := state.ready ++ state.running

def waiting : List TaskId := state.queue.map (·.task)

-- `active++; resolve();`
def occupy (task : TaskId) : State :=
  { state with
    active := state.active + 1
    ready := state.ready ++ [task]
    accepted := state.accepted ++ [task] }

-- `queue.push(start); signal?.addEventListener("abort", onAbort, { once: true });`
def enqueue (task : TaskId) (signal : Option SignalId) : State :=
  { state with
    queue := state.queue ++ [⟨task, signal⟩]
    listeners := match signal with
      | some signal => state.listeners ++ [(signal, task)]
      | none => state.listeners
    accepted := state.accepted ++ [task]
    waited := state.waited ++ [task] }

-- `signal?.removeEventListener("abort", onAbort); resolve();`
def start (waiter : Waiter) : State :=
  { state with
    listeners := match waiter.signal with
      | some signal => state.listeners.filter (· ≠ (signal, waiter.task))
      | none => state.listeners
    ready := state.ready ++ [waiter.task] }

def release : State :=
  match state.queue with
  | next :: rest => start { state with queue := rest } next
  | [] => { state with active := state.active - 1 }

end State

inductive Acquired
  -- What `signal.throwIfAborted()` throws.
  | aborted
  | resolved
  | busy
  | pending
deriving DecidableEq

def acquire (config : Config) (state : State) (task : TaskId) (signal : Option SignalId) :
    Acquired × State :=
  if signal.any state.aborted then (.aborted, state)
  else if state.active < config.concurrency then (.resolved, state.occupy task)
  else if config.queueSize ≤ state.queue.length then (.busy, state)
  else (.pending, state.enqueue task signal)

def spliceIndexOf (queue : List Waiter) (task : TaskId) : List Waiter :=
  match queue.findIdx? (·.task = task) with
  | some index => queue.eraseIdx index
  | none => queue.dropLast

def onAbort (state : State) (task : TaskId) : State :=
  { state with queue := spliceIndexOf state.queue task, left := state.left ++ [task] }

inductive Action
  | submit (task : TaskId) (signal : Option SignalId)
  -- The first of the calls whose `acquire` has resolved goes on to its task.
  | begin
  -- The task returns or throws.
  | finish (task : TaskId)
  | abort (signal : SignalId)
  -- The next listener of an aborted signal runs, once.
  | dispatch (signal : SignalId)

def step (config : Config) (state : State) : Action → Option State
  | .submit task signal =>
    if task ∈ state.accepted then none else some (acquire config state task signal).2
  | .begin =>
    match state.ready with
    | task :: rest => some { state with
        ready := rest
        running := state.running ++ [task]
        started := state.started ++ [task] }
    | [] => none
  | .finish task =>
    if task ∈ state.running then
      some (State.release { state with
        running := state.running.erase task
        finished := state.finished ++ [task] })
    else none
  | .abort signal => some { state with aborted := Function.update state.aborted signal true }
  | .dispatch signal =>
    if state.aborted signal then
      match state.listeners.find? (·.1 = signal) with
      | some listener =>
        some (onAbort { state with listeners := state.listeners.erase listener } listener.2)
      | none => none
    else none

inductive Change (config : Config) (before : State) : State → Prop
  | refused : Change config before before
  | occupied (task : TaskId) (fresh : task ∉ before.accepted)
      (free : before.active < config.concurrency) : Change config before (before.occupy task)
  | queued (task : TaskId) (signal : Option SignalId) (fresh : task ∉ before.accepted)
      (full : config.concurrency ≤ before.active) (room : before.queue.length < config.queueSize) :
      Change config before (before.enqueue task signal)
  | begun (task : TaskId) (rest : List TaskId) (next : before.ready = task :: rest) :
      Change config before { before with
        ready := rest
        running := before.running ++ [task]
        started := before.started ++ [task] }
  | finished (task : TaskId) (running : task ∈ before.running) :
      Change config before (State.release { before with
        running := before.running.erase task
        finished := before.finished ++ [task] })
  | aborted (signal : SignalId) :
      Change config before { before with aborted := Function.update before.aborted signal true }
  | withdrawn (earlier later : List Waiter) (task : TaskId) (signal : SignalId)
      (queued : before.queue = earlier ++ ⟨task, some signal⟩ :: later) :
      Change config before { before with
        queue := earlier ++ later
        listeners := before.listeners.erase (signal, task)
        left := before.left ++ [task] }

def Waiter.listener (waiter : Waiter) : Option (SignalId × TaskId) :=
  waiter.signal.map fun signal => (signal, waiter.task)

def besides (left tasks : List TaskId) : List TaskId := tasks.filter (· ∉ left)

def among (waited tasks : List TaskId) : List TaskId := tasks.filter (· ∈ waited)

@[simp] theorem besides_append (left tasks more : List TaskId) :
    besides left (tasks ++ more) = besides left tasks ++ besides left more := by
  simp [besides]

@[simp] theorem among_append (waited tasks more : List TaskId) :
    among waited (tasks ++ more) = among waited tasks ++ among waited more := by
  simp [among]

theorem among_submitted {waited tasks : List TaskId} {task : TaskId} (other : task ∉ tasks) :
    among (waited ++ [task]) tasks = among waited tasks := by
  refine List.filter_congr fun member present => ?_
  have different : member ≠ task := by
    rintro rfl
    exact other present
  simp [different]

structure Sound (config : Config) (state : State) : Prop where
  counted : state.active = state.holders.length
  bounded : state.holders.length ≤ config.concurrency
  room : state.queue.length ≤ config.queueSize
  busy : state.queue ≠ [] → state.holders.length = config.concurrency
  once : state.accepted.Nodup
  places : ∀ task, state.accepted.count task =
    state.waiting.count task + state.holders.count task + state.finished.count task +
      state.left.count task
  ran : ∀ task, state.started.count task = state.running.count task + state.finished.count task
  submitted : state.waited.Sublist state.accepted
  -- A listener is registered exactly while its call waits.
  listening : state.listeners = state.queue.filterMap Waiter.listener
  inOrder : besides state.left state.waited =
    among state.waited (state.started ++ state.ready) ++ state.waiting

theorem Sound.initial (config : Config) : Sound config State.initial := by
  constructor <;> simp [State.initial, State.holders, State.waiting, besides, among]

section

variable {config : Config} {state : State}

theorem Sound.count_le_one (sound : Sound config state) (task : TaskId) :
    state.accepted.count task ≤ 1 :=
  List.nodup_iff_count_le_one.mp sound.once task

theorem Sound.waiting_nodup (sound : Sound config state) : state.waiting.Nodup := by
  refine List.nodup_iff_count_le_one.mpr fun task => ?_
  have places := sound.places task
  have once := sound.count_le_one task
  omega

end

theorem spliceIndexOf_append {earlier later : List Waiter} {waiter : Waiter}
    (first : ∀ other ∈ earlier, other.task ≠ waiter.task) :
    spliceIndexOf (earlier ++ waiter :: later) waiter.task = earlier ++ later := by
  have found : (earlier ++ waiter :: later).findIdx? (·.task = waiter.task) = some earlier.length := by
    induction earlier with
    | nil => simp [List.findIdx?_cons]
    | cons other earlier ih =>
      have different : other.task ≠ waiter.task := first other (by simp)
      simp [List.findIdx?_cons, different, ih fun other member => first other (by simp [member])]
  simp only [spliceIndexOf, found]
  rw [List.eraseIdx_append_of_length_le (Nat.le_refl _)]
  simp

section

variable {config : Config} {before after : State}

theorem Sound.listener_waits (sound : Sound config before) {signal : SignalId} {task : TaskId}
    (listens : (signal, task) ∈ before.listeners) : ⟨task, some signal⟩ ∈ before.queue := by
  rw [sound.listening, List.mem_filterMap] at listens
  obtain ⟨⟨waiting, held⟩, queued, same⟩ := listens
  simp only [Waiter.listener, Option.map_eq_some_iff, Prod.mk.injEq] at same
  obtain ⟨_, rfl, rfl, rfl⟩ := same
  exact queued

-- The index `onAbort` splices at is never -1.
theorem Sound.dispatched (sound : Sound config before) {signal : SignalId}
    (taken : step config before (.dispatch signal) = some after) :
    ∃ earlier later task, before.queue = earlier ++ ⟨task, some signal⟩ :: later ∧
      after = { before with
        queue := earlier ++ later
        listeners := before.listeners.erase (signal, task)
        left := before.left ++ [task] } := by
  simp only [step, Option.ite_none_right_eq_some] at taken
  obtain ⟨-, taken⟩ := taken
  split at taken
  case h_2 => cases taken
  case h_1 listener found =>
    obtain ⟨heard, task⟩ := listener
    obtain rfl : heard = signal := by simpa using List.find?_some found
    have queued := sound.listener_waits (List.mem_of_find?_eq_some found)
    obtain ⟨earlier, later, split⟩ := List.append_of_mem queued
    have distinct := sound.waiting_nodup
    have first : ∀ other ∈ earlier, other.task ≠ task := by
      intro other member same
      simp only [State.waiting, split, List.map_append, List.map_cons, List.nodup_append] at distinct
      exact distinct.2.2 _ (List.mem_map_of_mem member) task (by simp) same
    refine ⟨earlier, later, task, split, ?_⟩
    have spliced : spliceIndexOf (earlier ++ ⟨task, some heard⟩ :: later) task = earlier ++ later :=
      spliceIndexOf_append first
    simp only [Option.some.injEq] at taken
    simp only [← taken, onAbort, split, spliced]

theorem Sound.step_change (sound : Sound config before) {action : Action}
    (taken : step config before action = some after) : Change config before after := by
  cases action with
  | submit task signal =>
    simp only [step, Option.ite_none_left_eq_some, Option.some.injEq] at taken
    obtain ⟨fresh, rfl⟩ := taken
    unfold acquire
    split
    next => exact .refused
    next =>
      split
      next free => exact .occupied task fresh free
      next full =>
        split
        next => exact .refused
        next room => exact .queued task signal fresh (by omega) (by omega)
  | begin =>
    simp only [step] at taken
    split at taken
    case h_1 task rest next =>
      obtain rfl := Option.some.inj taken
      exact .begun task rest next
    case h_2 => cases taken
  | finish task =>
    simp only [step, Option.ite_none_right_eq_some, Option.some.injEq] at taken
    obtain ⟨running, rfl⟩ := taken
    exact .finished task running
  | abort signal =>
    obtain rfl := Option.some.inj taken
    exact .aborted signal
  | dispatch signal =>
    obtain ⟨earlier, later, task, queued, rfl⟩ := sound.dispatched taken
    exact .withdrawn earlier later task signal queued

theorem Sound.fresh (sound : Sound config before) {task : TaskId} (fresh : task ∉ before.accepted) :
    task ∉ before.waiting ∧ task ∉ before.holders ∧ task ∉ before.finished ∧ task ∉ before.left ∧
      task ∉ before.started ∧ task ∉ before.waited := by
  have places := sound.places task
  have ran := sound.ran task
  rw [List.count_eq_zero_of_not_mem fresh] at places
  have holding : before.running.count task ≤ before.holders.count task := by
    simp [State.holders]
  refine ⟨?_, ?_, ?_, ?_, ?_, fun waited => fresh (sound.submitted.subset waited)⟩ <;>
    (rw [← List.count_eq_zero]; omega)

theorem nodup_submitted {accepted : List TaskId} {task : TaskId} (once : accepted.Nodup)
    (fresh : task ∉ accepted) : (accepted ++ [task]).Nodup := by
  simp only [List.nodup_append, once, List.nodup_cons, List.not_mem_nil, not_false_eq_true,
    List.nodup_nil, and_self, List.mem_singleton, true_and]
  rintro other member _ rfl rfl
  exact fresh member

theorem Sound.occupy (sound : Sound config before) {task : TaskId} (fresh : task ∉ before.accepted)
    (free : before.active < config.concurrency) : Sound config (before.occupy task) := by
  have counted := sound.counted
  obtain ⟨-, -, -, -, -, unwaited⟩ := sound.fresh fresh
  have held : (before.occupy task).holders.Perm (task :: before.holders) := by
    simp [State.holders, State.occupy]
  have unqueued : before.queue = [] := by
    by_contra queued
    have full := sound.busy queued
    omega
  constructor
  case counted =>
    rw [held.length_eq, List.length_cons]
    simp [State.occupy, counted]
  case bounded =>
    rw [held.length_eq, List.length_cons]
    omega
  case room => exact sound.room
  case busy => exact fun queued => absurd unqueued queued
  case once => exact nodup_submitted sound.once fresh
  case places =>
    intro other
    have places := sound.places other
    rw [held.count_eq]
    simp only [State.occupy, State.waiting, List.count_append, List.count_cons, List.count_nil] at places ⊢
    omega
  case ran => exact sound.ran
  case submitted => exact sound.submitted.trans (List.sublist_append_left _ _)
  case listening => exact sound.listening
  case inOrder =>
    have kept := sound.inOrder
    simp only [among_append] at kept
    have unchanged : among before.waited [task] = [] := by simp [among, unwaited]
    change besides before.left before.waited =
      among before.waited (before.started ++ (before.ready ++ [task])) ++ before.waiting
    simp [kept, unchanged]

theorem Sound.enqueue (sound : Sound config before) {task : TaskId} {signal : Option SignalId}
    (fresh : task ∉ before.accepted) (full : config.concurrency ≤ before.active)
    (room : before.queue.length < config.queueSize) : Sound config (before.enqueue task signal) := by
  have counted := sound.counted
  have bounded := sound.bounded
  obtain ⟨-, unheld, -, unleft, unstarted, -⟩ := sound.fresh fresh
  constructor
  case counted => exact sound.counted
  case bounded => exact sound.bounded
  case room => simpa [State.enqueue, Nat.succ_le_iff] using room
  case busy =>
    intro _
    rw [show (before.enqueue task signal).holders = before.holders from rfl]
    omega
  case once => exact nodup_submitted sound.once fresh
  case places =>
    intro other
    have places := sound.places other
    simp only [State.enqueue, State.waiting, State.holders, List.map_append, List.map_cons,
      List.map_nil, List.count_append, List.count_cons, List.count_nil] at places ⊢
    omega
  case ran => exact sound.ran
  case submitted => exact sound.submitted.append_right [task]
  case listening =>
    cases signal <;> simp [State.enqueue, Waiter.listener, sound.listening, List.filterMap_append]
  case inOrder =>
    have started : task ∉ before.started ++ before.ready := by
      simp only [State.holders, List.mem_append, not_or] at unheld ⊢
      exact ⟨unstarted, unheld.1⟩
    have kept := sound.inOrder
    simp only [State.enqueue, State.waiting, List.map_append, besides_append, among_submitted started,
      kept]
    simp [besides, unleft]

theorem Sound.begin (sound : Sound config before) {task : TaskId} {rest : List TaskId}
    (next : before.ready = task :: rest) :
    Sound config { before with
      ready := rest
      running := before.running ++ [task]
      started := before.started ++ [task] } := by
  have held : (rest ++ (before.running ++ [task])).Perm before.holders := by
    simp only [State.holders, next, ← List.append_assoc]
    exact List.perm_append_singleton _ _
  constructor
  case counted => simpa [State.holders, held.length_eq] using sound.counted
  case bounded => simpa [State.holders, held.length_eq] using sound.bounded
  case room => exact sound.room
  case busy => simpa [State.holders, held.length_eq] using sound.busy
  case once => exact sound.once
  case places =>
    intro other
    have places := sound.places other
    rw [← held.count_eq] at places
    exact places
  case ran =>
    intro other
    have ran := sound.ran other
    simp only [List.count_append] at ran ⊢
    omega
  case submitted => exact sound.submitted
  case listening => exact sound.listening
  case inOrder => simpa [State.waiting, next] using sound.inOrder

theorem holders_finish {task : TaskId} (running : task ∈ before.running) :
    (task :: (before.ready ++ before.running.erase task)).Perm before.holders :=
  List.perm_middle.symm.trans ((List.perm_cons_erase running).symm.append_left _)

theorem Sound.freed (sound : Sound config before) {task : TaskId} (running : task ∈ before.running)
    (unqueued : before.queue = []) :
    Sound config { before with
      active := before.active - 1
      running := before.running.erase task
      finished := before.finished ++ [task] } := by
  have held := holders_finish running
  have size := held.length_eq
  have counted := sound.counted
  have bounded := sound.bounded
  rw [List.length_cons] at size
  constructor
  case counted =>
    simp only [State.holders] at size counted ⊢
    omega
  case bounded =>
    simp only [State.holders] at size bounded ⊢
    omega
  case room => exact sound.room
  case busy => exact fun queued => absurd unqueued queued
  case once => exact sound.once
  case places =>
    intro other
    have places := sound.places other
    rw [← held.count_eq] at places
    simp only [State.waiting, State.holders, List.count_append, List.count_cons, List.count_nil] at places ⊢
    omega
  case ran =>
    intro other
    have ran := sound.ran other
    rw [(List.perm_cons_erase running).count_eq] at ran
    simp only [List.count_append, List.count_cons, List.count_nil] at ran ⊢
    omega
  case submitted => exact sound.submitted
  case listening => exact sound.listening
  case inOrder => exact sound.inOrder

theorem filter_ne_eq_self {α : Type} [DecidableEq α] {items : List α} {item : α}
    (absent : item ∉ items) : items.filter (· ≠ item) = items := by
  refine List.filter_eq_self.mpr fun other member => ?_
  have different : other ≠ item := by
    rintro rfl
    exact absent member
  simpa using different

theorem listener_task {queue : List Waiter} {signal : SignalId} {task : TaskId}
    (listens : (signal, task) ∈ queue.filterMap Waiter.listener) : task ∈ queue.map (·.task) := by
  obtain ⟨waiter, queued, same⟩ := List.mem_filterMap.mp listens
  simp only [Waiter.listener, Option.map_eq_some_iff, Prod.mk.injEq] at same
  obtain ⟨_, _, _, rfl⟩ := same
  exact List.mem_map_of_mem queued

theorem start_listeners {queue : List Waiter} {waiter : Waiter}
    (absent : waiter.task ∉ queue.map (·.task)) (listening : before.listeners =
      (waiter :: queue).filterMap Waiter.listener) :
    (before.start waiter).listeners = queue.filterMap Waiter.listener := by
  obtain ⟨task, signal⟩ := waiter
  cases signal with
  | none => exact listening
  | some signal =>
    have kept : (queue.filterMap Waiter.listener).filter (· ≠ (signal, task)) =
        queue.filterMap Waiter.listener :=
      filter_ne_eq_self fun listens => absent (listener_task listens)
    have first : (Waiter.mk task (some signal)).listener = some (signal, task) := rfl
    simp only [State.start, listening, List.filterMap_cons, first, List.filter_cons]
    simpa using kept

theorem Sound.handed (sound : Sound config before) {task : TaskId} (running : task ∈ before.running)
    {waiter : Waiter} {rest : List Waiter} (queued : before.queue = waiter :: rest) :
    Sound config (State.start { before with
      queue := rest
      running := before.running.erase task
      finished := before.finished ++ [task] } waiter) := by
  have held : (task :: (before.ready ++ [waiter.task] ++ before.running.erase task)).Perm
      (waiter.task :: before.holders) := by
    refine (List.Perm.cons _ ?_).trans ((List.Perm.swap _ _ _).trans ((holders_finish running).cons _))
    simp
  have size := held.length_eq
  rw [List.length_cons, List.length_cons] at size
  have full := sound.busy (by simp [queued])
  have alone := sound.waiting_nodup
  simp only [State.waiting, queued, List.map_cons, List.nodup_cons] at alone
  have bounded := sound.bounded
  have counted := sound.counted
  have room := sound.room
  constructor
  case counted =>
    simp only [State.start, State.holders] at size counted ⊢
    omega
  case bounded =>
    simp only [State.start, State.holders] at size bounded ⊢
    omega
  case room =>
    simp only [State.start, queued, List.length_cons] at room ⊢
    omega
  case busy =>
    intro _
    simp only [State.start, State.holders] at size full ⊢
    omega
  case once => exact sound.once
  case places =>
    intro other
    have places := sound.places other
    have same := held.count_eq other
    simp only [State.start, State.waiting, State.holders, queued, List.map_cons, List.count_append,
      List.count_cons, List.count_nil] at places same ⊢
    omega
  case ran =>
    intro other
    have ran := sound.ran other
    rw [(List.perm_cons_erase running).count_eq] at ran
    simp only [State.start, List.count_append, List.count_cons, List.count_nil] at ran ⊢
    omega
  case submitted => exact sound.submitted
  case listening => exact start_listeners alone.1 (queued ▸ sound.listening)
  case inOrder =>
    have waited : waiter.task ∈ before.waited := by
      have order := sound.inOrder
      have member : waiter.task ∈ besides before.left before.waited := by
        simp [order, State.waiting, queued]
      exact List.mem_of_mem_filter member
    have next : among before.waited [waiter.task] = [waiter.task] := by simp [among, waited]
    change besides before.left before.waited =
      among before.waited (before.started ++ (before.ready ++ [waiter.task])) ++ rest.map (·.task)
    simp [sound.inOrder, State.waiting, queued, next]

theorem Sound.finish (sound : Sound config before) {task : TaskId} (running : task ∈ before.running) :
    Sound config (State.release { before with
      running := before.running.erase task
      finished := before.finished ++ [task] }) := by
  unfold State.release
  split
  next queued => exact sound.handed running queued
  next unqueued => exact sound.freed running unqueued

theorem withdrawn_listeners {earlier later : List Waiter} {task : TaskId} {signal : SignalId}
    (absent : task ∉ earlier.map (·.task)) :
    ((earlier ++ ⟨task, some signal⟩ :: later).filterMap Waiter.listener).erase (signal, task) =
      (earlier ++ later).filterMap Waiter.listener := by
  have other : (signal, task) ∉ earlier.filterMap Waiter.listener := fun listens =>
    absent (listener_task listens)
  have first : (Waiter.mk task (some signal)).listener = some (signal, task) := rfl
  simp [List.filterMap_append, first, List.erase_append_right _ other]

theorem besides_left {left waited : List TaskId} {task : TaskId} :
    besides (left ++ [task]) waited = (besides left waited).filter (· ≠ task) := by
  simp only [besides, List.filter_filter]
  refine List.filter_congr fun other _ => ?_
  simp [not_or, and_comm]

theorem Sound.withdrawn (sound : Sound config before) {earlier later : List Waiter} {task : TaskId}
    {signal : SignalId} (queued : before.queue = earlier ++ ⟨task, some signal⟩ :: later) :
    Sound config { before with
      queue := earlier ++ later
      listeners := before.listeners.erase (signal, task)
      left := before.left ++ [task] } := by
  have split : before.waiting = earlier.map (·.task) ++ task :: later.map (·.task) := by
    simp [State.waiting, queued]
  have alone := sound.waiting_nodup
  rw [split, List.nodup_middle, List.nodup_cons, List.mem_append, not_or] at alone
  obtain ⟨⟨before_it, after_it⟩, -⟩ := alone
  have room := sound.room
  constructor
  case counted => exact sound.counted
  case bounded => exact sound.bounded
  case room =>
    simp only [queued, List.length_append, List.length_cons] at room ⊢
    omega
  case busy => exact fun _ => sound.busy (by simp [queued])
  case once => exact sound.once
  case places =>
    intro other
    have places := sound.places other
    rw [split] at places
    simp only [State.waiting, State.holders, List.map_append, List.count_append, List.count_cons,
      List.count_nil] at places ⊢
    omega
  case ran => exact sound.ran
  case submitted => exact sound.submitted
  case listening =>
    simp only [sound.listening, queued]
    exact withdrawn_listeners before_it
  case inOrder =>
    -- Only the call that leaves is dropped on both sides: no call that waits has been handed a slot.
    have unstarted : task ∉ among before.waited (before.started ++ before.ready) := by
      intro member
      have present := List.mem_of_mem_filter member
      have places := sound.places task
      have ran := sound.ran task
      have once := sound.count_le_one task
      have waits : 0 < before.waiting.count task := List.count_pos_iff.mpr (by simp [split])
      rcases List.mem_append.mp present with started | ready
      · have pos := List.count_pos_iff.mpr started
        simp only [State.holders, List.count_append] at places
        omega
      · have pos := List.count_pos_iff.mpr ready
        simp only [State.holders, List.count_append] at places
        omega
    simp only [besides_left, sound.inOrder, split, List.filter_append, filter_ne_eq_self unstarted]
    simp only [State.waiting, List.map_append, List.filter_cons, filter_ne_eq_self before_it,
      filter_ne_eq_self after_it]
    simp

theorem Sound.step (sound : Sound config before) {action : Action}
    (taken : Limiter.step config before action = some after) : Sound config after := by
  cases sound.step_change taken with
  | refused => exact sound
  | occupied task fresh free => exact sound.occupy fresh free
  | queued task signal fresh full room => exact sound.enqueue fresh full room
  | begun task rest next => exact sound.begin next
  | finished task running => exact sound.finish running
  | aborted signal => exact { sound with }
  | withdrawn earlier later task signal queued => exact sound.withdrawn queued

end

abbrev Reached (config : Config) : List Action → State → Prop :=
  Run (step config) (fun _ _ => True) State.initial

theorem Reached.sound {config : Config} {actions : List Action} {state : State}
    (run : Reached config actions state) : Sound config state :=
  Run.always run (Sound config) (Sound.initial config) fun _ _ _ sound _ taken => sound.step taken

/-- Where a call is once `acquire` has answered. -/
def Placed (before : State) (task : TaskId) (signal : Option SignalId) (after : State) : Acquired → Prop
  | .resolved => after.ready = before.ready ++ [task] ∧ after.running = before.running ∧
      after.active = before.active + 1 ∧ after.queue = before.queue
  | .pending => after.queue = before.queue ++ [⟨task, signal⟩] ∧ after.holders = before.holders ∧
      after.active = before.active
  | .aborted => after = before
  | .busy => after = before

theorem acquire_placed (config : Config) (state : State) (task : TaskId) (signal : Option SignalId) :
    Placed state task signal (acquire config state task signal).2 (acquire config state task signal).1 := by
  unfold acquire
  split_ifs with gone free full
  next => rfl
  next => exact ⟨rfl, rfl, rfl, rfl⟩
  next => rfl
  next => exact ⟨rfl, rfl, rfl⟩

/-- At most `concurrency` slots are held and at most `queueSize` calls wait, none of them while a slot
is free, and each accepted call is in exactly one place. -/
theorem limiter_slots {config : Config} {actions : List Action} {state : State}
    (run : Reached config actions state) :
    state.holders.length ≤ config.concurrency ∧ state.waiting.length ≤ config.queueSize ∧
      (state.holders.length < config.concurrency → state.waiting = []) ∧
      (∀ task signal, (acquire config state task signal).1 = .busy ↔
        state.holders.length = config.concurrency ∧ state.waiting.length = config.queueSize ∧
          signal.any state.aborted = false) ∧
      state.accepted.Nodup ∧
      state.accepted.Perm (state.waiting ++ state.holders ++ state.finished ++ state.left) ∧
      state.active = state.holders.length ∧
      ((∀ task ∈ state.accepted, task ∈ state.finished ∨ task ∈ state.left) → state.active = 0) ∧
      (∀ task signal, (acquire config state task signal).1 = .resolved ↔
        state.holders.length < config.concurrency ∧ signal.any state.aborted = false) ∧
      ∀ task signal, Placed state task signal (acquire config state task signal).2
        (acquire config state task signal).1 := by
  have sound := run.sound
  have waiting : state.waiting.length = state.queue.length := by simp [State.waiting]
  have counted := sound.counted
  have bounded := sound.bounded
  have room := sound.room
  have free (some_free : state.holders.length < config.concurrency) : state.queue = [] := by
    by_contra queued
    have full := sound.busy queued
    omega
  have places : state.accepted.Perm (state.waiting ++ state.holders ++ state.finished ++ state.left) := by
    refine List.perm_iff_count.mpr fun task => ?_
    simp only [List.count_append]
    exact sound.places task
  refine ⟨bounded, waiting ▸ room, fun some_free => by simp [State.waiting, free some_free], ?_,
    sound.once, places, counted, fun ended => ?_, ?_, acquire_placed config state⟩
  · intro task signal
    simp only [acquire, waiting]
    split
    next gone => simp [gone]
    next live =>
      split
      next => simp; omega
      next =>
        split
        next => simp only [Bool.not_eq_true] at live; simp only [live, and_true, true_iff]; omega
        next => simp; omega
  · have idle : state.holders = [] := by
      refine List.eq_nil_iff_forall_not_mem.mpr fun task holding => ?_
      have places := sound.places task
      have once := sound.count_le_one task
      have holds := List.count_pos_iff.mpr holding
      have accepted : task ∈ state.accepted := List.count_pos_iff.mp (by omega)
      rcases ended task accepted with finished | left
      · have pos := List.count_pos_iff.mpr finished
        omega
      · have pos := List.count_pos_iff.mpr left
        omega
    simp [counted, idle]
  · intro task signal
    unfold acquire
    split_ifs with gone free full
    next => simp [gone]
    next => simp [gone]; omega
    next => simp; omega
    next => simp; omega

def handover : List Action :=
  [.submit 0 none, .begin, .submit 1 (some 7), .submit 2 (some 8), .abort 7, .dispatch 7, .finish 0,
    .abort 8, .begin]

theorem limiter_slots_handover : ∃ state : State, Reached ⟨1, 2⟩ handover state ∧
    state.accepted.Perm (state.waiting ++ state.holders ++ state.finished ++ state.left) ∧
    state.holders = [2] ∧ state.left = [1] := by
  have ran : (exec (step ⟨1, 2⟩) (fun _ _ => true) State.initial handover).any (fun state =>
      state.holders = [2] && state.left = [1]) = true := by decide +kernel
  obtain ⟨state, reached, shown⟩ := exists_run_of_exec (fun _ _ _ => trivial) ran
  simp only [Bool.and_eq_true, decide_eq_true_eq] at shown
  obtain ⟨-, -, -, -, -, places, -⟩ := limiter_slots reached
  exact ⟨state, reached, places, shown⟩

theorem Sound.left_never_runs {config : Config} {state : State} (sound : Sound config state)
    {task : TaskId} (left : task ∈ state.left) : task ∉ state.started ∧ task ∉ state.holders := by
  have places := sound.places task
  have ran := sound.ran task
  have once := sound.count_le_one task
  have gone := List.count_pos_iff.mpr left
  have holding : state.running.count task ≤ state.holders.count task := by simp [State.holders]
  constructor <;> (rw [← List.count_eq_zero]; omega)

theorem left_grows {config : Config} {before after : State} {action : Action} (sound : Sound config before)
    (taken : step config before action = some after) {task : TaskId} (left : task ∈ before.left) :
    task ∈ after.left := by
  cases sound.step_change taken with
  | refused | occupied | queued | begun | aborted => exact left
  | finished =>
    unfold State.release
    split <;> exact left
  | withdrawn => exact List.mem_append_left _ left

theorem Sound.dispatches_iff {config : Config} {state : State} (sound : Sound config state)
    (signal : SignalId) : (Limiter.step config state (.dispatch signal)).isSome ↔
      state.aborted signal = true ∧ ∃ waiter ∈ state.queue, waiter.signal = some signal := by
  have listens : (∃ listener ∈ state.listeners, listener.1 = signal) ↔
      ∃ waiter ∈ state.queue, waiter.signal = some signal := by
    constructor
    · rintro ⟨⟨_, task⟩, listens, rfl⟩
      exact ⟨_, sound.listener_waits listens, rfl⟩
    · rintro ⟨⟨task, _⟩, queued, rfl⟩
      rw [sound.listening]
      exact ⟨(signal, task), List.mem_filterMap.mpr ⟨_, queued, rfl⟩, rfl⟩
  rw [← listens]
  simp only [Limiter.step]
  split
  next aborted =>
    have heard : (state.listeners.find? (·.1 = signal)).isSome ↔
        ∃ listener ∈ state.listeners, listener.1 = signal := by
      simp only [List.find?_isSome, decide_eq_true_eq]
    rw [← heard]
    cases state.listeners.find? (·.1 = signal) <;> simp [aborted]
  next live => simp [live]

/-- What an abort of `signal` does while some calls with that signal wait: the first of them leaves,
for good, and its place can be taken. -/
def Withdraws (config : Config) (actions : List Action) (before : State) (signal : SignalId)
    (after : State) : Prop :=
  ∃ earlier task later, before.queue = earlier ++ ⟨task, some signal⟩ :: later ∧
    after.queue = earlier ++ later ∧ after.holders = before.holders ∧ after.active = before.active ∧
    (∀ others final, Reached config (actions ++ .dispatch signal :: others) final →
      task ∉ final.started ∧ task ∉ final.holders) ∧
    ∀ fresh own, own.any before.aborted = false →
      (acquire config after fresh own).1 = .pending ∧
        (acquire config after fresh own).2.queue = earlier ++ later ++ [⟨fresh, own⟩]

/-- Those who waited start in the order of their submission, apart from those who left, and what aborts
removes only a call that waits. -/
theorem waiting_order {config : Config} {actions : List Action} {state : State}
    (run : Reached config actions state) :
    state.waited.Sublist state.accepted ∧
      (state.started.filter (· ∈ state.waited)).IsPrefix (state.waited.filter (· ∉ state.left)) ∧
      (∀ signal, (step config state (.dispatch signal)).isSome ↔
        state.aborted signal = true ∧ ∃ waiter ∈ state.queue, waiter.signal = some signal) ∧
      (∀ signal after, step config state (.dispatch signal) = some after →
        Withdraws config actions state signal after) ∧
      (∀ signal after, step config state (.abort signal) = some after →
        after.queue = state.queue ∧ after.holders = state.holders ∧ after.started = state.started) ∧
      ∀ task signal, (acquire config state task signal).1 = .pending →
        (acquire config state task signal).2.queue = state.queue ++ [⟨task, signal⟩] ∧
          ∀ heard, signal = some heard → (heard, task) ∈ (acquire config state task signal).2.listeners := by
  have sound := run.sound
  refine ⟨sound.submitted, ?_, sound.dispatches_iff, fun signal after taken => ?_,
    fun signal after taken => ?_, fun task signal pending => ?_⟩
  · have order := sound.inOrder
    simp only [among_append, List.append_assoc] at order
    exact ⟨_, order.symm⟩
  · obtain ⟨earlier, later, task, queued, rfl⟩ := sound.dispatched taken
    refine ⟨earlier, task, later, queued, rfl, rfl, rfl, fun others final reached => ?_,
      fun fresh own live => ?_⟩
    · have now : Reached config _ _ := .snoc run trivial taken
      rw [List.append_cons] at reached
      have gone := reached.onwards now (fun state => Sound config state ∧ task ∈ state.left)
        ⟨now.sound, by simp⟩ fun _ _ _ ⟨sound, left⟩ _ took => ⟨sound.step took, left_grows sound took left⟩
      exact gone.1.left_never_runs gone.2
    · have full := sound.busy (by simp [queued])
      have counted := sound.counted
      have room := sound.room
      have shorter : (earlier ++ later).length < config.queueSize := by
        simp only [queued, List.length_append, List.length_cons] at room ⊢
        omega
      have held : ¬ state.active < config.concurrency := by omega
      simp only [acquire, live, held, if_false, Nat.not_le.mpr shorter, Bool.false_eq_true]
      simp [State.enqueue]
  · obtain rfl := Option.some.inj taken
    exact ⟨rfl, rfl, rfl⟩
  · have enqueued : (acquire config state task signal).2 = state.enqueue task signal := by
      unfold acquire at pending ⊢
      split_ifs at pending ⊢
      rfl
    rw [enqueued]
    refine ⟨rfl, ?_⟩
    rintro heard rfl
    exact List.mem_append_right _ (List.mem_singleton_self _)

theorem waiting_order_handover : ∃ state : State, Reached ⟨1, 2⟩ handover state ∧
    (state.started.filter (· ∈ state.waited)).IsPrefix (state.waited.filter (· ∉ state.left)) ∧
      state.started = [0, 2] ∧ state.waited = [1, 2] ∧ state.left = [1] := by
  have ran : (exec (step ⟨1, 2⟩) (fun _ _ => true) State.initial handover).any (fun state =>
      state.started = [0, 2] && (state.waited = [1, 2] && state.left = [1])) = true := by decide +kernel
  obtain ⟨state, reached, shown⟩ := exists_run_of_exec (fun _ _ _ => trivial) ran
  simp only [Bool.and_eq_true, decide_eq_true_eq] at shown
  obtain ⟨-, ordered, -⟩ := waiting_order reached
  exact ⟨state, reached, ordered, shown⟩

end SourceVerification.Limiter
