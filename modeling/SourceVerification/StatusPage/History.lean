import Mathlib.Data.List.TakeWhile
import SourceVerification.StatusPage.Notify

set_option autoImplicit false

namespace SourceVerification.StatusPage

open Runs

section

variable {Health : Type} [DecidableEq Health]

abbrev Sightings (Health : Type) := List (Time × Health)

def latest (seen : Sightings Health) : Option Health :=
  seen.head?.map (·.2)

def stretch (seen : Sightings Health) : Sightings Health :=
  seen.takeWhile fun (_, health) => latest seen = some health

def started (seen : Sightings Health) : Option Time :=
  (stretch seen).getLast?.map (·.1)

omit [DecidableEq Health] in
theorem latest_cons (time : Time) (health : Health) (past : Sightings Health) :
    latest ((time, health) :: past) = some health :=
  rfl

theorem stretch_cons (time : Time) (health : Health) (past : Sightings Health) :
    stretch ((time, health) :: past) =
      (time, health) :: (if latest past = some health then stretch past else []) := by
  rw [stretch, List.takeWhile_cons_of_pos (by simp [latest_cons])]
  congr 1
  by_cases same : latest past = some health
  next => rw [if_pos same, stretch, latest_cons, same]
  next =>
    rw [if_neg same, latest_cons]
    cases past with
    | nil => rfl
    | cons sighting rest =>
      refine List.takeWhile_cons_of_neg ?_
      simpa [latest, eq_comm] using same

theorem started_cons (time : Time) (health : Health) (past : Sightings Health) :
    started ((time, health) :: past) =
      if latest past = some health then (started past).or (some time) else some time := by
  rw [started, stretch_cons]
  by_cases same : latest past = some health
  next =>
    rw [if_pos same, if_pos same, started]
    cases going : stretch past with
    | nil => rfl
    | cons sighting rest => simp [Option.map, List.getLast?_eq_some_getLast]
  next =>
    rw [if_neg same, if_neg same]
    rfl

theorem stretch_health {seen : Sightings Health} {health : Health} (last : latest seen = some health) :
    ∀ sighting ∈ stretch seen, sighting.2 = health := by
  intro sighting member
  have same := List.mem_takeWhile_imp member
  rw [last] at same
  simpa [eq_comm] using same

end

def Workflow.sighting (id : ServiceId) (workflow : Workflow) : Option (Time × ServiceHealth) :=
  (workflow.probed.find? (·.id = id)).map fun probed => (workflow.checkedAt, probed.health)

def wholeLog (id : ServiceId) (workflows : List Workflow) : Sightings ServiceHealth :=
  workflows.reverse.filterMap (Workflow.sighting id)

def unbroken : List Workflow → List Workflow
  | [] => []
  | workflow :: earlier => if workflow.fetches then workflow :: unbroken earlier else [workflow]

def seenBy (id : ServiceId) : List Workflow → Sightings ServiceHealth
  | [] => []
  | workflow :: earlier => ((workflow.sighting id).map (· :: seenBy id earlier)).getD []

/-- What can reach a run of all that was seen: the sightings of the runs that were deployed, from the last of them on
that found no snapshot. -/
def logOf (id : ServiceId) (workflows : List Workflow) : Sightings ServiceHealth :=
  seenBy id (unbroken (workflows.filter (·.deploys)).reverse)

/-- What the run can carry forward from the snapshot published last. -/
def carried (workflow : Workflow) (published : Sightings ServiceHealth) : Sightings ServiceHealth :=
  if workflow.fetches then published else []

def observed (id : ServiceId) (workflow : Workflow) (published : Sightings ServiceHealth) : Sightings ServiceHealth :=
  match workflow.probed.find? (·.id = id) with
  | some probed => (workflow.checkedAt, probed.health) :: carried workflow published
  | none => []

theorem logOf_snoc (id : ServiceId) (workflows : List Workflow) (workflow : Workflow) :
    logOf id (workflows ++ [workflow]) =
      if workflow.deploys then observed id workflow (logOf id workflows) else logOf id workflows := by
  unfold logOf
  rw [List.filter_append]
  by_cases deployed : workflow.deploys = true
  next =>
    rw [List.filter_cons_of_pos deployed, List.filter_nil, List.reverse_concat, if_pos deployed, unbroken, observed]
    by_cases fetched : workflow.fetches = true
    next =>
      rw [if_pos fetched, seenBy, Workflow.sighting, carried, if_pos fetched]
      cases workflow.probed.find? (·.id = id) <;> rfl
    next =>
      rw [if_neg fetched, seenBy, Workflow.sighting, carried, if_neg fetched]
      cases workflow.probed.find? (·.id = id) <;> rfl
  next =>
    rw [List.filter_cons_of_neg deployed, List.filter_nil, List.append_nil, if_neg deployed]

theorem unbroken_isPrefix (workflows : List Workflow) : unbroken workflows <+: workflows := by
  induction workflows with
  | nil => exact List.prefix_refl _
  | cons workflow earlier ih =>
    unfold unbroken
    split
    next => exact List.prefix_cons_inj workflow |>.mpr ih
    next => exact ⟨earlier, rfl⟩

theorem seenBy_isPrefix (id : ServiceId) (workflows : List Workflow) :
    seenBy id workflows <+: workflows.filterMap (Workflow.sighting id) := by
  induction workflows with
  | nil => exact List.prefix_refl _
  | cons workflow earlier ih =>
    rw [seenBy, List.filterMap_cons]
    cases workflow.sighting id with
    | none => exact List.nil_prefix
    | some seen => exact List.prefix_cons_inj seen |>.mpr ih

theorem logOf_sublist (id : ServiceId) (workflows : List Workflow) :
    (logOf id workflows).Sublist (wholeLog id workflows) := by
  have deployed : ((workflows.filter (·.deploys)).reverse).Sublist workflows.reverse := List.filter_sublist.reverse
  have reached := (unbroken_isPrefix (workflows.filter (·.deploys)).reverse).sublist.trans deployed
  exact (seenBy_isPrefix id _).sublist.trans (reached.filterMap (Workflow.sighting id))

theorem logOf_whole {id : ServiceId} {workflows : List Workflow}
    (undisturbed : ∀ workflow ∈ workflows, workflow.fetches = true ∧ workflow.deploys = true ∧
      (workflow.sighting id).isSome) : logOf id workflows = wholeLog id workflows := by
  have deployed : workflows.filter (·.deploys) = workflows :=
    List.filter_eq_self.mpr fun workflow member => (undisturbed workflow member).2.1
  have each : ∀ workflow ∈ workflows.reverse, workflow.fetches = true ∧ (workflow.sighting id).isSome := by
    intro workflow member
    obtain ⟨fetched, -, seen⟩ := undisturbed workflow (List.mem_reverse.mp member)
    exact ⟨fetched, seen⟩
  rw [logOf, wholeLog, deployed]
  generalize workflows.reverse = runs at each
  induction runs with
  | nil => rfl
  | cons workflow earlier ih =>
    obtain ⟨⟨fetched, seen⟩, others⟩ := List.forall_mem_cons.mp each
    obtain ⟨sighting, found⟩ := Option.isSome_iff_exists.mp seen
    rw [unbroken, if_pos fetched, seenBy, found, List.filterMap_cons_some found, ← ih others]
    rfl

structure Summarizes (id : ServiceId) (previous : Option StatusSnapshot) (seen : Sightings ServiceHealth) : Prop where
  health : (previous.bind (·.find id)).map (·.health) = latest seen
  since : (previous.bind (·.find id)).bind (·.since) = started seen

theorem find_snapshotOf (id : ServiceId) (previous : Option StatusSnapshot) (checkedAt : Time)
    (probed : List ProbedService) :
    (snapshotOf previous checkedAt probed).find id =
      (probed.find? (·.id = id)).map (withHistory previous checkedAt) := by
  rw [StatusSnapshot.find, snapshotOf, List.find?_map]
  rfl

theorem Summarizes.withHistory {id : ServiceId} {previous : Option StatusSnapshot} {seen : Sightings ServiceHealth}
    (summarizes : Summarizes id previous seen) (checkedAt : Time) {service : ProbedService} (named : service.id = id) :
    withHistory previous checkedAt service = { service with
      previousHealth := latest seen
      since := started ((checkedAt, service.health) :: seen)
      previousSince := started seen } := by
  have unchanged : ((previous.bind (·.find id)).any (·.health = service.health)) = true ↔
      latest seen = some service.health := by
    rw [← summarizes.health]
    cases previous.bind (·.find id) <;> simp
  rw [StatusPage.withHistory, named, started_cons, ← summarizes.since, ← summarizes.health]
  congr 1
  by_cases same : latest seen = some service.health
  next => rw [if_pos (unchanged.mpr same), if_pos (summarizes.health.trans same)]
  next =>
    rw [if_neg fun kept => same (unchanged.mp kept), if_neg fun kept => same (summarizes.health.symm.trans kept)]

theorem Summarizes.snapshot {id : ServiceId} {state : State} {published : Sightings ServiceHealth}
    (summarizes : Summarizes id state.published published) (workflow : Workflow) :
    (workflow.snapshot state).find id = (workflow.probed.find? (·.id = id)).map fun probed => { probed with
      previousHealth := latest (carried workflow published)
      since := started ((workflow.checkedAt, probed.health) :: carried workflow published)
      previousSince := started (carried workflow published) } := by
  have read : Summarizes id (if workflow.fetches then state.published else none) (carried workflow published) := by
    unfold carried
    split
    next => exact summarizes
    next => exact ⟨rfl, rfl⟩
  rw [Workflow.snapshot, find_snapshotOf]
  cases found : workflow.probed.find? (·.id = id) with
  | none => rfl
  | some probed =>
    have named : probed.id = id := by simpa using List.find?_some found
    exact congrArg some (read.withHistory workflow.checkedAt named)

theorem Summarizes.step {id : ServiceId} {state after : State} {published : Sightings ServiceHealth}
    {workflow : Workflow} (summarizes : Summarizes id state.published published)
    (taken : step state workflow = some after) :
    Summarizes id after.published (if workflow.deploys then observed id workflow published else published) := by
  obtain rfl := Option.some.inj taken
  dsimp only
  by_cases deployed : workflow.deploys = true
  next =>
    have told := summarizes.snapshot workflow
    rw [if_pos deployed, if_pos deployed]
    unfold observed
    cases found : workflow.probed.find? (·.id = id) with
    | none =>
      rw [found] at told
      exact ⟨by rw [Option.bind_some, told]; rfl, by rw [Option.bind_some, told]; rfl⟩
    | some probed =>
      rw [found] at told
      exact ⟨by rw [Option.bind_some, told]; rfl, by rw [Option.bind_some, told]; rfl⟩
  next =>
    rw [if_neg deployed, if_neg deployed]
    exact summarizes

theorem summarizes_run (id : ServiceId) {workflows : List Workflow} {state : State}
    (run : Run step (fun _ _ => True) State.initial workflows state) :
    Summarizes id state.published (logOf id workflows) := by
  refine run.invariant (fun workflows state => Summarizes id state.published (logOf id workflows)) ⟨rfl, rfl⟩ ?_
  intro workflows before workflow after _ summarizes _ taken
  rw [logOf_snoc]
  exact summarizes.step taken

/-- How long a service that recovered is said to have been down. -/
def downFor (service : ServiceStatus) (checkedAt : Time) : Option String :=
  service.previousSince.map fun previousSince => formatDuration (checkedAt - previousSince)

theorem started_of_latest {seen : Sightings ServiceHealth} {health : ServiceHealth} (last : latest seen = some health) :
    ∃ start, started seen = some start ∧ (start, health) ∈ seen := by
  cases seen with
  | nil => cases last
  | cons sighting rest =>
    obtain ⟨time, first⟩ := sighting
    obtain rfl := Option.some.inj last
    obtain ⟨⟨start, health⟩, ends⟩ : ∃ oldest, (stretch ((time, first) :: rest)).getLast? = some oldest := by
      rw [stretch_cons]
      exact ⟨_, List.getLast?_eq_some_getLast (by simp)⟩
    have inside := List.mem_of_getLast? ends
    have member : (start, health) ∈ (time, first) :: rest := (List.takeWhile_sublist _).subset inside
    obtain rfl : health = first := stretch_health (latest_cons time first rest) _ inside
    exact ⟨start, by rw [started, ends]; rfl, member⟩

/-- Three fields of the snapshot published last tell all of the log that a run needs: a recovery is posted just when the
log ends in another health, and its duration is that of the log's last stretch. The log has of all sightings those of the
deployed runs since the last of them that found no snapshot, which is all of them where no run failed to fetch or to
deploy. -/
theorem run_history (id : ServiceId) {workflows : List Workflow} {state : State}
    (run : Run step (fun _ _ => True) State.initial workflows state) (workflow : Workflow) :
    ((workflow.snapshot state).find id = (workflow.probed.find? (·.id = id)).map fun probed => { probed with
      previousHealth := latest (carried workflow (logOf id workflows))
      since := started ((workflow.checkedAt, probed.health) :: carried workflow (logOf id workflows))
      previousSince := started (carried workflow (logOf id workflows)) }) ∧
    (∀ service, (workflow.snapshot state).find id = some service → service.health = .healthy →
      ((reasonToPost service (workflow.snapshot state)).isSome ↔
        ∃ health ≠ .healthy, latest (carried workflow (logOf id workflows)) = some health) ∧
      ∀ health ≠ ServiceHealth.healthy, latest (carried workflow (logOf id workflows)) = some health →
        ∃ start, (start, health) ∈ carried workflow (logOf id workflows) ∧
          started (carried workflow (logOf id workflows)) = some start ∧
          downFor service workflow.checkedAt = some (formatDuration (workflow.checkedAt - start))) ∧
    (logOf id workflows).Sublist (wholeLog id workflows) ∧
    ((∀ earlier ∈ workflows, earlier.fetches = true ∧ earlier.deploys = true ∧ (earlier.sighting id).isSome) →
      logOf id workflows = wholeLog id workflows) := by
  have told := (summarizes_run id run).snapshot workflow
  refine ⟨told, fun service found healthy => ?_, logOf_sublist id workflows, logOf_whole⟩
  rw [told] at found
  obtain ⟨probed, -, rfl⟩ := Option.map_eq_some_iff.mp found
  have good : probed.health = .healthy := healthy
  constructor
  next =>
    unfold reasonToPost
    dsimp only
    cases last : latest (carried workflow (logOf id workflows)) with
    | none => simp [good]
    | some health =>
      by_cases same : health = .healthy
      next => simp [good, same]
      next => simp [good, same]
  next =>
    intro health _ last
    obtain ⟨start, began, member⟩ := started_of_latest last
    exact ⟨start, member, began, by simp [downFor, began]⟩

def disturbed : List Workflow :=
  [probedOnce .unhealthy 0 true, probedOnce .unhealthy 1800000 false,
    { probedOnce .unhealthy 3600000 true with fetches := false }]

theorem disturbed_down : ∃ state, Run step (fun _ _ => True) State.initial disturbed state ∧
    ∀ service, ((probedOnce .healthy 5400000 true).snapshot state).find "api-compile" = some service →
      downFor service 5400000 = some "30m" := by
  have first : Run step (fun _ _ => True) State.initial [probedOnce .unhealthy 0 true] _ :=
    .snoc .nil trivial rfl
  have second : Run step (fun _ _ => True) State.initial
      ([probedOnce .unhealthy 0 true] ++ [probedOnce .unhealthy 1800000 false]) _ := .snoc first trivial rfl
  have third : Run step (fun _ _ => True) State.initial disturbed _ := .snoc second trivial rfl
  refine ⟨_, third, ?_⟩
  intro service found
  have history := run_history "api-compile" third (probedOnce .healthy 5400000 true)
  have told := history.1
  rw [told] at found
  obtain rfl := Option.some.inj found
  obtain ⟨start, -, began, duration⟩ := (history.2.1 _ told rfl).2 .unhealthy (by decide) rfl
  obtain rfl : 3600000 = start := Option.some.inj began
  refine duration.trans ?_
  decide +kernel

end SourceVerification.StatusPage
