import Mathlib.Data.List.Nodup
import SourceVerification.Shared.Runs
import SourceVerification.Shared.Tables

set_option autoImplicit false

namespace SourceVerification.StatusPage

open Runs

abbrev Time := Int

abbrev ServiceId := String

inductive CheckHealth
  | healthy
  | unhealthy
deriving DecidableEq

inductive ServiceHealth
  | healthy
  | degraded
  | unhealthy
deriving DecidableEq

def rollUp (endpoints : List CheckHealth) : ServiceHealth :=
  let healthy := endpoints.filter (· = .healthy)
  if healthy.length = endpoints.length then .healthy
  else if healthy.length = 0 then .unhealthy
  else .degraded

structure ProbedService where
  id : ServiceId
  name : String
  health : ServiceHealth
  endpoints : List CheckHealth

def probeService (id : ServiceId) (name : String) (endpoints : List CheckHealth) : ProbedService where
  id := id
  name := name
  health := rollUp endpoints
  endpoints := endpoints

structure ServiceStatus extends ProbedService where
  previousHealth : Option ServiceHealth
  -- None in a snapshot from before the field.
  since : Option Time
  previousSince : Option Time

structure StatusSnapshot where
  checkedAt : Time
  previousCheckedAt : Option Time
  services : List ServiceStatus

def StatusSnapshot.find (snapshot : StatusSnapshot) (id : ServiceId) : Option ServiceStatus :=
  snapshot.services.find? (·.id = id)

def withHistory (previous : Option StatusSnapshot) (checkedAt : Time) (service : ProbedService) :
    ServiceStatus :=
  let before := previous.bind (·.find service.id)
  let unchanged := before.any (·.health = service.health)
  { service with
    previousHealth := before.map (·.health)
    since := if unchanged then (before.bind (·.since)).or (some checkedAt) else some checkedAt
    previousSince := before.bind (·.since) }

def snapshotOf (previous : Option StatusSnapshot) (checkedAt : Time) (probed : List ProbedService) :
    StatusSnapshot where
  checkedAt := checkedAt
  previousCheckedAt := previous.map (·.checkedAt)
  services := probed.map (withHistory previous checkedAt)

def SIX_HOURS_MS : Time := 6 * 60 * 60 * 1000

def formatDuration (ms : Time) : String :=
  let minutes := max 0 ((ms + 30000) / 60000)
  let hours := minutes / 60
  let remainder := minutes % 60
  if hours = 0 then s!"{remainder}m"
  else if remainder = 0 then s!"{hours}h"
  else s!"{hours}h {remainder}m"

inductive Reason
  | changed
  | firstSighting
  | reminder (downFor : String)
deriving DecidableEq

def reasonToPost (service : ServiceStatus) (snapshot : StatusSnapshot) : Option Reason :=
  match service.previousHealth with
  -- Announce a bad state and stay quiet about a good one.
  | none => if service.health = .healthy then none else some .firstSighting
  | some previousHealth =>
    if previousHealth ≠ service.health then some .changed
    else if service.health = .healthy then none
    else
      match snapshot.previousCheckedAt, service.since with
      | some before, some start =>
        if (before - start) / SIX_HOURS_MS < (snapshot.checkedAt - start) / SIX_HOURS_MS then
          some (.reminder (formatDuration (snapshot.checkedAt - start)))
        else none
      | _, _ => none

structure Message where
  service : ServiceId
  health : ServiceHealth
  headline : String
deriving DecidableEq

def headline (service : ServiceStatus) (reason : Reason) : String :=
  match service.health, reason with
  | .healthy, _ => s!"✅ {service.name} recovered"
  | .degraded, .reminder downFor => s!"🟡 {service.name} is still degraded ({downFor})"
  | .degraded, _ => s!"🟡 {service.name} is degraded"
  | .unhealthy, .reminder downFor => s!"🔴 {service.name} is still down ({downFor})"
  | .unhealthy, _ => s!"🔴 {service.name} is down"

def message (snapshot : StatusSnapshot) (service : ServiceStatus) : Option Message :=
  (reasonToPost service snapshot).map fun reason =>
    ⟨service.id, service.health, headline service reason⟩

def posts (snapshot : StatusSnapshot) : List Message :=
  snapshot.services.filterMap (message snapshot)

structure Workflow where
  checkedAt : Time
  probed : List ProbedService
  distinct : (probed.map (·.id)).Nodup
  fetches : Bool
  deploys : Bool

structure State where
  published : Option StatusSnapshot
  -- What was posted, a later run's messages before those of an earlier one.
  messages : List Message

def State.initial : State where
  published := none
  messages := []

def Workflow.snapshot (workflow : Workflow) (state : State) : StatusSnapshot :=
  snapshotOf (if workflow.fetches then state.published else none) workflow.checkedAt workflow.probed

def step (state : State) (workflow : Workflow) : Option State :=
  let snapshot := workflow.snapshot state
  some {
    published := if workflow.deploys then some snapshot else state.published
    messages := posts snapshot ++ state.messages }

def State.lastSaid (state : State) (id : ServiceId) : ServiceHealth :=
  ((state.messages.find? (·.service = id)).map (·.health)).getD .healthy

/-- A run that finds the service not healthy, when it was last said to be, posts about it. -/
def Announces (id : ServiceId) (state : State) (workflow : Workflow) : Prop :=
  ∀ service ∈ (workflow.snapshot state).services, service.id = id → service.health ≠ .healthy →
    state.lastSaid id = .healthy →
      ∃ message ∈ posts (workflow.snapshot state), message.service = id ∧ message.health = service.health

/-- A run that finds the service healthy, against a fetched snapshot in which it is not, deploys its own. -/
def RecoveryDeployed (id : ServiceId) (state : State) (workflow : Workflow) : Prop :=
  (∃ service ∈ workflow.probed, service.id = id ∧ service.health = .healthy) → workflow.fetches = true →
    (∃ service, state.published.bind (·.find id) = some service ∧ service.health ≠ .healthy) →
      workflow.deploys = true

def Remembers (id : ServiceId) (state : State) : Prop :=
  ∀ service, state.published.bind (·.find id) = some service → service.health ≠ .healthy →
    state.lastSaid id ≠ .healthy

theorem reasonToPost_silent {service : ServiceStatus} {snapshot : StatusSnapshot}
    (silent : reasonToPost service snapshot = none) (bad : service.health ≠ .healthy) :
    service.previousHealth = some service.health := by
  unfold reasonToPost at silent
  split at silent
  next => simp [bad] at silent
  next previousHealth known =>
    split at silent
    next => cases silent
    next same => rw [known, not_not.mp same]

theorem reasonToPost_recovered {service : ServiceStatus} {snapshot : StatusSnapshot} {reason : Reason}
    (posted : reasonToPost service snapshot = some reason) (good : service.health = .healthy) :
    ∃ health, service.previousHealth = some health ∧ health ≠ .healthy := by
  unfold reasonToPost at posted
  split at posted
  next => simp at posted; exact absurd good posted.1
  next previousHealth known =>
    split at posted
    next different => exact ⟨previousHealth, known, good ▸ different⟩
    next => simp at posted

theorem find_filterMap {services : List ServiceStatus} (distinct : (services.map (·.id)).Nodup)
    (speaks : ServiceStatus → Option Message) (about : ∀ service message, speaks service = some message →
      message.service = service.id) (id : ServiceId) :
    (services.filterMap speaks).find? (·.service = id) = (services.find? (·.id = id)).bind speaks := by
  induction services with
  | nil => rfl
  | cons service rest ih =>
    rw [List.map_cons, List.nodup_cons] at distinct
    obtain ⟨alone, distinct⟩ := distinct
    have later := ih distinct
    by_cases same : service.id = id
    next =>
      have absent : rest.find? (·.id = id) = none := by
        refine List.find?_eq_none.mpr fun other member => ?_
        rw [decide_eq_true_eq]
        rintro rfl
        exact alone (same ▸ List.mem_map_of_mem member)
      cases said : speaks service with
      | none => simp [said, same, later, absent]
      | some message =>
        have names : message.service = id := (about service message said).trans same
        simp [said, same, names]
    next =>
      cases said : speaks service with
      | none => simp [said, same, later]
      | some message =>
        have names : message.service ≠ id := about service message said ▸ same
        simp [said, same, names, later]

theorem Workflow.snapshot_distinct (workflow : Workflow) (state : State) :
    ((workflow.snapshot state).services.map (·.id)).Nodup := by
  have same : (workflow.snapshot state).services.map (·.id) = workflow.probed.map (·.id) := by
    simp [Workflow.snapshot, snapshotOf, withHistory, Function.comp_def]
  exact same ▸ workflow.distinct

theorem find_posts (workflow : Workflow) (state : State) (id : ServiceId) :
    (posts (workflow.snapshot state)).find? (·.service = id) =
      ((workflow.snapshot state).find id).bind (message (workflow.snapshot state)) := by
  refine find_filterMap (workflow.snapshot_distinct state) _ (fun service message said => ?_) id
  obtain ⟨reason, -, rfl⟩ := Option.map_eq_some_iff.mp said
  rfl

theorem lastSaid_step {state after : State} {workflow : Workflow}
    (taken : step state workflow = some after) (id : ServiceId) :
    after.lastSaid id = ((((workflow.snapshot state).find id).bind
      (message (workflow.snapshot state))).map (·.health)).getD (state.lastSaid id) := by
  obtain rfl := Option.some.inj taken
  simp only [State.lastSaid, List.find?_append, find_posts]
  cases ((workflow.snapshot state).find id).bind (message (workflow.snapshot state)) <;> rfl

theorem find_snapshot {state : State} {workflow : Workflow} {service : ServiceStatus} {id : ServiceId}
    (found : (workflow.snapshot state).find id = some service) :
    service.id = id ∧ (∃ probed ∈ workflow.probed, probed.id = id ∧ probed.health = service.health) ∧
      ∀ health, service.previousHealth = some health → workflow.fetches = true ∧
        ∃ before, state.published.bind (·.find id) = some before ∧ before.health = health := by
  have member := List.mem_of_find?_eq_some found
  have named : service.id = id := by simpa using List.find?_some found
  obtain ⟨probed, present, rfl⟩ := List.mem_map.mp member
  have probed_id : probed.id = id := named
  refine ⟨named, ⟨probed, present, probed_id, rfl⟩, fun health known => ?_⟩
  simp only [withHistory, probed_id, Option.map_eq_some_iff] at known
  cases fetches : workflow.fetches with
  | false => simp [fetches] at known
  | true => exact ⟨rfl, by simpa [fetches] using known⟩

theorem Remembers.step {id : ServiceId} {state after : State} {workflow : Workflow}
    (remembers : Remembers id state) (deployed : RecoveryDeployed id state workflow)
    (taken : StatusPage.step state workflow = some after) : Remembers id after := by
  intro service published bad
  rw [lastSaid_step taken]
  cases found : (workflow.snapshot state).find id with
  | none =>
    -- The run doesn't probe the service.
    obtain rfl := Option.some.inj taken
    cases deploys : workflow.deploys with
    | true => simp [deploys, found] at published
    | false =>
      simp only [deploys, Bool.false_eq_true, if_false] at published
      exact remembers service published bad
  | some current =>
    obtain ⟨named, probed, history⟩ := find_snapshot found
    obtain rfl := Option.some.inj taken
    by_cases good : current.health = .healthy
    next =>
      -- The published snapshot that has it not healthy is the one from before.
      have kept : workflow.deploys = false := by
        cases deploys : workflow.deploys with
        | false => rfl
        | true =>
          simp only [deploys, if_true, Option.bind_some, found, Option.some.injEq] at published
          exact absurd (published ▸ good) bad
      simp only [kept, Bool.false_eq_true, if_false] at published
      cases posted : reasonToPost current (workflow.snapshot state) with
      | none =>
        simp only [message, Option.bind_some, posted, Option.map_none, Option.getD_none]
        exact remembers service published bad
      | some reason =>
        obtain ⟨health, previous, was_bad⟩ := reasonToPost_recovered posted good
        obtain ⟨fetches, before, earlier, rfl⟩ := history health previous
        obtain ⟨service, present, same, healthy⟩ := probed
        have deploys := deployed ⟨service, present, same, healthy.trans good⟩ fetches
          ⟨before, earlier, was_bad⟩
        rw [kept] at deploys
        cases deploys
    next =>
      cases posted : reasonToPost current (workflow.snapshot state) with
      | none =>
        simp only [message, Option.bind_some, posted, Option.map_none, Option.getD_none]
        obtain ⟨-, before, earlier, same⟩ := history _ (reasonToPost_silent posted good)
        exact remembers before earlier (same ▸ good)
      | some reason =>
        simpa [message, posted] using good

theorem Remembers.announces {id : ServiceId} {state : State} (remembers : Remembers id state)
    (workflow : Workflow) : Announces id state workflow := by
  intro service member named bad said
  cases posted : reasonToPost service (workflow.snapshot state) with
  | none =>
    have found : (workflow.snapshot state).find id = some service :=
      named ▸ Tables.find?_of_mem (fun status : ServiceStatus => status.id) (workflow.snapshot_distinct state) member
    obtain ⟨-, -, history⟩ := find_snapshot found
    obtain ⟨-, before, earlier, same⟩ := history _ (reasonToPost_silent posted bad)
    exact absurd said (remembers before earlier (same ▸ bad))
  | some reason =>
    refine ⟨⟨service.id, service.health, headline service reason⟩, ?_, named, rfl⟩
    exact List.mem_filterMap.mpr ⟨service, member, by simp [message, posted]⟩

/-- Where every recovery that is posted is deployed, a run that finds the service not healthy, when it
was last said to be, posts about it. -/
theorem run_announces (id : ServiceId) {workflows : List Workflow} {state : State}
    (run : Run step (RecoveryDeployed id) State.initial workflows state) (workflow : Workflow) :
    Announces id state workflow := by
  have remembers : Remembers id state := by
    refine Run.always run (Remembers id) ?_ fun _ _ _ remembers deployed taken =>
      remembers.step deployed taken
    rintro service published
    cases published
  exact remembers.announces workflow

def probedOnce (health : CheckHealth) (checkedAt : Time) (deploys : Bool) : Workflow where
  checkedAt := checkedAt
  probed := [probeService "api-compile" "API compile" [health]]
  distinct := by simp
  fetches := true
  deploys := deploys

def lostRecovery : List Workflow :=
  [probedOnce .unhealthy 0 true, probedOnce .healthy 1800000 false]

theorem lost_recovery_hides_outage :
    ¬ ∀ id workflows state, Run step (fun _ _ => True) State.initial workflows state →
      ∀ workflow, Announces id state workflow := by
  intro announces
  have ran : (exec step (fun _ _ => true) State.initial lostRecovery).any (fun state =>
      state.lastSaid "api-compile" = .healthy &&
        (posts ((probedOnce .unhealthy 3600000 true).snapshot state) = [] &&
          ((probedOnce .unhealthy 3600000 true).snapshot state).services.any fun service =>
            service.id = "api-compile" && service.health = .unhealthy)) = true := by decide +kernel
  obtain ⟨state, reached, shown⟩ := exists_run_of_exec (fun _ _ _ => trivial) ran
  simp only [Bool.and_eq_true, decide_eq_true_eq, List.any_eq_true] at shown
  obtain ⟨said, silent, service, member, named, down⟩ := shown
  obtain ⟨message, posted, -⟩ := announces _ _ _ reached (probedOnce .unhealthy 3600000 true) service
    member named (by rw [down]; decide) said
  rw [silent] at posted
  cases posted

theorem second_outage_announced : ∃ state,
    Run step (RecoveryDeployed "api-compile") State.initial
        [probedOnce .unhealthy 0 true, probedOnce .healthy 1800000 true] state ∧
    Announces "api-compile" state (probedOnce .unhealthy 3600000 true) ∧
      state.lastSaid "api-compile" = .healthy := by
  have first : Run step (RecoveryDeployed "api-compile") State.initial [probedOnce .unhealthy 0 true] _ :=
    .snoc .nil (by rintro ⟨service, member, -, good⟩; simp_all [probedOnce]) rfl
  have second : Run step (RecoveryDeployed "api-compile") State.initial
      ([probedOnce .unhealthy 0 true] ++ [probedOnce .healthy 1800000 true]) _ :=
    .snoc first (fun _ _ _ => rfl) rfl
  exact ⟨_, second, run_announces "api-compile" second _, by decide +kernel⟩

end SourceVerification.StatusPage
