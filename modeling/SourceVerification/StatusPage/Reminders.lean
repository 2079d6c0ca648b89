import SourceVerification.StatusPage.Notify

set_option autoImplicit false

namespace SourceVerification.StatusPage

/-- The runs of the workflow, each with the state it starts in. -/
def runsFrom (state : State) : List Workflow → List (State × Workflow)
  | [] => []
  | workflow :: rest => (state, workflow) :: (step state workflow).elim [] (runsFrom · rest)

/-- The run reads the snapshot of the last one, and its own is read by the next. -/
def Chained (workflow : Workflow) : Prop :=
  workflow.fetches = true ∧ workflow.deploys = true

def Workflow.Finds (id : ServiceId) (health : ServiceHealth) (workflow : Workflow) : Prop :=
  ∃ service ∈ workflow.probed, service.id = id ∧ service.health = health

/-- The time is after that of the run before and not after that of this one. -/
def Covers (run : State × Workflow) (time : Time) : Prop :=
  (∀ snapshot, run.1.published = some snapshot → snapshot.checkedAt < time) ∧ time ≤ run.2.checkedAt

/-- A positive multiple of six hours after `since`. -/
def Boundary (since time : Time) : Prop :=
  ∃ count : Nat, 0 < count ∧ time = since + count * SIX_HOURS_MS

def written (run : State × Workflow) : StatusSnapshot :=
  run.2.snapshot run.1

def SinceAt (id : ServiceId) (since : Time) (run : State × Workflow) : Prop :=
  ∃ service, (written run).find id = some service ∧ service.since = some since

def Reminds (id : ServiceId) (run : State × Workflow) : Prop :=
  ∃ service downFor, (written run).find id = some service ∧
    reasonToPost service (written run) = some (.reminder downFor)

def postsAbout (id : ServiceId) (run : State × Workflow) : List Message :=
  (posts (written run)).filter (·.service = id)

theorem multiple_passed_iff {period start before now : Int} (positive : 0 < period)
    (started : start ≤ before) :
    (before - start) / period < (now - start) / period ↔
      ∃ count : Nat, 0 < count ∧ before < start + count * period ∧ start + count * period ≤ now := by
  constructor
  next =>
    intro crossed
    have whole : 0 ≤ (before - start) / period := Int.ediv_nonneg (by omega) (by omega)
    have count : (((now - start) / period).toNat : Int) = (now - start) / period :=
      Int.toNat_of_nonneg (by omega)
    have above : before - start < (now - start) / period * period :=
      (Int.ediv_lt_iff_lt_mul positive).mp crossed
    have below : (now - start) / period * period ≤ now - start :=
      Int.ediv_mul_le _ (by omega)
    refine ⟨((now - start) / period).toNat, by omega, ?_, ?_⟩ <;> rw [count] <;> omega
  next =>
    rintro ⟨count, -, after, reached⟩
    have above : (before - start) / period < count := Int.ediv_lt_of_lt_mul positive (by omega)
    have below : (count : Int) ≤ (now - start) / period := Int.le_ediv_of_mul_le positive (by omega)
    omega

theorem find_written {id : ServiceId} {health : ServiceHealth} {run : State × Workflow}
    (found : run.2.Finds id health) :
    ∃ probed : ProbedService, probed.health = health ∧ probed.id = id ∧ (written run).find id =
      some (withHistory (if run.2.fetches then run.1.published else none) run.2.checkedAt probed) := by
  obtain ⟨probed, member, named, same⟩ := found
  have listed : withHistory (if run.2.fetches then run.1.published else none) run.2.checkedAt probed ∈
      (written run).services := List.mem_map_of_mem member
  have unique := Tables.find?_of_mem (fun status : ServiceStatus => status.id)
    (run.2.snapshot_distinct run.1) listed
  exact ⟨probed, same, named, named ▸ unique⟩

theorem postsAbout_eq (id : ServiceId) (run : State × Workflow) :
    postsAbout id run = (((written run).find id).bind (message (written run))).toList := by
  have about : ∀ service : ServiceStatus, (message (written run) service).filter (·.service = id) =
      if service.id = id then message (written run) service else none := by
    intro service
    unfold message
    cases reasonToPost service (written run) with
    | none => simp
    | some reason => by_cases same : service.id = id <;> simp [same]
  have alone := Tables.filter_key_eq (fun status : ServiceStatus => status.id)
    (run.2.snapshot_distinct run.1) id
  have filtered : postsAbout id run =
      ((written run).services.filter (·.id = id)).filterMap (message (written run)) := by
    simp [postsAbout, posts, List.filter_filterMap, List.filterMap_filter, about]
  rw [filtered, written, alone, StatusSnapshot.find]
  cases (run.2.snapshot run.1).services.find? (·.id = id) with
  | none => rfl
  | some service => cases said : message (run.2.snapshot run.1) service <;> simp [said]

/-- The snapshot published last, of that time, has the service in that health since that other time. -/
def Stands (id : ServiceId) (health : ServiceHealth) (since time : Time) (state : State) : Prop :=
  ∃ snapshot service, state.published = some snapshot ∧ snapshot.checkedAt = time ∧
    snapshot.find id = some service ∧ service.health = health ∧ service.since = some since

theorem Stands.wrote {id : ServiceId} {health : ServiceHealth} {since time : Time} (run : State × Workflow)
    (stands : Stands id health since time run.1) (chained : Chained run.2) (found : run.2.Finds id health) :
    (written run).previousCheckedAt = some time ∧
      ∃ service, (written run).find id = some service ∧ service.health = health ∧
        service.since = some since ∧ service.previousHealth = some health := by
  obtain ⟨snapshot, before, published, rfl, listed, same, started⟩ := stands
  obtain ⟨probed, finds, named, current⟩ := find_written found
  simp only [chained.1, if_true, published] at current
  constructor
  next => simp [written, Workflow.snapshot, snapshotOf, chained.1, published]
  next =>
    refine ⟨_, current, finds, ?_, ?_⟩ <;>
      simp [withHistory, named, listed, same, finds, started]

theorem Stands.kept {id : ServiceId} {health : ServiceHealth} {since time : Time} {state after : State}
    {workflow : Workflow} (stands : Stands id health since time state) (chained : Chained workflow)
    (found : workflow.Finds id health) (taken : step state workflow = some after) :
    Stands id health since workflow.checkedAt after := by
  obtain ⟨-, service, current, same, started, -⟩ := stands.wrote (state, workflow) chained found
  obtain rfl := Option.some.inj taken
  exact ⟨workflow.snapshot state, service, by simp [chained.2], rfl, current, same, started⟩

structure OnSchedule (id : ServiceId) (since : Time) (run : State × Workflow) : Prop where
  dated : SinceAt id since run
  reminds : Reminds id run ↔ ∃ time, Boundary since time ∧ Covers run time
  silent : ¬ Reminds id run → postsAbout id run = []

theorem Stands.onSchedule {id : ServiceId} {health : ServiceHealth} {since time : Time} (run : State × Workflow)
    (stands : Stands id health since time run.1) (bad : health ≠ .healthy) (chained : Chained run.2)
    (found : run.2.Finds id health) (began : since ≤ time) : OnSchedule id since run := by
  obtain ⟨previous, service, current, same, started, known⟩ := stands.wrote run chained found
  have checked : (written run).checkedAt = run.2.checkedAt := rfl
  have covers : ∀ boundary, Covers run boundary ↔ time < boundary ∧ boundary ≤ run.2.checkedAt := by
    obtain ⟨snapshot, -, published, rfl, -⟩ := stands
    simp [Covers, published]
  have due : reasonToPost service (written run) =
      if (time - since) / SIX_HOURS_MS < (run.2.checkedAt - since) / SIX_HOURS_MS then
        some (.reminder (formatDuration (run.2.checkedAt - since)))
      else none := by
    simp only [reasonToPost, known, same, started, previous, checked, bad, ne_eq, not_true_eq_false, if_false]
  have reminds : Reminds id run ↔
      (time - since) / SIX_HOURS_MS < (run.2.checkedAt - since) / SIX_HOURS_MS := by
    simp [Reminds, current, due]
  refine ⟨⟨service, current, started⟩, ?_, fun undue => ?_⟩
  next =>
    rw [reminds, multiple_passed_iff (by decide) began]
    simp [Boundary, covers]
  next =>
    rw [reminds] at undue
    simp [postsAbout_eq, current, message, due, undue]

theorem runsFrom_onSchedule {id : ServiceId} {health : ServiceHealth} {since time : Time} {state : State}
    {workflows : List Workflow} (bad : health ≠ .healthy) (stands : Stands id health since time state)
    (began : since ≤ time) (chained : ∀ workflow ∈ workflows, Chained workflow)
    (stays : ∀ workflow ∈ workflows, workflow.Finds id health)
    (after : ∀ workflow ∈ workflows, time < workflow.checkedAt)
    (increasing : workflows.Pairwise (·.checkedAt < ·.checkedAt)) :
    ∀ run ∈ runsFrom state workflows, OnSchedule id since run := by
  induction workflows generalizing state time with
  | nil => simp [runsFrom]
  | cons workflow rest ih =>
    simp only [List.forall_mem_cons] at chained stays after
    have ⟨later, increasing⟩ := List.pairwise_cons.mp increasing
    intro run member
    rcases List.mem_cons.mp member with rfl | member
    next => exact stands.onSchedule _ bad chained.1 stays.1 began
    next =>
      have next := stands.kept chained.1 stays.1 (rfl : step state workflow = some _)
      exact ih next (Int.le_trans began (Int.le_of_lt after.1)) chained.2 stays.2 later increasing run member

theorem published_of_deploys {state after : State} {workflow : Workflow} (chained : Chained workflow)
    (taken : step state workflow = some after) : after.published = some (workflow.snapshot state) := by
  obtain rfl := Option.some.inj taken
  simp [chained.2]

theorem not_covered_later {time : Time} {state : State} {workflows : List Workflow} {snapshot : StatusSnapshot}
    (published : state.published = some snapshot) (passed : time ≤ snapshot.checkedAt)
    (chained : ∀ workflow ∈ workflows, Chained workflow)
    (after : ∀ workflow ∈ workflows, snapshot.checkedAt < workflow.checkedAt)
    (increasing : workflows.Pairwise (·.checkedAt < ·.checkedAt)) :
    ∀ run ∈ runsFrom state workflows, ¬ Covers run time := by
  induction workflows generalizing state snapshot with
  | nil => simp [runsFrom]
  | cons workflow rest ih =>
    simp only [List.forall_mem_cons] at chained after
    have ⟨later, increasing⟩ := List.pairwise_cons.mp increasing
    intro run member
    rcases List.mem_cons.mp member with rfl | member
    next => exact fun covers => absurd (covers.1 snapshot published) (Int.not_lt.mpr passed)
    next =>
      have next := published_of_deploys chained.1 (rfl : step state workflow = some _)
      exact ih next (Int.le_trans passed (Int.le_of_lt after.1)) chained.2 later increasing run member

theorem covered_once {time : Time} {state : State} {workflows : List Workflow}
    (before : ∀ snapshot, state.published = some snapshot → snapshot.checkedAt < time)
    (chained : ∀ workflow ∈ workflows, Chained workflow)
    (increasing : workflows.Pairwise (·.checkedAt < ·.checkedAt))
    (reached : ∃ workflow ∈ workflows, time ≤ workflow.checkedAt) :
    ∃ earlier run later, runsFrom state workflows = earlier ++ run :: later ∧ Covers run time ∧
      ∀ other ∈ earlier ++ later, ¬ Covers other time := by
  induction workflows generalizing state with
  | nil => simp at reached
  | cons workflow rest ih =>
    simp only [List.forall_mem_cons] at chained
    have ⟨ahead, increasing⟩ := List.pairwise_cons.mp increasing
    have published := published_of_deploys chained.1 (rfl : step state workflow = some _)
    by_cases passed : time ≤ workflow.checkedAt
    next =>
      exact ⟨[], (state, workflow), _, rfl, ⟨before, passed⟩,
        not_covered_later published passed chained.2 ahead increasing⟩
    next =>
      have still : ∃ workflow ∈ rest, time ≤ workflow.checkedAt := by
        simpa [passed] using reached
      have next : ∀ snapshot, some (workflow.snapshot state) = some snapshot → snapshot.checkedAt < time := by
        simpa [Workflow.snapshot, snapshotOf] using passed
      obtain ⟨earlier, run, later, split, covers, others⟩ := ih (published ▸ next) chained.2 increasing still
      refine ⟨(state, workflow) :: earlier, run, later, congrArg (_ :: ·) split, covers, ?_⟩
      rw [List.cons_append, List.forall_mem_cons]
      exact ⟨fun covers => passed covers.2, others⟩

theorem first_of_stretch {id : ServiceId} {health : ServiceHealth} (run : State × Workflow)
    (bad : health ≠ .healthy) (chained : Chained run.2) (found : run.2.Finds id health)
    (starts : ∀ service, run.1.published.bind (·.find id) = some service → service.health ≠ health) :
    ∃ service, (written run).find id = some service ∧ service.health = health ∧
      service.since = some run.2.checkedAt ∧
      ∃ reason, reasonToPost service (written run) = some reason ∧ ∀ downFor, reason ≠ .reminder downFor := by
  obtain ⟨probed, finds, rfl, current⟩ := find_written found
  simp only [chained.1, if_true] at current
  have known : (withHistory run.1.published run.2.checkedAt probed).previousHealth =
      (run.1.published.bind (·.find probed.id)).map (·.health) := rfl
  cases before : run.1.published.bind (·.find probed.id) with
  | none =>
    refine ⟨_, current, finds, by simp [withHistory, before], .firstSighting, ?_, by simp⟩
    simp only [reasonToPost, known, before, Option.map_none]
    exact if_neg (finds ▸ bad)
  | some service =>
    have different : service.health ≠ probed.health := finds ▸ starts service before
    refine ⟨_, current, finds, by simp [withHistory, before, different], .changed, ?_, by simp⟩
    simp only [reasonToPost, known, before, Option.map_some]
    exact if_pos different

theorem lt_of_boundary {since time : Time} (boundary : Boundary since time) : since < time := by
  obtain ⟨count, positive, rfl⟩ := boundary
  have passed : 0 < (count : Int) * SIX_HOURS_MS := Int.mul_pos (Int.natCast_pos.mpr positive) (by decide)
  exact Int.lt_add_of_pos_right _ passed

/-- While a service stays in one health that isn't healthy, it is since the first run that found it so,
and the runs that remind of it are those since whose predecessor a multiple of six hours has passed. -/
theorem reminders_at_boundaries (id : ServiceId) (health : ServiceHealth) (bad : health ≠ .healthy)
    (state : State) (first : Workflow) (later : List Workflow)
    (chained : ∀ workflow ∈ first :: later, Chained workflow)
    (increasing : (first :: later).Pairwise (·.checkedAt < ·.checkedAt))
    (starts : ∀ service, state.published.bind (·.find id) = some service → service.health ≠ health)
    (stays : ∀ workflow ∈ first :: later, workflow.Finds id health) :
    (∀ run ∈ runsFrom state (first :: later), SinceAt id first.checkedAt run ∧
      (Reminds id run ↔ ∃ time, Boundary first.checkedAt time ∧ Covers run time) ∧
        (postsAbout id run).length ≤ 1) ∧
    (∀ run ∈ (runsFrom state (first :: later)).tail, ¬ Reminds id run → postsAbout id run = []) ∧
    ∀ time, Boundary first.checkedAt time → (∃ workflow ∈ first :: later, time ≤ workflow.checkedAt) →
      ∃ earlier run others, runsFrom state (first :: later) = earlier ++ run :: others ∧ Reminds id run ∧
        Covers run time ∧ ∀ other ∈ earlier ++ others, ¬ Covers other time := by
  have once : ∀ run, (postsAbout id run).length ≤ 1 := by
    intro run
    rw [postsAbout_eq]
    cases ((written run).find id).bind (message (written run)) <;> simp
  simp only [List.forall_mem_cons] at chained stays
  have ⟨ahead, increasing⟩ := List.pairwise_cons.mp increasing
  obtain ⟨service, current, same, dated, reason, said, announces⟩ :=
    first_of_stretch (state, first) bad chained.1 stays.1 starts
  have published := published_of_deploys chained.1 (rfl : step state first = some _)
  have schedule := runsFrom_onSchedule bad ⟨_, service, published, rfl, current, same, dated⟩
    (Int.le_refl _) chained.2 stays.2 ahead increasing
  have unreminded : ¬ Reminds id (state, first) := by
    rintro ⟨other, downFor, found, due⟩
    obtain rfl := Option.some.inj (current.symm.trans found)
    exact announces downFor (Option.some.inj (said.symm.trans due))
  refine ⟨?_, fun run member => (schedule run member).silent, fun time boundary reached => ?_⟩
  next =>
    intro run member
    rcases List.mem_cons.mp member with rfl | member
    next =>
      have uncovered : ¬ ∃ time, Boundary first.checkedAt time ∧ Covers (state, first) time :=
        fun ⟨_, boundary, covers⟩ => Int.not_le.mpr (lt_of_boundary boundary) covers.2
      exact ⟨⟨service, current, dated⟩, iff_of_false unreminded uncovered, once _⟩
    next => exact ⟨(schedule run member).dated, (schedule run member).reminds, once _⟩
  next =>
    have after := lt_of_boundary boundary
    have later_reached : ∃ workflow ∈ later, time ≤ workflow.checkedAt := by
      simpa [Int.not_le.mpr after] using reached
    have before : ∀ snapshot, some (first.snapshot state) = some snapshot → snapshot.checkedAt < time := by
      simpa [Workflow.snapshot, snapshotOf] using after
    obtain ⟨earlier, run, others, split, covers, alone⟩ :=
      covered_once (published ▸ before) chained.2 increasing later_reached
    have member : run ∈ earlier ++ run :: others := by simp
    refine ⟨(state, first) :: earlier, run, others, congrArg (_ :: ·) split,
      (schedule run (split ▸ member)).reminds.mpr ⟨time, boundary, covers⟩, covers, ?_⟩
    rw [List.cons_append, List.forall_mem_cons]
    exact ⟨fun covers => Int.not_le.mpr after covers.2, alone⟩

theorem skipped_boundaries_reminded_once :
    ∃ run ∈ runsFrom State.initial [probedOnce .unhealthy 0 true, probedOnce .unhealthy 3600000 true,
      probedOnce .unhealthy 50400000 true], Reminds "api-compile" run := by
  have chained : ∀ workflow ∈ [probedOnce .unhealthy 0 true, probedOnce .unhealthy 3600000 true,
      probedOnce .unhealthy 50400000 true], Chained workflow := by
    simp [Chained, probedOnce]
  have stays : ∀ workflow ∈ [probedOnce .unhealthy 0 true, probedOnce .unhealthy 3600000 true,
      probedOnce .unhealthy 50400000 true], workflow.Finds "api-compile" .unhealthy := by
    simp [Workflow.Finds, probedOnce, probeService, rollUp]
  obtain ⟨-, -, covered⟩ := reminders_at_boundaries "api-compile" .unhealthy (by decide) State.initial _ _
    chained (by simp [probedOnce]) (by simp [State.initial]) stays
  obtain ⟨earlier, run, others, split, reminds, -⟩ := covered 43200000 ⟨2, by decide, rfl⟩
    ⟨probedOnce .unhealthy 50400000 true, by simp, by decide⟩
  exact ⟨run, by simp [split], reminds⟩

end SourceVerification.StatusPage
