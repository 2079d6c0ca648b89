import SourceVerification.Submitting

set_option autoImplicit false

namespace SourceVerification.Backfill

open FetchWhileBusy (Response)
open Registry Resending Submitting

def MAX_RETRIES : Nat := 10

structure PendingPackage where
  id : RowId
  name : String
  commitment : Word
  entrypoint : Option String

def pendingPackage (row : PackageRow) : PendingPackage where
  id := row.id
  name := row.name
  commitment := row.commitment
  entrypoint := row.entrypoint

def isPending (row : PackageRow) : Bool :=
  row.type = .accountComponent && row.debugCommitment.isNone

def getPackagesWithoutDebugBuild (db : Database) : List PendingPackage :=
  ((db.packages.filter isPending).mergeSort fun first second =>
    decide (first.createdAt ≤ second.createdAt)).map pendingPackage

inductive Outcome
  | stored
  | skipped
  | failed
deriving DecidableEq

structure Report where
  outcome : Outcome
  detail : Option Json

def debugBuildJson (debugCommitment : Word) : Json :=
  .object [("debugCommitment", .string debugCommitment.text)]

section

variable (worded : Violation → String)

def debugBuild (attempt : Attempt) (commitment : Word) : Files → String → Except Error DebugBuild :=
  compileDebug commitment.text attempt.api
    (attempt.outage.map fun error => ⟨error.status, error.message⟩)

def serve (attempt : Attempt) (commitment : Word) (state : State) : Reply × State :=
  let (result, handled) := postDebugBuild attempt.api.parseToml attempt.faults state commitment.text
    (debugBuild attempt commitment) attempt.now
  attempt.deliver worded state (result.map debugBuildJson) handled

def server (commitment : Word) (attempts : Nat → Attempt) : Server State Reply where
  others place state := (attempts place).others.foldl State.serve state
  serve place := serve worded (attempts place) commitment
  response := Reply.response

-- `body?.error ?? …`
def errorOf (answer : PostAnswer) : Json :=
  match property "error" answer.body.read with
  | none | some .null => .string ("HTTP " ++ toString answer.status)
  | some error => error

def report : Reply → Report
  | .failed message => ⟨.failed, some (.string message)⟩
  | .answered answer =>
    if answer.ok then
      match answer.body.read with
      -- Reading the commitment of it throws.
      | none | some .null => ⟨.failed, none⟩
      | some data => ⟨.stored, property "debugCommitment" (some data)⟩
    else if answer.status = 409 ∨ answer.status = 422 then ⟨.skipped, some (errorOf answer)⟩
    else ⟨.failed, some (errorOf answer)⟩

def backfill (commitment : Word) (attempts : Nat → Attempt) (state : State) : Report × State :=
  let (reply, _, state) := sendWhileBusy (server worded commitment attempts) MAX_RETRIES state
  (report reply, state)

def run : List (PendingPackage × (Nat → Attempt)) → State → List Report × State
  | [], state => ([], state)
  | (dbPackage, attempts) :: rest, state =>
    let (report, state) := backfill worded dbPackage.commitment attempts state
    let (reports, state) := run rest state
    (report :: reports, state)

end

structure Summary where
  stored : Nat
  skipped : Nat
  failed : Nat

def Summary.count (summary : Summary) (report : Report) : Summary :=
  match report.outcome with
  | .stored => { summary with stored := summary.stored + 1 }
  | .skipped => { summary with skipped := summary.skipped + 1 }
  | .failed => { summary with failed := summary.failed + 1 }

def summaryOf (reports : List Report) : Summary :=
  reports.foldl Summary.count ⟨0, 0, 0⟩

def exitCode (reports : List Report) : Nat :=
  if (summaryOf reports).failed > 0 then 1 else 0

def DebugBuilt (db : Database) (commitment : Word) : Prop :=
  ∃ row ∈ db.packages, row.commitment = commitment ∧ row.debugCommitment.isSome

def Kept (db next : Database) : Prop :=
  ∀ row ∈ db.packages, ∃ later ∈ next.packages, later.commitment = row.commitment ∧
    later.type = row.type ∧ (row.debugCommitment.isSome → later.debugCommitment.isSome)

theorem Kept.refl (db : Database) : Kept db db :=
  fun row member => ⟨row, member, rfl, rfl, id⟩

theorem Kept.trans {db between next : Database} (first : Kept db between) (second : Kept between next) :
    Kept db next := by
  intro row member
  obtain ⟨later, listed, commitment, type, built⟩ := first row member
  obtain ⟨last, final, commitment', type', built'⟩ := second later listed
  exact ⟨last, final, commitment'.trans commitment, type'.trans type, fun had => built' (built had)⟩

theorem Kept.debugBuilt {db next : Database} (kept : Kept db next) {commitment : Word}
    (built : DebugBuilt db commitment) : DebugBuilt next commitment := by
  obtain ⟨row, member, rfl, had⟩ := built
  obtain ⟨later, listed, same, -, has⟩ := kept row member
  exact ⟨later, listed, same, has had⟩

theorem kept_of_subset {db next : Database} (stays : ∀ row ∈ db.packages, row ∈ next.packages) :
    Kept db next :=
  fun row member => ⟨row, stays row member, rfl, rfl, id⟩

theorem updatePackage_kept (db : Database) (id : RowId) {update : PackageRow → PackageRow}
    (commitment : ∀ row, (update row).commitment = row.commitment)
    (type : ∀ row, (update row).type = row.type)
    (built : ∀ row, row.debugCommitment.isSome → (update row).debugCommitment.isSome) :
    Kept db (db.updatePackage id update) := by
  intro row member
  refine ⟨if row.id = id then update row else row, List.mem_map_of_mem member, ?_⟩
  split
  next => exact ⟨commitment row, type row, built row⟩
  next => exact ⟨rfl, rfl, fun had => had⟩

theorem storeDebugBuild_kept (faults : Faults) (state : State) (packageId : RowId) (commitment : Word)
    (debug : Option DebugBuild) (now : Time) :
    Kept state.db (storeDebugBuild faults state packageId commitment debug now).2.db := by
  unfold storeDebugBuild
  split
  next => exact .refl _
  next => exact .refl _
  next =>
    dsimp only
    split_ifs
    · exact .refl _
    · exact .refl _
    · exact updatePackage_kept _ _ (fun _ => rfl) (fun _ => rfl) fun _ _ => rfl

theorem verifyResource_kept (faults : Faults) (state : State) (input : VerifyInput)
    (answer : Except Error VerifyResponse) (now : Time) :
    Kept state.db (Registry.verifyResource faults state input answer now).2.db := by
  rcases verifyResource_cases faults state input answer now with
    same | ⟨build, _, _, same | ⟨package, db, recorded, ended⟩⟩
  · rw [same]
    exact .refl _
  · rw [same]
    exact .refl _
  · have stays : Kept state.db db :=
      kept_of_subset fun row member => (recorded.packages_mem row).mpr (.inl member)
    rcases ended with same | same
    · rw [same]
      exact stays
    · rw [same]
      exact stays.trans (storeDebugBuild_kept faults { db := db, store := releaseStore state build } _ _ _ now)

theorem postDebugBuild_kept (parse : String → Option (List (String × Json))) (faults : Faults)
    (state : State) (commitment : String) (answer : Files → String → Except Error DebugBuild)
    (now : Time) : Kept state.db (postDebugBuild parse faults state commitment answer now).2.db := by
  rcases postDebugBuild_cases parse faults state commitment answer now with
    same | ⟨dbPackage, _, entrypoint, debug, next, _, _, stored, ended⟩
  · rw [same]
    exact .refl _
  · have built : Kept state.db next.db := stored ▸ storeDebugBuild_kept _ _ _ _ _ _
    rcases ended with same | ⟨_, same⟩
    · rw [same]
      exact built
    · rw [same]
      exact built.trans (updatePackage_kept _ _ (fun _ => rfl) (fun _ => rfl) fun _ had => had)

def NoCleanup : ServiceCall → Prop
  | .cleanup _ _ => False
  | .post _ | .debugBuild .. => True

theorem serve_kept {call : ServiceCall} (other : NoCleanup call) (state : State) :
    Kept state.db (state.serve call).db := by
  cases call with
  | post request =>
    unfold State.serve postVerified
    dsimp only
    split
    next => exact .refl _
    next =>
      split
      next => exact .refl _
      next => exact verifyResource_kept _ _ _ _ _
  | debugBuild => exact postDebugBuild_kept _ _ _ _ _ _
  | cleanup => exact other.elim

theorem serves_kept {calls : List ServiceCall} (others : ∀ call ∈ calls, NoCleanup call) (state : State) :
    Kept state.db (calls.foldl State.serve state).db := by
  induction calls generalizing state with
  | nil => exact .refl _
  | cons call rest ih =>
    have first := serve_kept (others call (List.mem_cons_self ..)) state
    exact first.trans (ih (fun other later => others other (List.mem_cons_of_mem _ later)) _)

theorem storeDebugBuild_answers (faults : Faults) (state : State) (dbPackage : PackageRow) (masp : Masp)
    (debugCommitment : Word) (cargoMidenVersion : Option String) (now : Time)
    (member : dbPackage ∈ state.db.packages) :
    ∃ next, (storeDebugBuild faults state dbPackage.id dbPackage.commitment
        (some (.built masp debugCommitment cargoMidenVersion)) now = (.error fault, next)) ∨
      (storeDebugBuild faults state dbPackage.id dbPackage.commitment
        (some (.built masp debugCommitment cargoMidenVersion)) now = (.ok true, next) ∧
        dbPackage.withDebug debugCommitment cargoMidenVersion now ∈ next.db.packages) := by
  unfold storeDebugBuild
  dsimp only
  split_ifs
  · exact ⟨_, .inl rfl⟩
  · exact ⟨_, .inl rfl⟩
  · refine ⟨_, .inr ⟨rfl, ?_⟩⟩
    exact List.mem_map.mpr ⟨dbPackage, member, if_pos rfl⟩

theorem postDebugBuild_answers (parse : String → Option (List (String × Json))) (faults : Faults)
    (state : State) (commitment : Word) (answer : Files → String → Except Error DebugBuild)
    (now : Time) :
    (∃ error, (postDebugBuild parse faults state commitment.text answer now).1 = .error error ∧
      ((postDebugBuild parse faults state commitment.text answer now).2 = state ∨ error = fault)) ∨
    ∃ debugCommitment,
      (postDebugBuild parse faults state commitment.text answer now).1 = .ok debugCommitment ∧
        DebugBuilt (postDebugBuild parse faults state commitment.text answer now).2.db commitment := by
  unfold postDebugBuild
  rw [parseRoot_text]
  dsimp only
  split
  next => exact .inl ⟨_, rfl, .inl rfl⟩
  next =>
    cases found : state.db.getPackage commitment with
    | none => exact .inl ⟨_, rfl, .inl rfl⟩
    | some dbPackage =>
      obtain ⟨member, rfl⟩ := getPackage_eq_some found
      dsimp only
      cases recorded : dbPackage.debugCommitment with
      | some debugCommitment => exact .inr ⟨_, rfl, dbPackage, member, rfl, by simp [recorded]⟩
      | none =>
        dsimp only
        split
        next => exact .inl ⟨_, rfl, .inl rfl⟩
        next entrypoint _ =>
          cases answer dbPackage.files entrypoint with
          | error error => exact .inl ⟨_, rfl, .inl rfl⟩
          | ok debug =>
            cases debug with
            | failed error => exact .inl ⟨_, rfl, .inl rfl⟩
            | built masp debugCommitment cargoMidenVersion =>
              obtain ⟨next, failed | ⟨stored, listed⟩⟩ := storeDebugBuild_answers faults state dbPackage
                masp debugCommitment cargoMidenVersion now member
              · simp only [failed]
                exact .inl ⟨_, rfl, .inr rfl⟩
              · simp only [stored]
                split_ifs
                · exact .inr ⟨_, rfl, _, listed, rfl, rfl⟩
                · exact .inl ⟨_, rfl, .inr rfl⟩
                · refine .inr ⟨_, rfl, ?_⟩
                  have placed : Kept next.db
                      (next.db.updatePackage dbPackage.id (·.withEntrypoint entrypoint now)) :=
                    updatePackage_kept _ _ (fun _ => rfl) (fun _ => rfl) fun _ had => had
                  exact placed.debugBuilt ⟨_, listed, rfl, rfl⟩

section

variable (worded : Violation → String) (commitment : Word) (attempts : Nat → Attempt)

theorem server_leaves : LeavesWhenBusy (server worded commitment attempts) := by
  intro place state busy
  refine deliver_busy worded (fun error failed unavailable => ?_) busy
  rcases postDebugBuild_answers (attempts place).api.parseToml (attempts place).faults state commitment
    (debugBuild (attempts place) commitment) (attempts place).now with
    ⟨other, answered, same | wrote⟩ | ⟨debugCommitment, answered, _⟩
  next => exact same
  next =>
    obtain rfl := Except.error.inj (answered.symm.trans (Results.map_eq_error.mp failed))
    rw [wrote] at unavailable
    cases unavailable
  next => cases answered.symm.trans (Results.map_eq_error.mp failed)

/-- No one cleans up meanwhile, and what answers in the registry's place answers an error. -/
structure Undeleted : Prop where
  others : ∀ place, ∀ call ∈ (attempts place).others, NoCleanup call
  turnedAway : ∀ place answer, (attempts place).delivery = .turnedAway answer → answer.ok = false

theorem report_stored {reply : Reply} (stored : (report reply).outcome = .stored) :
    ∃ answer, reply = .answered answer ∧ answer.ok = true := by
  cases reply with
  | failed message => cases stored
  | answered answer =>
    refine ⟨answer, rfl, ?_⟩
    by_contra refused
    simp only [report, refused, if_false] at stored
    split_ifs at stored

variable {attempts}

theorem serve_ends {attempt : Attempt} {state : State} (sound : Integrity state)
    (turned : ∀ answer, attempt.delivery = .turnedAway answer → answer.ok = false) :
    Kept state.db (serve worded attempt commitment state).2.db ∧
      Integrity (serve worded attempt commitment state).2 ∧
      ((report (serve worded attempt commitment state).1).outcome = .stored →
        DebugBuilt (serve worded attempt commitment state).2.db commitment) := by
  have kept := postDebugBuild_kept attempt.api.parseToml attempt.faults state commitment.text
    (debugBuild attempt commitment) attempt.now
  have keeps := postDebugBuild_integrity attempt.api.parseToml attempt.faults commitment.text
    (debugBuild attempt commitment) attempt.now sound
  have answers := postDebugBuild_answers attempt.api.parseToml attempt.faults state commitment
    (debugBuild attempt commitment) attempt.now
  unfold serve Attempt.deliver
  dsimp only
  cases delivery : attempt.delivery with
  | answered =>
    refine ⟨kept, keeps, fun stored => ?_⟩
    obtain ⟨answer, replied, ok⟩ := report_stored stored
    rcases answers with ⟨error, failed, _⟩ | ⟨debugCommitment, _, built⟩
    · rw [failed] at replied
      obtain rfl := Reply.answered.inj replied
      rw [Except.map, answerOf_error_ok] at ok
      cases ok
    · exact built
  | turnedAway answer =>
    refine ⟨.refl _, sound, fun stored => ?_⟩
    obtain ⟨other, replied, ok⟩ := report_stored stored
    obtain rfl := Reply.answered.inj replied
    rw [turned _ delivery] at ok
    cases ok
  | failed message handled =>
    cases handled with
    | false => exact ⟨.refl _, sound, fun stored => nomatch stored⟩
    | true => exact ⟨kept, keeps, fun stored => nomatch stored⟩

theorem backfill_ends (undeleted : Undeleted attempts) {state : State} (sound : Integrity state) :
    Kept state.db (backfill worded commitment attempts state).2.db ∧
      Integrity (backfill worded commitment attempts state).2 ∧
      ((backfill worded commitment attempts state).1.outcome = .stored →
        DebugBuilt (backfill worded commitment attempts state).2.db commitment) := by
  obtain ⟨last, isLast⟩ := exists_last (server worded commitment attempts) state MAX_RETRIES
  have others : ∀ place between, (Kept state.db between.db ∧ Integrity between) →
      Kept state.db ((server worded commitment attempts).others place between).db ∧
        Integrity ((server worded commitment attempts).others place between) :=
    fun place between holds => ⟨holds.1.trans (serves_kept (undeleted.others place) between),
      serves_integrity holds.2 _⟩
  obtain ⟨before, soundly⟩ := undisturbed_holds others ⟨.refl _, sound⟩ last
  obtain ⟨kept, keeps, built⟩ :=
    serve_ends worded commitment soundly (undeleted.turnedAway last)
  rw [backfill, isLast.sendWhileBusy (server_leaves worded commitment attempts)]
  exact ⟨before.trans kept, keeps, built⟩

end

section

variable (worded : Violation → String)

theorem run_length (work : List (PendingPackage × (Nat → Attempt))) (state : State) :
    (run worded work state).1.length = work.length := by
  induction work generalizing state with
  | nil => rfl
  | cons item rest ih => exact congrArg (· + 1) (ih _)

theorem run_ends {work : List (PendingPackage × (Nat → Attempt))}
    (undeleted : ∀ item ∈ work, Undeleted item.2) {state : State} (sound : Integrity state) :
    Kept state.db (run worded work state).2.db ∧ Integrity (run worded work state).2 ∧
      ∀ dbPackage report, (dbPackage, report) ∈ (work.map Prod.fst).zip (run worded work state).1 →
        report.outcome = .stored → DebugBuilt (run worded work state).2.db dbPackage.commitment := by
  induction work generalizing state with
  | nil => exact ⟨.refl _, sound, fun _ _ member => nomatch member⟩
  | cons item rest ih =>
    obtain ⟨dbPackage, attempts⟩ := item
    obtain ⟨kept, soundly, built⟩ := backfill_ends worded dbPackage.commitment
      (undeleted _ (List.mem_cons_self ..)) sound
    obtain ⟨later, keeps, others⟩ := ih (fun item member => undeleted item (List.mem_cons_of_mem _ member))
      soundly
    refine ⟨kept.trans later, keeps, ?_⟩
    intro other reported member stored
    rcases List.mem_cons.mp member with first | among
    · obtain ⟨rfl, rfl⟩ := Prod.mk.inj first
      exact later.debugBuilt (built stored)
    · exact others other reported among stored

end

theorem summary_counts (reports : List Report) (summary : Summary) :
    reports.foldl Summary.count summary =
      ⟨summary.stored + reports.countP (·.outcome = .stored),
        summary.skipped + reports.countP (·.outcome = .skipped),
        summary.failed + reports.countP (·.outcome = .failed)⟩ := by
  induction reports generalizing summary with
  | nil => rfl
  | cons report rest ih =>
    rw [List.foldl_cons, ih]
    unfold Summary.count
    cases outcome : report.outcome <;> simp [outcome, Nat.add_assoc, Nat.add_comm 1]

theorem summary_total (reports : List Report) :
    (summaryOf reports).stored + (summaryOf reports).skipped + (summaryOf reports).failed =
      reports.length := by
  rw [summaryOf, summary_counts]
  induction reports with
  | nil => rfl
  | cons report rest ih =>
    cases outcome : report.outcome <;> simp [outcome] at ih ⊢ <;> omega

theorem exitCode_eq_zero (reports : List Report) :
    exitCode reports = 0 ↔ ∀ report ∈ reports, report.outcome ≠ .failed := by
  simp [exitCode, summaryOf, summary_counts]

theorem mem_pending {db : Database} {row : PackageRow} (member : row ∈ db.packages)
    (pending : isPending row = true) : pendingPackage row ∈ getPackagesWithoutDebugBuild db :=
  List.mem_map_of_mem (List.mem_mergeSort.mpr (List.mem_filter.mpr ⟨member, pending⟩))

theorem isPending_iff {row : PackageRow} :
    isPending row = true ↔ row.type = .accountComponent ∧ row.debugCommitment = none := by
  simp [isPending]

theorem not_debugBuilt {db : Database} (sound : db.Sound) {row : PackageRow} (member : row ∈ db.packages)
    (pending : isPending row = true) : ¬ DebugBuilt db row.commitment := by
  rintro ⟨other, among, same, has⟩
  obtain rfl := List.inj_on_of_nodup_map sound.packageCommitments among member same
  simp [(isPending_iff.mp pending).2] at has

theorem Kept.isPending {db next : Database} (kept : Kept db next) (sound : next.Sound)
    {old row : PackageRow} (before : old ∈ db.packages) (member : row ∈ next.packages)
    (same : old.commitment = row.commitment) (pending : isPending row = true) :
    isPending old = true := by
  obtain ⟨later, among, equal, type, had⟩ := kept old before
  obtain rfl := List.inj_on_of_nodup_map sound.packageCommitments among member (equal.trans same)
  obtain ⟨component, none⟩ := isPending_iff.mp pending
  refine isPending_iff.mpr ⟨type ▸ component, ?_⟩
  by_contra some
  simpa [none] using had (Option.isSome_iff_ne_none.mpr some)

/-- What a run of the script leaves: every package it reports stored has its debug build, and what is
still to build afterwards it has reported, or is new. -/
theorem run_backfills (worded : Violation → String) (work : List (PendingPackage × (Nat → Attempt)))
    {start : State} (listed : work.map Prod.fst = getPackagesWithoutDebugBuild start.db)
    (sound : Integrity start) (undeleted : ∀ item ∈ work, Undeleted item.2) :
    let (reports, final) := run worded work start
    reports.length = work.length ∧
      (summaryOf reports).stored + (summaryOf reports).skipped + (summaryOf reports).failed =
        work.length ∧
      (exitCode reports = 0 ↔ ∀ report ∈ reports, report.outcome ≠ .failed) ∧
      Integrity final ∧
      (∀ dbPackage report, (dbPackage, report) ∈ (work.map Prod.fst).zip reports →
        report.outcome = .stored → DebugBuilt final.db dbPackage.commitment ∧
          (final.store.get dbPackage.commitment .debug).isSome) ∧
      ∀ row ∈ final.db.packages, isPending row = true →
        (∀ old ∈ start.db.packages, old.commitment ≠ row.commitment) ∨
        ∃ dbPackage report, (dbPackage, report) ∈ (work.map Prod.fst).zip reports ∧
          dbPackage.commitment = row.commitment ∧ report.outcome ≠ .stored := by
  obtain ⟨kept, keeps, built⟩ := run_ends worded undeleted sound
  have length := run_length worded work start
  dsimp only
  refine ⟨length, (summary_total _).trans length, exitCode_eq_zero _, keeps, ?_, ?_⟩
  · intro dbPackage report member stored
    obtain ⟨row, inside, same, has⟩ := built dbPackage report member stored
    exact ⟨⟨row, inside, same, has⟩, same ▸ keeps.debugged row inside has⟩
  · intro row inside pending
    by_cases known : ∃ old ∈ start.db.packages, old.commitment = row.commitment
    next =>
      right
      obtain ⟨old, before, same⟩ := known
      have unbuilt := not_debugBuilt keeps.toSound inside pending
      have todo := kept.isPending keeps.toSound before inside same pending
      have wanted : pendingPackage old ∈ work.map Prod.fst := listed ▸ mem_pending before todo
      have within : (work.map Prod.fst).length ≤ (run worded work start).1.length := by
        rw [List.length_map, length]
      rw [← List.map_fst_zip within] at wanted
      obtain ⟨⟨dbPackage, report⟩, zipped, rfl⟩ := List.mem_map.mp wanted
      refine ⟨_, report, zipped, same, fun stored => unbuilt ?_⟩
      exact same ▸ built _ _ zipped stored
    next =>
      left
      intro old before same
      exact known ⟨old, before, same⟩

def counterStored : State :=
  serveAll [.post (counterPost Compile.counterAccountId)]

def debugBuilt : Compile.Compiled :=
  { Compile.counterCompiled with debug := some (.built [2] Compile.counterRoot none) }

def builtAttempt (_ : Nat) : Attempt where
  others := []
  api := { Compile.counterApi with queueCompile := fun _ _ => .ok (.built debugBuilt) }
  outage := none
  faults _ := false
  now := 1
  delivery := .answered

def counterWork : List (PendingPackage × (Nat → Attempt)) :=
  (getPackagesWithoutDebugBuild counterStored.db).map fun dbPackage => (dbPackage, builtAttempt)

theorem counter_backfilled :
    (run unworded counterWork counterStored).1.map (·.outcome) = [.stored] ∧
      exitCode (run unworded counterWork counterStored).1 = 0 ∧
      ∀ row ∈ (run unworded counterWork counterStored).2.db.packages, isPending row = false := by
  have undeleted : ∀ item ∈ counterWork, Undeleted item.2 := by
    intro item member
    obtain ⟨dbPackage, _, rfl⟩ := List.mem_map.mp member
    exact ⟨fun _ _ nothing => (nomatch nothing), fun _ _ turned => nomatch turned⟩
  have listed : counterWork.map Prod.fst = getPackagesWithoutDebugBuild counterStored.db := by
    rw [counterWork, List.map_map]
    exact List.map_id _
  obtain ⟨_, _, zero, _, _, rest⟩ := run_backfills unworded counterWork listed
    (serves_integrity integrity_empty _) undeleted
  have stored : (run unworded counterWork counterStored).1.map (·.outcome) = [.stored] := by
    decide +kernel
  have all : ∀ report ∈ (run unworded counterWork counterStored).1, report.outcome = .stored := by
    intro report member
    have mapped : report.outcome ∈ [Outcome.stored] := stored ▸ List.mem_map_of_mem member
    exact List.mem_singleton.mp mapped
  refine ⟨stored, zero.mpr fun report member failed => ?_, fun row member => ?_⟩
  · cases (all report member).symm.trans failed
  · by_contra pending
    rcases rest row member (by simpa using pending) with new | ⟨_, report, zipped, _, other⟩
    · have known : ∀ later ∈ (run unworded counterWork counterStored).2.db.packages,
          ∃ old ∈ counterStored.db.packages, old.commitment = later.commitment := by
        decide +kernel
      obtain ⟨old, before, same⟩ := known row member
      exact new old before same
    · exact other (all report (List.of_mem_zip zipped).2)

end SourceVerification.Backfill
