import SourceVerification.Concurrent.Artifacts

set_option autoImplicit false

namespace SourceVerification.Concurrent

open Registry Versions Runs Compile

def State.Served (state : State) (file : String) (masp : Masp) : Prop :=
  ∃ q download, state.calls q = some (.download file (.ended (.ok download))) ∧ download.masp = masp

/-- Whatever was answered at the path of a release artifact is the same bytes. -/
def StableDownloads (state : State) : Prop :=
  ∀ file commitment, parseMaspKey file = some (commitment, .release) →
    ∀ a b, state.Served file a → state.Served file b → a = b

/-- An artifact written over one that was downloaded has its bytes. -/
def KeepsServed (state : State) : Action → Prop
  | .advance p => ∀ input build, state.calls p = some (.verify input (.storing build)) →
      ∀ file masp, parseMaspKey file = some (build.commitment, .release) → state.Served file masp →
        build.masp = masp
  | _ => True

structure Stable (state : State) : Prop where
  answers : ∀ commitment file other a b, parseMaspKey file = some (commitment, .release) →
    parseMaspKey other = some (commitment, .release) → state.Served file a → state.Served other b → a = b
  stored : ∀ commitment file a b, parseMaspKey file = some (commitment, .release) →
    state.Served file a → state.world.store.get commitment .release = some b → b = a
  getting : ∀ q file commitment variant dbPackage,
    state.calls q = some (.download file (.getting commitment variant dbPackage)) →
    parseMaspKey file = some (commitment, variant)

theorem DownloadPc.getting_of_next {world : World} {file : String} {pc : DownloadPc} {effect : Effect}
    {commitment : Word} {variant : MaspVariant} {dbPackage : Option PackageRow}
    (taken : pc.next world file = some (effect, .getting commitment variant dbPackage)) :
    parseMaspKey file = some (commitment, variant) := by
  cases pc with
  | reading =>
    cases parsed : parseMaspKey file with
    | none => simp [DownloadPc.next, parsed] at taken
    | some key =>
      simp only [DownloadPc.next, parsed] at taken
      split_ifs at taken
      · cases taken
      · cases taken
        rfl
  | getting commitment variant dbPackage =>
    simp only [DownloadPc.next] at taken
    split at taken <;> cases taken
  | ended answer => cases taken

theorem DownloadPc.ended_of_next {world : World} {file : String} {pc : DownloadPc} {effect : Effect}
    {download : Download} (taken : pc.next world file = some (effect, .ended (.ok download))) :
    ∃ commitment variant dbPackage, pc = .getting commitment variant dbPackage ∧
      world.store.get commitment variant = some download.masp := by
  cases pc with
  | reading =>
    cases parsed : parseMaspKey file with
    | none => simp [DownloadPc.next, parsed] at taken
    | some key =>
      simp only [DownloadPc.next, parsed] at taken
      split_ifs at taken <;> cases taken
  | getting commitment variant dbPackage =>
    refine ⟨commitment, variant, dbPackage, rfl, ?_⟩
    simp only [DownloadPc.next] at taken
    split at taken
    · cases taken
    · rename_i masp stored
      cases taken
      exact stored
  | ended answer => cases taken

theorem served_take {state : State} {p : Pid} {effect : Effect} {after : Call} {file : String}
    {masp : Masp} (served : (state.take p effect after).Served file masp) :
    state.Served file masp ∨
      ∃ download, after = .download file (.ended (.ok download)) ∧ download.masp = masp := by
  obtain ⟨q, download, answered, same⟩ := served
  by_cases own : q = p
  · rw [own, take_calls_self] at answered
    exact .inr ⟨download, Option.some.inj answered, same⟩
  · rw [take_calls_other _ _ _ _ own] at answered
    exact .inl ⟨q, download, answered, same⟩

theorem Stable.other {state : State} {p : Pid} {effect : Effect} {after : Call} (stable : Stable state)
    (unanswered : ∀ file download, after ≠ .download file (.ended (.ok download)))
    (elsewhere : ∀ file commitment variant dbPackage,
      after ≠ .download file (.getting commitment variant dbPackage))
    (stored : ∀ commitment file a b, parseMaspKey file = some (commitment, .release) →
      state.Served file a → (effect.apply p state.world).store.get commitment .release = some b →
      b = a) :
    Stable (state.take p effect after) := by
  have kept : ∀ {file masp}, (state.take p effect after).Served file masp → state.Served file masp := by
    intro file masp served
    rcases served_take served with old | ⟨download, same, _⟩
    · exact old
    · exact absurd same (unanswered _ _)
  constructor
  · intro commitment file other a b parsed otherParsed served otherServed
    exact stable.answers commitment file other a b parsed otherParsed (kept served) (kept otherServed)
  · intro commitment file a b parsed served
    exact stored commitment file a b parsed (kept served)
  · intro q file commitment variant dbPackage called
    by_cases own : q = p
    · rw [own, take_calls_self] at called
      exact absurd (Option.some.inj called) (elsewhere _ _ _ _)
    · rw [take_calls_other _ _ _ _ own] at called
      exact stable.getting q file commitment variant dbPackage called

theorem Stable.download {state : State} {p : Pid} {file : String} {pc after : DownloadPc}
    (stable : Stable state) (called : state.calls p = some (.download file pc))
    (taken : pc.next state.world file = some (.idle, after)) :
    Stable (state.take p .idle (.download file after)) := by
  -- A new answer is what the store has, and that is what was answered before.
  have fresh : ∀ {path masp}, (state.take p .idle (.download file after)).Served path masp →
      state.Served path masp ∨ (path = file ∧ ∃ commitment variant,
        parseMaspKey file = some (commitment, variant) ∧
          state.world.store.get commitment variant = some masp) := by
    intro path masp served
    rcases served_take served with old | ⟨download, same, rfl⟩
    · exact .inl old
    · obtain ⟨rfl, rfl⟩ := Call.download.inj same
      obtain ⟨commitment, variant, dbPackage, rfl, stored⟩ := DownloadPc.ended_of_next taken
      exact .inr ⟨rfl, commitment, variant, stable.getting p _ _ _ _ called, stored⟩
  have bytes : ∀ {commitment path masp}, parseMaspKey path = some (commitment, .release) →
      (state.take p .idle (.download file after)).Served path masp →
      state.Served path masp ∨ state.world.store.get commitment .release = some masp := by
    intro commitment path masp parsed served
    rcases fresh served with old | ⟨rfl, other, variant, otherParsed, stored⟩
    · exact .inl old
    · obtain ⟨rfl, rfl⟩ := Prod.mk.inj (Option.some.inj (parsed.symm.trans otherParsed))
      exact .inr stored
  constructor
  · intro commitment path other a b parsed otherParsed served otherServed
    rcases bytes parsed served with old | stored
    · rcases bytes otherParsed otherServed with otherOld | otherStored
      · exact stable.answers commitment path other a b parsed otherParsed old otherOld
      · exact (stable.stored commitment path a b parsed old otherStored).symm
    · rcases bytes otherParsed otherServed with otherOld | otherStored
      · exact stable.stored commitment other b a otherParsed otherOld stored
      · exact Option.some.inj (stored.symm.trans otherStored)
  · intro commitment path a b parsed served here
    rcases bytes parsed served with old | stored
    · exact stable.stored commitment path a b parsed old here
    · exact Option.some.inj (here.symm.trans stored)
  · intro q path commitment variant dbPackage getting
    by_cases own : q = p
    · rw [own, take_calls_self] at getting
      obtain ⟨rfl, rfl⟩ := Call.download.inj (Option.some.inj getting)
      exact DownloadPc.getting_of_next taken
    · rw [take_calls_other _ _ _ _ own] at getting
      exact stable.getting q path commitment variant dbPackage getting

theorem Stable.step {state next : State} {action : Action} (stable : Stable state)
    (keeps : KeepsServed state action) (taken : step state action = some next) : Stable next := by
  cases step_cases taken with
  | starts fresh =>
    rename_i p request
    refine stable.other ?_ ?_ stable.stored <;> cases request <;> simp [Request.begin]
  | answered called =>
    rename_i p input answer
    exact stable.other (by simp) (by simp) stable.stored
  | fails called failed =>
    refine stable.other ?_ ?_ ?_
    · cases failed <;> simp
    · cases failed <;> simp
    · rw [failed.store_eq]
      exact stable.stored
  | ticks => exact ⟨stable.answers, stable.stored, stable.getting⟩
  | advances called stepped =>
    rename_i p call after effect
    have store := stepped.store_cases
    cases stepped with
    | download downloads => exact stable.download called downloads
    | verify verifies =>
      refine stable.other (by simp) (by simp) ?_
      rcases store with kept | ⟨input, build, same, rfl⟩ | ⟨commitment, masp, rfl⟩ | ⟨_, _, _, _, _, same, _⟩
      · rw [kept]
        exact stable.stored
      · intro commitment file a b parsed served here
        simp only [Effect.apply, MaspStore.get_put, and_true] at here
        split_ifs at here with own
        · subst own
          obtain rfl := Option.some.inj here
          exact keeps input build (called.trans (congrArg some same)) file a parsed served
        · exact stable.stored commitment file a b parsed served here
      · intro other file a b parsed served here
        simp only [Effect.apply, MaspStore.get_put, reduceCtorEq, and_false, if_false] at here
        exact stable.stored other file a b parsed served here
      · cases same
    | cleanup cleans =>
      refine stable.other (by simp) (by simp) ?_
      rcases store with kept | ⟨_, _, same, _⟩ | ⟨commitment, masp, rfl⟩ |
        ⟨_, _, commitment, variant, _, _, rfl⟩
      · rw [kept]
        exact stable.stored
      · cases same
      · intro other file a b parsed served here
        simp only [Effect.apply, MaspStore.get_put, reduceCtorEq, and_false, if_false] at here
        exact stable.stored other file a b parsed served here
      · intro other file a b parsed served here
        simp only [Effect.apply, MaspStore.get_delete] at here
        split_ifs at here
        exact stable.stored other file a b parsed served here

theorem run_stable_downloads (actions : List Action) (state : State)
    (run : Run step KeepsServed State.initial actions state) : StableDownloads state := by
  have stable : Stable state := by
    refine run.always Stable ?_ fun _ _ _ => Stable.step
    constructor <;> simp [State.initial, State.Served]
  intro file commitment parsed a b served otherServed
  exact stable.answers commitment file file a b parsed parsed served otherServed

def State.answerOf (state : State) (q : Pid) : Option (String × Masp) :=
  match state.calls q with
  | some (.download file (.ended (.ok download))) => some (file, download.masp)
  | _ => none

theorem State.served_of_answerOf {state : State} {q : Pid} {file : String} {masp : Masp}
    (answered : state.answerOf q = some (file, masp)) : state.Served file masp := by
  unfold answerOf at answered
  split at answered
  · rename_i download called
    cases answered
    exact ⟨q, download, called, rfl⟩
  · cases answered

def counterFile : String := maspKey counterCommitment.text .release

def downloads : List Action :=
  playgroundDay ++ [.start 1 (.download counterFile)] ++ advances 1 2 ++
    [.start 2 .cleanup] ++ advances 2 13 ++
    verifies 3 "miden-verify" (verifiedBuild counterCode counterCommitment [2]) 9 ++
    [.start 4 (.download counterFile)] ++ advances 4 2

theorem reverified_package_changes_bytes :
    ¬ ∀ actions state, Run step (fun _ _ => True) State.initial actions state →
      StableDownloads state := by
  intro stable
  have ran : (exec step (fun _ _ => true) State.initial downloads).any (fun state =>
      state.answerOf 1 = some (counterFile, [1]) && state.answerOf 4 = some (counterFile, [2])) =
        true := by decide +kernel
  obtain ⟨state, reached, answers⟩ := exists_run_of_exec (fun _ _ _ => trivial) ran
  simp only [Bool.and_eq_true, decide_eq_true_eq] at answers
  have same := stable _ _ reached counterFile counterCommitment (by decide) _ _
    (State.served_of_answerOf answers.1) (State.served_of_answerOf answers.2)
  exact absurd same (by decide)

def keepsServed (limit : Pid) (state : State) : Action → Bool
  | .advance p =>
    match state.calls p with
    | some (.verify _ (.storing build)) => state.everyCall limit fun
      | .download file (.ended (.ok download)) =>
        parseMaspKey file ≠ some (build.commitment, .release) || build.masp = download.masp
      | _ => true
    | _ => true
  | _ => true

theorem keepsServed_sound {limit : Pid} (state : State) (action : Action) (within : state.Within limit)
    (keeps : keepsServed limit state action = true) : KeepsServed state action := by
  cases action with
  | start | answer | fail | tick => trivial
  | advance p =>
    rintro input build called file masp parsed ⟨q, download, answered, rfl⟩
    simp only [keepsServed, called] at keeps
    simpa [parsed] using within.everyCall keeps answered

def downloadedTwice : List Action :=
  playgroundDay ++ [.start 1 (.download counterFile)] ++ advances 1 2 ++
    [.start 2 .cleanup] ++ advances 2 13 ++
    verifies 3 "miden-verify" (verifiedBuild counterCode counterCommitment [1]) 9 ++
    [.start 4 (.download counterFile)] ++ advances 4 2

theorem downloads_agree : ∃ state, StableDownloads state ∧ state.answerOf 1 = some (counterFile, [1]) ∧
    state.answerOf 4 = some (counterFile, [1]) := by
  have ran : (exec step (fun state action => action.within 5 && keepsServed 5 state action) State.initial
      downloadedTwice).any (fun state => state.answerOf 1 = some (counterFile, [1]) ∧
        state.answerOf 4 = some (counterFile, [1])) = true := by decide +kernel
  obtain ⟨state, reached, answers⟩ := exists_run_within keepsServed_sound ran
  exact ⟨state, run_stable_downloads _ state reached, of_decide_eq_true answers⟩

end SourceVerification.Concurrent
