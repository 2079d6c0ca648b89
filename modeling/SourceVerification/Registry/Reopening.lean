import SourceVerification.Compile.BuildProject
import SourceVerification.Registry.Integrity
import SourceVerification.Registry.VerifyRoutes

set_option autoImplicit false

namespace SourceVerification.Registry

open Compile Results

inductive ServiceCall
  | post (request : PostRequest)
  | debugBuild (commitment : String) (api : ApiCompile) (outage : Option HttpError) (faults : Faults)
      (now : Time)
  | cleanup (faults : Faults) (now : Time)

-- api-compile's `compileDebug`, for the files and the entrypoint of a stored package.
def compileDebug (commitment : String) (api : ApiCompile) (outage : Option HttpError) (files : Files)
    (entrypoint : String) : Except Error DebugBuild :=
  match outage with
  | some error => .error (.http error)
  | none =>
    (postCompileDebug api (some (filesJson files)) (some (.string entrypoint))
      (((parseRoot commitment).map (·.text)).getD "")).mapError .http

def State.serve (state : State) : ServiceCall → State
  | .post request => (postVerified state request).2
  | .debugBuild commitment api outage faults now =>
    (postDebugBuild api.parseToml faults state commitment (compileDebug commitment api outage) now).2
  | .cleanup faults now => (cleanupPlaygroundResources faults state now).2

def serveAll (calls : List ServiceCall) : State :=
  calls.foldl State.serve .empty

/-- An api-compile that reads Cargo.toml files so, and builds with the tools of its image. -/
structure BuildsWith (parse : String → Option (List (String × Json))) (api : ApiCompile) : Prop where
  parser : api.parseToml = parse
  builds : ∃ toolchain : Toolchain, api.queueCompile = toolchain.buildProject

def ServiceCall.BuildsWith (parse : String → Option (List (String × Json))) : ServiceCall → Prop
  | .post request => Registry.BuildsWith parse request.api
  | .debugBuild _ api _ _ _ => Registry.BuildsWith parse api
  | .cleanup _ _ => True

def WithLockfile (files : Files) (built : Files) : Prop :=
  built = files ∨ ∃ path content, IsLockfile path ∧ built = setFile path content files

/-- The row holds the project a request opened, with the lockfile of its build. -/
def PackageRow.Holds (row : PackageRow) (project : Project) : Prop :=
  row.name = project.name ∧ row.entrypoint = some project.entrypoint ∧
    WithLockfile project.files row.files

section

variable {parse : String → Option (List (String × Json))}

theorem WithLockfile.opened {project : Project} {built : Files} (opened : Opened parse project)
    (same : WithLockfile project.files built) : Opened parse { project with files := built } := by
  rcases same with rfl | ⟨path, content, lockfile, rfl⟩
  · exact opened
  · exact opened.setLockfile lockfile content

theorem builtFiles_withLockfile (toolchain : Toolchain) (project : Project) :
    WithLockfile project.files (toolchain.builtFiles project) := by
  unfold Toolchain.builtFiles
  split
  next path content found =>
    exact .inr ⟨path, content, Toolchain.readCargoLock_isLockfile found, rfl⟩
  next => exact .inl rfl

theorem buildProject_files {toolchain : Toolchain} {project : Project} {debug : Bool} {compiled : Compiled}
    (built : toolchain.buildProject project debug = .ok (.built compiled)) :
    compiled.files = toolchain.builtFiles project := by
  unfold Toolchain.buildProject at built
  split at built
  next =>
    obtain rfl := Build.built.inj (Except.ok.inj built)
    rfl
  next => cases Except.ok.inj built
  next => cases built

theorem postVerify_files {request : PostRequest} {project : Project} {build : VerifyResponse}
    (builds : BuildsWith parse request.api)
    (opened : openProject parse request.files request.entrypoint = .ok project)
    (answered : request.answer project = .ok build) : WithLockfile project.files build.files := by
  obtain ⟨-, -, checked⟩ := openProject_eq_ok opened
  have again : openProject request.api.parseToml (request.verifyRequest project).files
      (request.verifyRequest project).entrypoint = .ok project :=
    builds.parser ▸ checked.reopens checked.normal
  have ran := request.answer_eq_ok answered
  obtain ⟨toolchain, same⟩ := builds.builds
  unfold postVerify at ran
  simp only [again, same] at ran
  split_ifs at ran
  split at ran
  next => cases ran
  next => cases ran
  next compiled built =>
    split at ran
    next => cases ran
    next =>
      obtain rfl := Except.ok.inj ran
      rw [buildProject_files built]
      exact builtFiles_withLockfile toolchain project

end

theorem packageRowId_packages {db next : Database} {project : Project} {build : VerifyResponse}
    {stored : Option PackageRow} {now : Time} {packageId : RowId}
    (ran : packageRowId db project build stored now = .ok (packageId, next)) :
    ∀ row ∈ next.packages, row ∈ db.packages ∨ ∃ id, row = packageRow id project build now := by
  intro row member
  unfold packageRowId at ran
  cases stored with
  | some found =>
    obtain ⟨-, rfl⟩ := Prod.mk.inj (Except.ok.inj ran)
    exact .inl member
  | none =>
    simp only [insertPackage, Database.insertPackageRow] at ran
    cases conflict : db.getPackage build.commitment with
    | some existing =>
      simp only [conflict, Option.isSome_some, if_true, Except.ok.injEq, Prod.mk.injEq] at ran
      exact .inl (ran.2 ▸ member)
    | none =>
      simp only [conflict, Option.isSome_none, Bool.false_eq_true, if_false, Except.ok.injEq,
        Prod.mk.injEq] at ran
      obtain ⟨-, rfl⟩ := ran
      rcases List.mem_append.mp member with old | new
      · exact .inl old
      · exact .inr ⟨db.nextId, List.mem_singleton.mp new⟩

theorem insertRecord_packages {db next : Database} {input : VerifyInput} {build : VerifyResponse}
    {packageId : RowId} {now : Time} (ran : insertRecord db input build packageId now = .ok next) :
    next.packages = db.packages := by
  unfold insertRecord at ran
  split at ran
  next =>
    obtain ⟨between, account, step, -, rfl⟩ := insertAccountComponent_eq_ok ran
    exact step.packages
  next =>
    obtain ⟨-, rfl⟩ := insertNote_eq_ok ran
    rfl

theorem record_packages {db next : Database} {input : VerifyInput} {build : VerifyResponse}
    {stored : Option PackageRow} {now : Time} {packageId : RowId}
    (ran : record db input build stored now = .ok (packageId, next)) :
    ∀ row ∈ next.packages, row ∈ db.packages ∨ ∃ id, row = packageRow id input.project build now := by
  obtain ⟨⟨id, packaged⟩, packageRan, rest⟩ := bind_eq_ok.mp ran
  obtain ⟨recorded, recordRan, last⟩ := bind_eq_ok.mp rest
  obtain ⟨-, rfl⟩ := Prod.mk.inj (Except.ok.inj last)
  rw [insertRecord_packages recordRan]
  exact packageRowId_packages packageRan

structure Lasting (holds : PackageRow → Prop) : Prop where
  withDebug : ∀ row commitment builtWith now, holds row → holds (row.withDebug commitment builtWith now)

section

variable {holds : PackageRow → Prop}

theorem updatePackage_holds {db : Database} {id : RowId} {update : PackageRow → PackageRow}
    (updates : ∀ row, holds row → holds (update row)) (all : ∀ row ∈ db.packages, holds row) :
    ∀ row ∈ (db.updatePackage id update).packages, holds row := by
  intro row member
  obtain ⟨old, inside, rfl⟩ := List.mem_map.mp member
  split
  · exact updates old (all old inside)
  · exact all old inside

theorem storeDebugBuild_holds (lasting : Lasting holds) (faults : Faults) {state : State} (packageId : RowId)
    (commitment : Word) (debug : Option DebugBuild) (now : Time)
    (all : ∀ row ∈ state.db.packages, holds row) :
    ∀ row ∈ (storeDebugBuild faults state packageId commitment debug now).2.db.packages, holds row := by
  unfold storeDebugBuild
  split
  next => exact all
  next => exact all
  next =>
    split_ifs
    · exact all
    · exact all
    · exact updatePackage_holds (fun row => lasting.withDebug row _ _ _) all

theorem verifyResource_holds (lasting : Lasting holds) (faults : Faults) {state : State} {input : VerifyInput}
    {answer : Except Error VerifyResponse} {now : Time} (all : ∀ row ∈ state.db.packages, holds row)
    (new : ∀ build id, answer = .ok build → holds (packageRow id input.project build now)) :
    ∀ row ∈ (verifyResource faults state input answer now).2.db.packages, holds row := by
  unfold verifyResource
  cases answer with
  | error error => exact all
  | ok build =>
    dsimp only
    generalize (if (state.db.getPackage build.commitment).isNone then
      state.store.put build.commitment build.masp .release else state.store) = store
    cases ran : record state.db input build (state.db.getPackage build.commitment) now with
    | error error => split_ifs <;> exact all
    | ok result =>
      obtain ⟨packageId, db⟩ := result
      have recorded : ∀ row ∈ db.packages, holds row := by
        intro row member
        rcases record_packages ran row member with old | ⟨id, rfl⟩
        · exact all row old
        · exact new build id rfl
      dsimp only
      split_ifs
      · exact all
      · exact all
      · exact all
      · exact all
      · exact storeDebugBuild_holds lasting _ _ _ _ _ recorded
      · exact recorded

theorem postDebugBuild_holds (lasting : Lasting holds) (parse : String → Option (List (String × Json)))
    (faults : Faults) {state : State} (commitment : String)
    (answer : Files → String → Except Error DebugBuild) (now : Time)
    (all : ∀ row ∈ state.db.packages, holds row)
    (placed : ∀ row ∈ state.db.packages, row.entrypoint.isSome) :
    ∀ row ∈ (postDebugBuild parse faults state commitment answer now).2.db.packages, holds row := by
  rcases postDebugBuild_cases parse faults state commitment answer now with
    same | ⟨dbPackage, member, entrypoint, debug, next, _, _, stored, outcome⟩
  · rw [same]
    exact all
  · have kept : ∀ row ∈ next.db.packages, holds row :=
      stored ▸ storeDebugBuild_holds lasting faults dbPackage.id dbPackage.commitment (some debug) now all
    rcases outcome with same | ⟨unplaced, _⟩
    · rw [same]
      exact kept
    · have known := placed dbPackage member
      simp [unplaced] at known

end

section

variable {parse : String → Option (List (String × Json))} {calls : List ServiceCall}

def PackageRow.From (parse : String → Option (List (String × Json))) (calls : List ServiceCall)
    (row : PackageRow) : Prop :=
  ∃ request project, .post request ∈ calls ∧
    openProject parse request.files request.entrypoint = .ok project ∧ row.Holds project

theorem from_lasting (parse : String → Option (List (String × Json))) (calls : List ServiceCall) :
    Lasting (PackageRow.From parse calls) where
  withDebug _ _ _ _ recorded := recorded

theorem postVerified_from {state : State} {request : PostRequest} (member : .post request ∈ calls)
    (builds : BuildsWith parse request.api)
    (all : ∀ row ∈ state.db.packages, row.From parse calls) :
    ∀ row ∈ (postVerified state request).2.db.packages, row.From parse calls := by
  unfold postVerified
  split_ifs
  · exact all
  · rw [builds.parser]
    cases opened : openProject parse request.files request.entrypoint with
    | error error => exact all
    | ok project =>
      refine verifyResource_holds (from_lasting parse calls) _ all fun build id answered => ?_
      exact ⟨request, project, member, opened, rfl, rfl, postVerify_files builds opened answered⟩

theorem serve_from {state : State} {call : ServiceCall} (member : call ∈ calls)
    (builds : call.BuildsWith parse) (all : ∀ row ∈ state.db.packages, row.From parse calls) :
    ∀ row ∈ (state.serve call).db.packages, row.From parse calls := by
  cases call with
  | post request => exact postVerified_from member builds all
  | debugBuild commitment api outage faults now =>
    refine postDebugBuild_holds (from_lasting parse calls) _ _ _ _ _ all fun row inside => ?_
    obtain ⟨request, project, _, _, _, placed, _⟩ := all row inside
    simp [placed]
  | cleanup faults now =>
    intro row inside
    refine all row ?_
    revert inside
    simp only [State.serve, cleanupPlaygroundResources]
    split_ifs
    · exact id
    · split <;> exact fun inside => (deleteExpired_packages_sublist _ _).subset inside

theorem serveAll_from (builds : ∀ call ∈ calls, call.BuildsWith parse) :
    ∀ row ∈ (serveAll calls).db.packages, row.From parse calls := by
  have run : ∀ rest : List ServiceCall, (∀ call ∈ rest, call ∈ calls) → ∀ state : State,
      (∀ row ∈ state.db.packages, row.From parse calls) →
      ∀ row ∈ (rest.foldl State.serve state).db.packages, row.From parse calls := by
    intro rest
    induction rest with
    | nil => exact fun _ _ all => all
    | cons call rest ih =>
      intro inside state all
      have member := inside call (List.mem_cons_self ..)
      exact ih (fun other later => inside other (List.mem_cons_of_mem _ later)) _
        (serve_from member (builds call member) all)
  exact run calls (fun _ member => member) .empty (by simp [State.empty])

end

/-- The entrypoint `openProject` answers opens the same project, whatever lockfile a build adds; so
api-compile opens the project the registry did, and a stored package opens as the one it was recorded
for. -/
theorem projects_open_again (parse : String → Option (List (String × Json))) :
    (∀ files entrypoint project, openProject parse files entrypoint = .ok project →
      files = some (filesJson project.files) ∧
      openProject parse files (some (.string project.entrypoint)) = .ok project ∧
      ∀ path content, IsLockfile path →
        openProject parse (some (filesJson (setFile path content project.files)))
          (some (.string project.entrypoint)) =
            .ok { project with files := setFile path content project.files }) ∧
    (∀ request : PostRequest, request.api.parseToml = parse → ∀ project,
      openProject parse request.files request.entrypoint = .ok project →
      openProject request.api.parseToml (request.verifyRequest project).files
        (request.verifyRequest project).entrypoint = .ok project) ∧
    ∀ calls : List ServiceCall, (∀ call ∈ calls, call.BuildsWith parse) →
      ∀ row ∈ (serveAll calls).db.packages, ∃ request project, .post request ∈ calls ∧
        openProject parse request.files request.entrypoint = .ok project ∧ row.Holds project ∧
        openProject parse (some (filesJson row.files)) (row.entrypoint.map .string) =
          .ok { project with files := row.files } := by
  refine ⟨fun files entrypoint project opened => ?_, fun request parser project opened => ?_,
    fun calls builds row member => ?_⟩
  · obtain ⟨rfl, -, checked⟩ := openProject_eq_ok opened
    refine ⟨rfl, checked.reopens checked.normal, fun path content lockfile => ?_⟩
    exact (checked.setLockfile lockfile content).reopens checked.normal
  · obtain ⟨-, -, checked⟩ := openProject_eq_ok opened
    exact parser ▸ checked.reopens checked.normal
  · obtain ⟨request, project, posted, opened, named, placed, same⟩ := serveAll_from builds row member
    obtain ⟨-, -, checked⟩ := openProject_eq_ok opened
    refine ⟨request, project, posted, opened, ⟨named, placed, same⟩, ?_⟩
    rw [placed]
    exact (same.opened checked).reopens checked.normal

def counterToolchain : Toolchain where
  build := counterApi.queueCompile
  workspace _ := some ""
  readFile _ _ := some "version = 4"
  relative _ _ located := .inl (Option.some.inj located).symm

def lockedPost : PostRequest :=
  { counterPost counterAccountId with
    entrypoint := some (.string "./")
    api := { counterApi with queueCompile := counterToolchain.buildProject } }

theorem locked_post_opens_again : ∀ row ∈ (serveAll [.post lockedPost]).db.packages,
    ∃ request project, .post request ∈ [ServiceCall.post lockedPost] ∧
      openProject counterApi.parseToml request.files request.entrypoint = .ok project ∧
      row.Holds project ∧
      openProject counterApi.parseToml (some (filesJson row.files)) (row.entrypoint.map .string) =
        .ok { project with files := row.files } := by
  refine (projects_open_again counterApi.parseToml).2.2 _ fun call member => ?_
  obtain rfl := List.mem_singleton.mp member
  exact ⟨rfl, counterToolchain, rfl⟩

example : (serveAll [.post lockedPost]).db.packages.map (fun row => (row.entrypoint, row.files.map (·.1))) =
    [(some ".", ["Cargo.toml", "miden-project.toml", "Cargo.lock"])] := by decide +kernel

end SourceVerification.Registry
