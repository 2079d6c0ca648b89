import SourceVerification.Compile.BuildDebug
import SourceVerification.Compile.BuildProject
import SourceVerification.Compile.ImportRoute
import SourceVerification.Compile.ProjectCopy

set_option autoImplicit false

namespace SourceVerification.Compile

open Paths

structure LockSteps where
  -- The path `cargo locate-project --workspace` prints.
  stdout : Option String
  realpath : Option (List Char)
  readFile : List Char → Option String

def readCargoLock (steps : LockSteps) : Option (List Char × String) :=
  match steps.stdout, steps.realpath with
  | some stdout, some rootDir =>
    let lockPath := join (dirname (trim stdout).toList) "Cargo.lock".toList
    -- cargo answers with the canonical path.
    let path := relative rootDir lockPath
    if dotDot.isPrefixOf path then none else (steps.readFile lockPath).map fun content => (path, content)
  | _, _ => none

def answeredFiles (steps : LockSteps) (files : Files) : Files :=
  match readCargoLock steps with
  | some (path, content) => setFile (String.ofList path) content files
  | none => files

structure Metadata where
  package : Package
  kind : TargetType
  manifest : Json
  readOnly : Json

/-- What the steps of a build come to, on the disk as the request finds it. -/
structure BuildSteps where
  tree : FileTree Name
  accepts : List Name → Bool
  cargoMidenError : Option String
  readFile : Except String Masp
  midenPackageMetadata : Except String Metadata
  lock : LockSteps
  cargoMidenVersion : Option String
  debug : DebugSteps

-- What `buildProject` throws.
inductive BuildError
  | files (errno : FileTree.Errno)
  | error (message : String)

def buildProject (steps : BuildSteps) (tmpDir : List Char) (project : Project) (debug : Bool)
    (expectedCommitment : Option String) : Except BuildError Build :=
  match writeProjectFiles steps.accepts tmpDir project.files steps.tree with
  | .error errno => .error (.files errno)
  | .ok _ =>
    match steps.cargoMidenError.filter (· ≠ "") with
    | some cargoMidenError => .ok (.failed cargoMidenError)
    | none =>
      match steps.readFile, steps.midenPackageMetadata with
      | .error error, _ => .error (.error error)
      | .ok _, .error error => .error (.error error)
      | .ok masp, .ok metadata =>
        let drift := expectedCommitment.any fun expected =>
          toLowerCase expected ≠ toLowerCase metadata.package.dependencyCommitment.text
        .ok (.built {
          package := metadata.package
          masp := masp
          kind := metadata.kind
          manifest := metadata.manifest
          readOnly := metadata.readOnly
          files := answeredFiles steps.lock project.files
          cargoMidenVersion := steps.cargoMidenVersion
          debug :=
            if debug && !drift then
              some (buildDebug steps.debug metadata.package steps.cargoMidenVersion)
            else none })

theorem buildProject_files {steps : BuildSteps} {tmpDir : List Char} {project : Project} {debug : Bool}
    {expectedCommitment : Option String} {compiled : Compiled}
    (built : buildProject steps tmpDir project debug expectedCommitment = .ok (.built compiled)) :
    compiled.files = answeredFiles steps.lock project.files := by
  simp only [buildProject] at built
  split at built
  next => cases built
  next =>
    split at built
    next => cases built
    next =>
      split at built
      next => cases built
      next => cases built
      next =>
        obtain rfl := Build.built.inj (Except.ok.inj built)
        rfl

def cargoLock : Name := "Cargo.lock".toList

/-- Where the copy is, and the root of the workspace that cargo finds. -/
structure Located (steps : LockSteps) (root workspace : List Name) : Prop where
  rootPlain : ∀ name ∈ root, Plain name
  plain : ∀ name ∈ workspace, Plain name
  realpath : steps.realpath = some (text root)
  -- A directory can't be read.
  directory : steps.readFile (text root) = none
  stdout : steps.stdout = some (String.ofList (text (workspace ++ ["Cargo.toml".toList])) ++ "\n")

def cargoLockPath (workspace : List Name) : List Char :=
  text (workspace ++ [cargoLock])

def lockKey (below : List Name) : String :=
  String.ofList (List.intercalate ['/'] (below ++ [cargoLock]))

/-- A lockfile in the copy comes back with the sources, and none from outside does. -/
structure LockfileAnswered (steps : LockSteps) (root workspace : List Name) (files answered : Files) : Prop where
  inside : ∀ below content, workspace = root ++ below →
    steps.readFile (cargoLockPath workspace) = some content → answered = setFile (lockKey below) content files
  outside : ¬ root <+: workspace → answered = files

section

variable {steps : LockSteps} {root workspace : List Name}

theorem trim_located (names : List Name) :
    trim (String.ofList (text (names ++ ["Cargo.toml".toList])) ++ "\n") =
      String.ofList (text (names ++ ["Cargo.toml".toList])) := by
  have kept : (text (names ++ ["Cargo.toml".toList])).rdropWhile Strings.isWhiteSpace =
      text (names ++ ["Cargo.toml".toList]) := rdropWhile_text (by decide) (by decide)
  have start : (text (names ++ ["Cargo.toml".toList]) ++ ['\n']).dropWhile Strings.isWhiteSpace =
      text (names ++ ["Cargo.toml".toList]) ++ ['\n'] := by
    rw [text, List.cons_append]
    exact List.dropWhile_cons_of_neg (by decide)
  have newline : "\n".toList = ['\n'] := by decide
  rw [trim, Strings.trim, String.toList_append, String.toList_ofList, newline, start,
    List.rdropWhile_concat_pos _ _ _ (by decide), kept]

theorem cargoLock_plain : Plain cargoLock := by decide

theorem Located.readCargoLock (located : Located steps root workspace) :
    Compile.readCargoLock steps =
      if dotDot <+: List.intercalate ['/'] (relativeNames root (workspace ++ [cargoLock])) then none
      else (steps.readFile (cargoLockPath workspace)).map fun content =>
        (List.intercalate ['/'] (relativeNames root (workspace ++ [cargoLock])), content) := by
  have single : "Cargo.lock".toList.splitOn '/' = [cargoLock] := by decide
  have segment : ∀ segment ∈ "Cargo.lock".toList.splitOn '/', Plain segment := by
    rw [single]
    exact fun _ member => List.mem_singleton.mp member ▸ cargoLock_plain
  have joined : join (dirname (text (workspace ++ ["Cargo.toml".toList]))) "Cargo.lock".toList =
      cargoLockPath workspace := by
    rw [dirname_text located.plain (by decide) (by decide), join_plain (isAbsolute_text _) segment,
      names_text located.plain, single, cargoLockPath]
  have lockNames : names (cargoLockPath workspace) = workspace ++ [cargoLock] := by
    refine names_text fun name member => ?_
    rcases List.mem_append.mp member with inside | last
    · exact located.plain name inside
    · exact List.mem_singleton.mp last ▸ cargoLock_plain
  simp only [Compile.readCargoLock, located.stdout, located.realpath, trim_located, String.toList_ofList,
    joined, relative, names_text located.rootPlain, lockNames, List.isPrefixOf_iff_prefix]

-- The name of the first directory on the way starts with `..`.
def StartsUp (below : List Name) : Prop :=
  ∃ name ∈ below.head?, dotDot <+: name

theorem startsUp_iff (below : List Name) :
    dotDot <+: List.intercalate ['/'] (below ++ [cargoLock]) ↔ StartsUp below := by
  cases below with
  | nil =>
    have named : ¬ dotDot <+: List.intercalate ['/'] [cargoLock] := by decide
    simpa [StartsUp] using named
  | cons name rest =>
    rw [List.cons_append, List.intercalate_cons_of_ne_nil (by simp), List.append_assoc]
    simpa [StartsUp] using dotDot_prefix_slash

theorem Located.answeredFiles_inside (located : Located steps root workspace) {below : List Name}
    (inside : workspace = root ++ below) {content : String}
    (readFile : steps.readFile (cargoLockPath workspace) = some content) (files : Files) :
    (StartsUp below → answeredFiles steps files = files) ∧
      (¬ StartsUp below → answeredFiles steps files = setFile (lockKey below) content files) := by
  have found := located.readCargoLock
  rw [readFile, inside, List.append_assoc, relativeNames_append] at found
  rw [answeredFiles, found]
  constructor
  · intro up
    rw [if_pos ((startsUp_iff below).mpr up)]
  · intro down
    rw [if_neg ((startsUp_iff below).not.mpr down)]
    rfl

theorem Located.answeredFiles_outside (located : Located steps root workspace) (outside : ¬ root <+: workspace)
    (files : Files) : answeredFiles steps files = files := by
  have found := located.readCargoLock
  by_cases itself : root = workspace ++ [cargoLock]
  next =>
    have unread : steps.readFile (cargoLockPath workspace) = none := by
      rw [cargoLockPath, ← itself]
      exact located.directory
    rw [unread] at found
    simp [answeredFiles, found]
  next =>
    have above : ¬ root <+: workspace ++ [cargoLock] := by
      rw [List.prefix_concat_iff]
      exact not_or.mpr ⟨itself, outside⟩
    rw [if_pos (dotDot_prefix_relativeNames above)] at found
    simp [answeredFiles, found]

theorem lockPath_below {below : List Name} (plain : ∀ name ∈ below, Plain name) :
    lockPath (String.ofList (List.intercalate ['/'] below)) = lockKey below := by
  refine String.toList_injective ?_
  rw [lockKey, String.toList_ofList]
  by_cases here : below = []
  next =>
    subst here
    have root : String.ofList (List.intercalate ['/'] ([] : List Name)) = "" := rfl
    rw [lockPath, if_pos root]
    rfl
  next =>
    have directory : String.ofList (List.intercalate ['/'] below) ≠ "" := by
      intro empty
      have none := congrArg String.toList empty
      rw [String.toList_ofList] at none
      exact here ((intercalate_eq_nil_iff plain).mp none)
    have slash : "/Cargo.lock".toList = '/' :: cargoLock := by decide
    rw [lockPath, if_neg directory, intercalate_concat _ here, String.toList_append, slash,
      String.toList_ofList]

theorem Located.builtFiles (located : Located steps root workspace) {toolchain : Toolchain} {project : Project}
    (directory : toolchain.workspace project =
      some (String.ofList (List.intercalate ['/'] (relativeNames root workspace))))
    (readFile : ∀ below, workspace = root ++ below →
      toolchain.readFile project (lockKey below) = steps.readFile (cargoLockPath workspace)) :
    toolchain.builtFiles project = answeredFiles steps project.files := by
  by_cases inside : root <+: workspace
  next =>
    obtain ⟨below, rfl⟩ := inside
    have plain : ∀ name ∈ below, Plain name :=
      fun name member => located.plain name (List.mem_append_right _ member)
    have found := located.readCargoLock
    rw [relativeNames_append] at directory
    rw [List.append_assoc, relativeNames_append] at found
    rw [Toolchain.builtFiles, answeredFiles, Toolchain.readCargoLock, directory, found]
    have path : (lockKey below).toList = List.intercalate ['/'] (below ++ [cargoLock]) :=
      String.toList_ofList
    have up : "..".toList = dotDot := by decide
    simp only [lockPath_below plain, readFile below rfl, path, up, List.isPrefixOf_iff_prefix]
    split_ifs with starts
    next => rfl
    next => cases steps.readFile (cargoLockPath (root ++ below)) <;> rfl
  next =>
    have starts := dotDot_prefix_relativeNames inside
    have answered := located.answeredFiles_outside inside project.files
    have up : "..".toList.isPrefixOf
        (String.ofList (List.intercalate ['/'] (relativeNames root workspace))).toList = true := by
      simpa [List.isPrefixOf_iff_prefix, dotDot] using starts
    rw [answered, Toolchain.builtFiles, Toolchain.readCargoLock, directory]
    simp only [lockPath_up up, if_true]

theorem Located.buildProject {steps : BuildSteps} (located : Located steps.lock root workspace) {toolchain : Toolchain}
    {project : Project} {tmpDir : List Char} {debug : Bool} {http : BuildError → HttpError}
    (directory : toolchain.workspace project =
      some (String.ofList (List.intercalate ['/'] (relativeNames root workspace))))
    (readFile : ∀ below, workspace = root ++ below →
      toolchain.readFile project (lockKey below) = steps.lock.readFile (cargoLockPath workspace))
    (runs : toolchain.build project debug =
      (Compile.buildProject steps tmpDir project debug none).mapError http) :
    toolchain.buildProject project debug = (Compile.buildProject steps tmpDir project debug none).mapError http := by
  have files := located.builtFiles directory readFile
  rw [Toolchain.buildProject, runs]
  cases built : Compile.buildProject steps tmpDir project debug none with
  | error error => rfl
  | ok build =>
    cases build with
    | failed stderr => rfl
    | built compiled =>
      have same : { compiled with files := toolchain.builtFiles project } = compiled := by
        rw [files, ← buildProject_files built]
      exact congrArg (fun compiled => Except.ok (Build.built compiled)) same

theorem setFile_eq_self_iff {path content : String} {files : Files} :
    files = setFile path content files ↔ files.lookup path = some content := by
  induction files with
  | nil => simp [setFile]
  | cons file rest ih =>
    obtain ⟨name, text⟩ := file
    by_cases same : name = path
    next =>
      subst same
      simp [setFile]
    next =>
      have apart : (path == name) = false := by simpa using Ne.symm same
      simpa [setFile, same, List.lookup_cons, apart] using ih

end

/-- The lockfile comes back unless the way to it starts with a name like `..crate`: what `path` is
tested for is that name too. -/
theorem buildProject_lockfile_iff {steps : BuildSteps} {tmpDir : List Char} {project : Project} {debug : Bool}
    {expectedCommitment : Option String} {compiled : Compiled}
    (built : buildProject steps tmpDir project debug expectedCommitment = .ok (.built compiled))
    {root workspace : List Name} (located : Located steps.lock root workspace) :
    LockfileAnswered steps.lock root workspace project.files compiled.files ↔
      ∀ below content, workspace = root ++ below → steps.lock.readFile (cargoLockPath workspace) = some content →
        StartsUp below → project.files.lookup (lockKey below) = some content := by
  rw [buildProject_files built]
  constructor
  · intro answered below content inside readFile up
    have whole := answered.inside below content inside readFile
    rw [(located.answeredFiles_inside inside readFile project.files).1 up] at whole
    exact setFile_eq_self_iff.mp whole
  · intro submitted
    refine ⟨fun below content inside readFile => ?_, fun outside =>
      located.answeredFiles_outside outside project.files⟩
    obtain ⟨kept, added⟩ := located.answeredFiles_inside inside readFile project.files
    by_cases up : StartsUp below
    next =>
      rw [kept up]
      exact setFile_eq_self_iff.mpr (submitted below content inside readFile up)
    next => exact added up

def copyRoot : List Name := ["tmp".toList, "miden-project-a".toList]

def crateSteps (workspace : List Name) : BuildSteps where
  tree := onlyDirectory copyRoot
  accepts _ := true
  cargoMidenError := none
  readFile := .ok [1]
  midenPackageMetadata := .ok ⟨counterPackage, .accountComponent, .object [], .object []⟩
  lock := {
    stdout := some (String.ofList (text (workspace ++ ["Cargo.toml".toList])) ++ "\n")
    realpath := some (text copyRoot)
    readFile := fun path => if path = cargoLockPath workspace then some "version = 4" else none }
  cargoMidenVersion := none
  debug := helperSteps

def crateCompiled (files : Files) : Compiled where
  package := counterPackage
  masp := [1]
  kind := .accountComponent
  manifest := .object []
  readOnly := .object []
  files := files
  cargoMidenVersion := none
  debug := none

theorem crateSteps_located {workspace : List Name} (plain : ∀ name ∈ workspace, Plain name)
    (other : cargoLockPath workspace ≠ text copyRoot) : Located (crateSteps workspace).lock copyRoot workspace where
  rootPlain := by decide
  plain := plain
  realpath := rfl
  directory := if_neg other.symm
  stdout := rfl

theorem counter_lockfile_answered :
    LockfileAnswered (crateSteps copyRoot).lock copyRoot copyRoot counterWithDependency
        (setFile "Cargo.lock" "version = 4" counterWithDependency) ↔
      ∀ below content, copyRoot = copyRoot ++ below →
        (crateSteps copyRoot).lock.readFile (cargoLockPath copyRoot) = some content →
          StartsUp below → counterWithDependency.lookup (lockKey below) = some content :=
  buildProject_lockfile_iff
    (show buildProject (crateSteps copyRoot) (text copyRoot)
        { files := counterWithDependency, entrypoint := ".", name := "counter" } false none =
      .ok (.built (crateCompiled (setFile "Cargo.lock" "version = 4" counterWithDependency))) from rfl)
    (crateSteps_located (by decide) (by decide))

-- A crate in a directory whose name starts with `..`.
def dottedCrate : Files :=
  [("..counter/Cargo.toml", "counter"), ("..counter/miden-project.toml", "")]

theorem dottedCrate_lockfile_dropped :
    ¬ ∀ (parse : String → Option (List (String × Json))) (files entrypoint : Option Json) (project : Project)
        (steps : BuildSteps) (tmpDir : List Char) (debug : Bool) (expectedCommitment : Option String)
        (compiled : Compiled) (root workspace : List Name),
      openProject parse files entrypoint = .ok project →
        buildProject steps tmpDir project debug expectedCommitment = .ok (.built compiled) →
          Located steps.lock root workspace →
            LockfileAnswered steps.lock root workspace project.files compiled.files := by
  intro answered
  have comes := answered nameOnly (some (filesJson dottedCrate)) (some (.string "..counter"))
    { files := dottedCrate, entrypoint := "..counter", name := "counter" }
    (crateSteps (copyRoot ++ ["..counter".toList])) (text copyRoot) false none (crateCompiled dottedCrate)
    copyRoot _ (by rfl) (by rfl) (crateSteps_located (by decide) (by decide))
  have dropped := comes.inside ["..counter".toList] "version = 4" rfl (by rfl)
  exact absurd dropped (by decide)

end SourceVerification.Compile
