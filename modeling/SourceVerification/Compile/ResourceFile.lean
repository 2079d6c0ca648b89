import SourceVerification.Compile.ImportRoute
import SourceVerification.Compile.Verification
import SourceVerification.Shared.Numbers
import SourceVerification.Shared.Paths

set_option autoImplicit false

namespace SourceVerification.Compile.ResourceFile

open Numbers Paths

-- What `JSON.parse` makes of a body's field.
inductive Value
  | null
  | boolean (value : Bool)
  | number (value : Number)
  | string (value : String)
  | array (items : List Value)
  | object (entries : List (String × Value))

def Value.truthy : Value → Bool
  | .null => false
  | .boolean value => value
  | .number value => value ≠ .nan ∧ value ≠ .finite 0
  | .string value => value ≠ ""
  | .array _ | .object _ => true

-- A field that isn't there is `undefined`.
def truthy (field : Option Value) : Bool :=
  field.any Value.truthy

structure VerifyRequestBody where
  files : Option Json
  entrypoint : Option Json
  networkId : Option Value
  resourceId : Option Value
  resource : Option Value
  debug : Option Value

inductive Thrown
  | http (error : HttpError)
  | message (text : String)

abbrev Disk := List Name → Bool

structure Environment where
  parseToml : String → Option (List (String × Json))
  queueCompile : Project → Bool → Except Thrown Build
  cwd : List Name
  tmpdir : List Char
  -- The characters `mkdtemp` appends, or why it fails.
  suffix : Except String (List Char)
  -- Why a file can't be opened, and why a string or the chunks of an array can't be written.
  openFault : Option String
  writeFault : Value → Option String
  -- How a run of the verifier ends, with or without a resource file, unless it can't be started.
  verifier : Option (List Char) → Except String ToolExit
  parseOutput : String → Option MidenVerifierOutput
  rmFault : Option String

section

variable (environment : Environment)

def mkdtemp (start : List Char) (disk : Disk) : Except Thrown (List Char) × Disk :=
  match environment.suffix with
  | .error fault => (.error (.message fault), disk)
  | .ok suffix =>
    let path := resolve environment.cwd (start ++ suffix)
    -- Only a directory that wasn't there is answered.
    if disk path then (.error (.message "EEXIST: file already exists, mkdtemp"), disk)
    else (.ok (start ++ suffix), Function.update disk path true)

def writeFile (path : List Char) (data : Value) (disk : Disk) : Except Thrown Unit × Disk :=
  match data with
  | .string _ | .array _ =>
    match environment.openFault with
    | some fault => (.error (.message fault), disk)
    | none =>
      let written := Function.update disk (resolve environment.cwd path) true
      match environment.writeFault data with
      | some fault => (.error (.message fault), written)
      | none => (.ok (), written)
  -- Neither a string nor something to iterate over.
  | _ => (.error (.message "The \"data\" argument must be of type string or an instance of Buffer, TypedArray, or DataView."), disk)

def writeResourceFile (resource : Value) (disk : Disk) : Except Thrown (List Char) × Disk :=
  match mkdtemp environment (join environment.tmpdir "miden-resource-".toList) disk with
  | (.error error, disk) => (.error error, disk)
  | (.ok tmpDir, disk) =>
    let resourcePath := join tmpDir "resource.txt".toList
    match writeFile environment resourcePath resource disk with
    | (.error error, disk) => (.error error, disk)
    | (.ok (), disk) => (.ok resourcePath, disk)

def removeDirs (directory : List Char) (disk : Disk) : Disk :=
  match environment.rmFault with
  | some _ => disk
  | none => fun path => disk path && !(resolve environment.cwd directory).isPrefixOf path

def verify (resourcePath : Option (List Char)) (commitment : Word) : Except Thrown (Bool × Word) :=
  match environment.verifier resourcePath with
  | .error fault => .error (.message fault)
  | .ok exit =>
    match run environment.parseOutput "miden-verifier" exit with
    | .error message rejected => .error (.http ⟨if rejected then 400 else 502, message⟩)
    | .output output => .ok (output.answer commitment)

def verifyResponse (compiled : Compiled) (verified : Bool) (root : Word) : VerifyResponse where
  verified := verified
  root := root
  masp := compiled.masp
  commitment := compiled.package.dependencyCommitment
  kind := compiled.kind
  manifest := compiled.manifest
  readOnly := compiled.readOnly
  files := compiled.files
  cargoMidenVersion := compiled.cargoMidenVersion
  debug := compiled.debug

def useBuild (resource : Option Value) (disk : Disk) : Build → Except Thrown VerifyResponse × Disk
  | .failed stderr => (.error (.http ⟨400, stderr⟩), disk)
  | .built compiled =>
    let commitment := compiled.package.dependencyCommitment
    let answer (resourcePath : Option (List Char)) := (verify environment resourcePath commitment).map
      fun (verified, root) => verifyResponse compiled verified root
    match resource.filter Value.truthy with
    | none => (answer none, disk)
    | some resource =>
      -- Outside the `try`.
      match writeResourceFile environment resource disk with
      | (.error error, disk) => (.error error, disk)
      | (.ok resourcePath, disk) =>
        (answer (some resourcePath), removeDirs environment (dirname resourcePath) disk)

def postVerify (body : VerifyRequestBody) (disk : Disk) : Except Thrown VerifyResponse × Disk :=
  match openProject environment.parseToml body.files body.entrypoint with
  | .error error => (.error (.http ⟨400, error⟩), disk)
  | .ok project =>
    if !truthy body.networkId then (.error (.http ⟨400, "missing networkId"⟩), disk)
    else if !truthy body.resourceId then (.error (.http ⟨400, "missing resourceId"⟩), disk)
    else
      match environment.queueCompile project (body.debug matches some (.boolean true)) with
      | .error error => (.error error, disk)
      | .ok build => useBuild environment body.resource disk build

/-- A request whose project builds makes a directory for its resource. -/
structure MakesDirectory (body : VerifyRequestBody) (disk : Disk) (directory : List Char) (resource : Value) :
    Prop where
  builds : ∃ project compiled, openProject environment.parseToml body.files body.entrypoint = .ok project ∧
    environment.queueCompile project (body.debug matches some (.boolean true)) = .ok (.built compiled)
  networkId : truthy body.networkId = true
  resourceId : truthy body.resourceId = true
  given : body.resource = some resource
  truthy : resource.truthy = true
  made : (mkdtemp environment (join environment.tmpdir "miden-resource-".toList) disk).1 = .ok directory

/-- A string or an array that nothing keeps from being written. -/
structure Writable (data : Value) : Prop where
  iterable : (∃ text, data = .string text) ∨ ∃ items, data = .array items
  opens : environment.openFault = none
  writes : environment.writeFault data = none

variable {environment} {disk : Disk}

theorem mkdtemp_ok {start directory : List Char} (made : (mkdtemp environment start disk).1 = .ok directory) :
    mkdtemp environment start disk =
      (.ok directory, Function.update disk (resolve environment.cwd directory) true) := by
  unfold mkdtemp at made ⊢
  split at made
  next => cases made
  next suffix named =>
    dsimp only at made ⊢
    split_ifs at made ⊢ with present
    obtain rfl := Except.ok.inj made
    rfl

theorem writeFile_writable {path : List Char} {data : Value} (writable : Writable environment data) :
    writeFile environment path data disk =
      (.ok (), Function.update disk (resolve environment.cwd path) true) := by
  have opens := writable.opens
  have writes := writable.writes
  rcases writable.iterable with ⟨text, rfl⟩ | ⟨items, rfl⟩ <;> simp only [writeFile, opens, writes]

theorem writeFile_refused (path : List Char) (disk : Disk) {data : Value} (refused : ¬ Writable environment data) :
    ∃ error after, writeFile environment path data disk = (.error error, after) ∧
      ∀ other, other ≠ resolve environment.cwd path → after other = disk other := by
  have iterated (iterable : (∃ text, data = .string text) ∨ ∃ items, data = .array items) :
      ∃ error after, writeFile environment path data disk = (.error error, after) ∧
        ∀ other, other ≠ resolve environment.cwd path → after other = disk other := by
    cases opened : environment.openFault with
    | some fault =>
      refine ⟨.message fault, disk, ?_, fun _ _ => rfl⟩
      rcases iterable with ⟨text, rfl⟩ | ⟨items, rfl⟩ <;> simp only [writeFile, opened]
    | none =>
      cases wrote : environment.writeFault data with
      | none => exact absurd ⟨iterable, opened, wrote⟩ refused
      | some fault =>
        refine ⟨.message fault, Function.update disk (resolve environment.cwd path) true, ?_,
          fun other elsewhere => Function.update_of_ne elsewhere _ _⟩
        rcases iterable with ⟨text, rfl⟩ | ⟨items, rfl⟩ <;> simp only [writeFile, opened, wrote]
  cases data with
  | string text => exact iterated (.inl ⟨text, rfl⟩)
  | array items => exact iterated (.inr ⟨items, rfl⟩)
  | null | boolean value | number value | object entries => exact ⟨_, disk, rfl, fun _ _ => rfl⟩

variable {body : VerifyRequestBody} {directory : List Char} {resource : Value}

theorem useBuild_directory {compiled : Compiled}
    (truthy : resource.truthy = true)
    (made : (mkdtemp environment (join environment.tmpdir "miden-resource-".toList) disk).1 = .ok directory) :
    (useBuild environment (some resource) disk (.built compiled)).2 (resolve environment.cwd directory) = false ↔
      Writable environment resource ∧ environment.rmFault = none := by
  have given : (some resource).filter Value.truthy = some resource := by
    rw [Option.filter_some, if_pos truthy]
  simp only [useBuild, given, writeResourceFile, mkdtemp_ok made]
  have plain : Plain "resource.txt".toList := by decide
  generalize "resource.txt".toList = name at plain ⊢
  have apart : resolve environment.cwd directory ≠ resolve environment.cwd (join directory name) := by
    rw [resolve_join _ _ plain]
    exact fun same => List.cons_ne_nil _ _ (List.self_eq_append_right.mp same)
  have made : Function.update disk (resolve environment.cwd directory) true (resolve environment.cwd directory) =
      true := Function.update_self ..
  by_cases writable : Writable environment resource
  next =>
    simp only [writeFile_writable writable, removeDirs, resolve_dirname_join _ _ plain]
    cases removed : environment.rmFault with
    | none =>
      refine iff_of_true ?_ ⟨writable, rfl⟩
      simp
    | some fault =>
      refine iff_of_false ?_ (by simp)
      simp only [Function.update_of_ne apart, made]
      decide
  next =>
    obtain ⟨error, after, refused, kept⟩ := writeFile_refused (join directory name)
      (Function.update disk (resolve environment.cwd directory) true) writable
    simp only [refused]
    refine iff_of_false ?_ (fun holds => writable holds.1)
    rw [kept _ apart, made]
    decide

theorem postVerify_directory (makes : MakesDirectory environment body disk directory resource) :
    (postVerify environment body disk).2 (resolve environment.cwd directory) = false ↔
      Writable environment resource ∧ environment.rmFault = none := by
  obtain ⟨project, compiled, opened, built⟩ := makes.builds
  simp only [postVerify, opened, makes.networkId, makes.resourceId, built, makes.given]
  exact useBuild_directory makes.truthy makes.made

end

theorem postVerify_removes_iff (environment : Environment) (body : VerifyRequestBody) (disk : Disk) :
    (∀ directory resource, MakesDirectory environment body disk directory resource →
      (postVerify environment body disk).2 (resolve environment.cwd directory) = false) ↔
    ∀ directory resource, MakesDirectory environment body disk directory resource →
      Writable environment resource ∧ environment.rmFault = none := by
  constructor
  · intro removed directory resource makes
    exact (postVerify_directory makes).mp (removed directory resource makes)
  · intro writable directory resource makes
    exact (postVerify_directory makes).mpr (writable directory resource makes)

-- A machine without faults, whose every build succeeds.
def faultless : Environment where
  parseToml _ := some [("package", .object [("name", .string "counter")])]
  queueCompile _ _ := .ok (.built {
    package := ⟨[], counterRoot⟩
    masp := []
    kind := .accountComponent
    manifest := .null
    readOnly := .null
    files := []
    cargoMidenVersion := none
    debug := none })
  cwd := []
  tmpdir := "/tmp".toList
  suffix := .ok "aB3dE6".toList
  openFault := none
  writeFault _ := none
  verifier _ := .ok (.timedOut "miden-verifier timed out after 60s")
  parseOutput _ := none
  rmFault := none

def counterBody (resource : Value) : VerifyRequestBody where
  files := some (.object [("Cargo.toml", .string ""), ("miden-project.toml", .string "")])
  entrypoint := none
  networkId := some (.string "mtst")
  resourceId := some (.string "0x00")
  resource := some resource
  debug := none

theorem faultless_makesDirectory {resource : Value} (truthy : resource.truthy = true) :
    MakesDirectory faultless (counterBody resource) (fun _ => false) "/tmp/miden-resource-aB3dE6".toList resource where
  builds := ⟨⟨[("Cargo.toml", ""), ("miden-project.toml", "")], ".", "counter"⟩, _, rfl, rfl⟩
  networkId := rfl
  resourceId := rfl
  given := rfl
  truthy := truthy
  made := rfl

/-- A number is truthy, but nothing that can be written. -/
theorem postVerify_number_left :
    ¬ ∀ (environment : Environment) (body : VerifyRequestBody) (disk : Disk) (directory : List Char)
      (resource : Value), MakesDirectory environment body disk directory resource →
      (postVerify environment body disk).2 (resolve environment.cwd directory) = false := by
  intro removed
  have five : (Value.number (.finite 5)).truthy = true := by decide
  have gone := removed faultless _ _ _ _ (faultless_makesDirectory five)
  rcases ((postVerify_directory (faultless_makesDirectory five)).mp gone).1.iterable with
    ⟨text, same⟩ | ⟨items, same⟩
  · cases same
  · cases same

end SourceVerification.Compile.ResourceFile
