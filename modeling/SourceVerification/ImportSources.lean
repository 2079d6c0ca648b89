import Mathlib.Data.List.Nodup
import SourceVerification.InferEntrypoint
import SourceVerification.Shared.CodeUnits
import SourceVerification.Shared.Paths

set_option autoImplicit false

namespace SourceVerification

open CodeUnits (sort mem_sort)

structure PickedFile where
  webkitRelativePath : String
  name : String
  -- What `TextDecoder` reads of the file.
  text : String

def PickedFile.path (file : PickedFile) : String :=
  if file.webkitRelativePath = "" then file.name else file.webkitRelativePath

def stripRoot (path : String) : String :=
  match path.toList.dropWhile (· ≠ '/') with
  | [] => path
  | _ :: rest => String.ofList rest

def isSkippedDir (parents : List (List Char)) : Bool :=
  parents.any fun part => part == "target".toList || part.head? == some '.' && part != ".cargo".toList

def INCLUDED_NAMES : List String :=
  ["Cargo.toml", "Cargo.lock", "build.rs", "miden-project.toml", "rust-toolchain.toml"]

def isIncluded (rel : String) : Bool :=
  let parts := rel.toList.splitOn '/'
  let name := parts.getLastD []
  let parents := parts.dropLast
  parents.contains "src".toList || INCLUDED_NAMES.any (·.toList == name) ||
    name == "config.toml".toList && parents.getLast? == some ".cargo".toList

structure Selection where
  includedPaths : List String
  -- A `Set` of the directories, sorted when the loop has ended.
  entrypoints : List String

def selectPath (selection : Selection) (path : String) : Selection :=
  let rel := stripRoot path
  let parts := rel.toList.splitOn '/'
  let parents := parts.dropLast
  if isSkippedDir parents || !isIncluded rel then selection
  else
    let dir := String.ofList (['/'].intercalate parents)
    { includedPaths := selection.includedPaths ++ [rel]
      entrypoints :=
        if parts.getLastD [] = "Cargo.toml".toList ∧ dir ≠ "" then selection.entrypoints.insert dir
        else selection.entrypoints }

def selectProjectFiles (webkitRelativePaths : List String) : Selection :=
  let selection := webkitRelativePaths.foldl selectPath { includedPaths := [], entrypoints := [] }
  { selection with entrypoints := sort selection.entrypoints }

structure ProjectFiles where
  files : Files
  entrypoints : List String

-- `Object.fromEntries`
def fromEntries (entries : Files) : Files :=
  entries.foldl (fun files (path, text) => setFile path text files) []

def collectProjectFiles (fileList : List PickedFile) : ProjectFiles :=
  let { includedPaths, entrypoints } := selectProjectFiles (fileList.map PickedFile.path)
  let entries := fileList.map fun file => (stripRoot file.path, file.text)
  { files := fromEntries (entries.filter fun (rel, _) => rel ∈ includedPaths), entrypoints }

structure VerifyForm where
  files : Files
  entrypoints : List String
  entrypoint : String

def VerifyForm.onImport : ProjectFiles → VerifyForm
  | { files, entrypoints } => { files, entrypoints, entrypoint := entrypoints.head?.getD "." }

def VerifyForm.selectFolder (form : VerifyForm) (fileList : List PickedFile) : VerifyForm :=
  if fileList = [] then form else onImport (collectProjectFiles fileList)

def VerifyForm.offered (form : VerifyForm) : List String :=
  if form.entrypoints.length > 1 then form.entrypoints else []

structure PickedFolder where
  name : String
  files : Files
  plain : '/' ∉ name.toList
  names : ∀ file ∈ files, ∀ segment ∈ file.1.toList.splitOn '/', segment ≠ [] ∧ segment ≠ ['.'] ∧ segment ≠ ['.', '.']
  distinct : (files.map (·.1)).Nodup

def PickedFolder.fileList (folder : PickedFolder) : List PickedFile :=
  folder.files.map fun (path, text) =>
    { webkitRelativePath := folder.name ++ "/" ++ path
      name := String.ofList ((path.toList.splitOn '/').getLastD [])
      text }

-- The directories on the way to one, `.` for the root.
def dirParts (dir : String) : List (List Char) :=
  if dir = "." then [] else dir.toList.splitOn '/'

/-- A directory that isn't skipped, with a `Cargo.toml`. -/
structure PickedFolder.HasManifest (folder : PickedFolder) (dir : String) : Prop where
  kept : isSkippedDir (dirParts dir) = false
  cargoToml : (folder.files.lookup (projectPath dir "Cargo.toml")).isSome

section

variable (parse : String → Option (List (String × Json)))

structure PickedFolder.IsCrate (folder : PickedFolder) (dir : String) : Prop where
  kept : isSkippedDir (dirParts dir) = false
  cargoToml : ∃ cargoToml name, folder.files.lookup (projectPath dir "Cargo.toml") = some cargoToml ∧
    readCargoPackage parse cargoToml = .named name
  midenProject : (folder.files.lookup (projectPath dir "miden-project.toml")).isSome

/-- The form defaults to the directory or offers it. -/
def VerifyForm.Reaches (form : VerifyForm) (dir : String) : Prop :=
  form.entrypoint = dir ∨ dir ∈ form.offered

def VerifyForm.Submits (form : VerifyForm) (dir : String) : Prop :=
  form.Reaches dir ∧ ∃ project, openProject parse (some (filesJson form.files)) (some (.string dir)) = .ok project ∧
    project.entrypoint = dir

end

theorem stripRoot_join {root : String} (plain : '/' ∉ root.toList) (path : String) :
    stripRoot (root ++ "/" ++ path) = path := by
  have slash : (root ++ "/" ++ path).toList = root.toList ++ '/' :: path.toList := by
    simp [String.toList_append]
  have rest : (root.toList ++ '/' :: path.toList).dropWhile (· ≠ '/') = '/' :: path.toList := by
    rw [List.dropWhile_append_of_pos]
    · simp
    · intro char member
      simpa using fun same : char = '/' => plain (same ▸ member)
  rw [stripRoot, slash, rest]
  exact String.ofList_toList

def isCollected (rel : String) : Bool :=
  !isSkippedDir (rel.toList.splitOn '/').dropLast && isIncluded rel

theorem splitOn_cargoToml (dir : String) :
    (dir ++ "/" ++ "Cargo.toml").toList.splitOn '/' = dir.toList.splitOn '/' ++ ["Cargo.toml".toList] := by
  have file : "Cargo.toml".toList.splitOn '/' = ["Cargo.toml".toList] := by decide
  rw [splitOn_join, file]

-- Of a path without a `/`, `parents.join("/")` is empty.
theorem parents_join_eq_iff {rel dir : String} (below : dir ≠ "") :
    (rel.toList.splitOn '/').getLastD [] = "Cargo.toml".toList ∧
        String.ofList (['/'].intercalate (rel.toList.splitOn '/').dropLast) = dir ↔
      rel = dir ++ "/" ++ "Cargo.toml" := by
  constructor
  · rintro ⟨file, rfl⟩
    have some : rel.toList.splitOn '/' ≠ [] := List.splitOn_ne_nil '/' rel.toList
    have joined : ['/'].intercalate (rel.toList.splitOn '/') = rel.toList := List.intercalate_splitOn '/'
    have split := List.dropLast_append_getLast some
    rw [List.getLastD_eq_getLast?, List.getLast?_eq_some_getLast some, Option.getD_some] at file
    generalize (rel.toList.splitOn '/').dropLast = parents at below split
    have above : parents ≠ [] := by
      intro none
      simp [none] at below
    rw [← split, file, Paths.intercalate_concat _ above] at joined
    apply String.toList_injective
    simp [← joined, String.toList_append]
  · rintro rfl
    rw [splitOn_cargoToml, List.dropLast_concat, List.intercalate_splitOn]
    simp

structure Selects (paths : List String) (selection : Selection) : Prop where
  includedPaths : selection.includedPaths = (paths.map stripRoot).filter isCollected
  mem_entrypoints : ∀ dir, dir ∈ selection.entrypoints ↔
    dir ≠ "" ∧ dir ++ "/" ++ "Cargo.toml" ∈ selection.includedPaths
  distinct : selection.entrypoints.Nodup

theorem selectPath_collected (selection : Selection) {path : String} (collected : isCollected (stripRoot path) = true) :
    (selectPath selection path).includedPaths = selection.includedPaths ++ [stripRoot path] ∧
      (selection.entrypoints.Nodup → (selectPath selection path).entrypoints.Nodup) ∧
        ∀ dir, dir ∈ (selectPath selection path).entrypoints ↔ dir ∈ selection.entrypoints ∨
          dir ≠ "" ∧ stripRoot path = dir ++ "/" ++ "Cargo.toml" := by
  have passes : (isSkippedDir ((stripRoot path).toList.splitOn '/').dropLast ||
      !isIncluded (stripRoot path)) = false := by
    simpa [isCollected] using collected
  simp only [selectPath, passes, Bool.false_eq_true, if_false]
  refine ⟨trivial, ?_, ?_⟩
  · intro distinct
    split
    next => exact List.Nodup.insert distinct
    next => exact distinct
  · intro dir
    have names (below : dir ≠ "") : _ ↔ stripRoot path = _ := parents_join_eq_iff below
    split
    next added =>
      rw [List.mem_insert_iff, or_comm]
      refine or_congr_right ⟨?_, ?_⟩
      · rintro rfl
        exact ⟨added.2, (names added.2).mp ⟨added.1, rfl⟩⟩
      · rintro ⟨below, same⟩
        exact ((names below).mpr same).2.symm
    next kept =>
      rw [or_iff_left]
      rintro ⟨below, same⟩
      obtain ⟨file, rfl⟩ := (names below).mpr same
      exact kept ⟨file, below⟩

theorem selectPath_skipped (selection : Selection) {path : String} (skipped : ¬ isCollected (stripRoot path) = true) :
    selectPath selection path = selection := by
  have passes : (isSkippedDir ((stripRoot path).toList.splitOn '/').dropLast ||
      !isIncluded (stripRoot path)) = true := by
    simpa [isCollected, imp_iff_not_or] using skipped
  simp only [selectPath, passes, if_true]

theorem Selects.selectPath {paths : List String} {selection : Selection} (selects : Selects paths selection)
    (path : String) : Selects (paths ++ [path]) (selectPath selection path) := by
  by_cases collected : isCollected (stripRoot path) = true
  next =>
    obtain ⟨included, distinct, added⟩ := selectPath_collected selection collected
    constructor
    case includedPaths => simp [included, selects.includedPaths, collected]
    case mem_entrypoints =>
      intro dir
      rw [added, selects.mem_entrypoints, included, List.mem_append, List.mem_singleton, and_or_left,
        @eq_comm _ (stripRoot path)]
    case distinct => exact distinct selects.distinct
  next =>
    rw [selectPath_skipped selection collected]
    constructor
    case includedPaths => simp [selects.includedPaths, collected]
    case mem_entrypoints => exact selects.mem_entrypoints
    case distinct => exact selects.distinct

theorem selects_foldl (paths : List String) :
    Selects paths (paths.foldl selectPath { includedPaths := [], entrypoints := [] }) := by
  induction paths using List.reverseRecOn with
  | nil => exact ⟨rfl, by simp, List.nodup_nil⟩
  | append_singleton paths path ih =>
    rw [List.foldl_append]
    exact ih.selectPath path

theorem selectProjectFiles_selects (paths : List String) : Selects paths (selectProjectFiles paths) := by
  have selects := selects_foldl paths
  constructor
  case includedPaths => exact selects.includedPaths
  case mem_entrypoints => exact fun dir => mem_sort.trans (selects.mem_entrypoints dir)
  case distinct => exact (List.mergeSort_perm ..).nodup_iff.mpr selects.distinct

theorem setFile_new {files : Files} {path : String} (new : path ∉ files.map (·.1)) (text : String) :
    setFile path text files = files ++ [(path, text)] := by
  induction files with
  | nil => rfl
  | cons file rest ih =>
    rw [List.map_cons, List.mem_cons, not_or] at new
    simp [setFile, Ne.symm new.1, ih new.2]

theorem fromEntries_eq_self {entries : Files} (distinct : (entries.map (·.1)).Nodup) : fromEntries entries = entries := by
  induction entries using List.reverseRecOn with
  | nil => rfl
  | append_singleton entries entry ih =>
    rw [List.map_append, List.nodup_append] at distinct
    obtain ⟨before, -, apart⟩ := distinct
    have new : entry.1 ∉ entries.map (·.1) := fun old => apart _ old _ (by simp) rfl
    rw [fromEntries, List.foldl_append]
    rw [fromEntries] at ih
    rw [ih before]
    exact setFile_new new entry.2

namespace PickedFolder

variable (folder : PickedFolder)

theorem stripRoot_fileList :
    (folder.fileList.map fun file => (stripRoot file.path, file.text)) = folder.files := by
  have path (file : String × String) : folder.name ++ "/" ++ file.1 ≠ "" := by
    intro empty
    have length := congrArg (·.toList.length) empty
    simp [String.toList_append] at length
  simp [fileList, PickedFile.path, path, stripRoot_join folder.plain, Function.comp_def]

theorem map_stripRoot_path : (folder.fileList.map PickedFile.path).map stripRoot = folder.files.map (·.1) := by
  rw [← congrArg (List.map (·.1)) folder.stripRoot_fileList]
  simp

theorem collectProjectFiles_files :
    (collectProjectFiles folder.fileList).files = folder.files.filter fun (path, _) => isCollected path := by
  have selects := selectProjectFiles_selects (folder.fileList.map PickedFile.path)
  have collected : (folder.files.filter fun (path, _) =>
      path ∈ (selectProjectFiles (folder.fileList.map PickedFile.path)).includedPaths) =
        folder.files.filter fun (path, _) => isCollected path := by
    refine List.filter_congr fun file member => ?_
    have inside : file.1 ∈ folder.files.map (·.1) := List.mem_map_of_mem member
    rw [selects.includedPaths, map_stripRoot_path, Bool.eq_iff_iff]
    simp [List.mem_filter, inside]
  rw [collectProjectFiles]
  dsimp only
  rw [stripRoot_fileList, collected]
  exact fromEntries_eq_self (folder.distinct.sublist (List.filter_sublist.map _))

theorem not_cargoToml_dot {dir : String} (member : dir ++ "/" ++ "Cargo.toml" ∈ folder.files.map (·.1)) :
    dir ≠ "" ∧ dir ≠ "." := by
  obtain ⟨file, inside, same⟩ := List.mem_map.mp member
  have names := folder.names file inside
  rw [same, splitOn_cargoToml] at names
  constructor
  · rintro rfl
    exact absurd rfl (names [] (by decide)).1
  · rintro rfl
    exact absurd rfl (names ['.'] (by decide)).2.1

theorem isCollected_projectPath (dir : String) {file : String} (included : file ∈ INCLUDED_NAMES) :
    isCollected (projectPath dir file) = !isSkippedDir (dirParts dir) := by
  have single : file.toList.splitOn '/' = [file.toList] := by
    revert file
    decide
  have parts : (projectPath dir file).toList.splitOn '/' = dirParts dir ++ [file.toList] := by
    rw [splitOn_projectPath, single, dirParts]
  have named : isIncluded (projectPath dir file) = true := by
    simp only [isIncluded, parts, List.getLastD_concat, Bool.or_eq_true, List.any_eq_true, beq_iff_eq]
    exact .inl (.inr ⟨file, included, rfl⟩)
  rw [isCollected, parts, List.dropLast_concat, named, Bool.and_true]

theorem mem_entrypoints_iff_hasManifest {dir : String} :
    dir ∈ (collectProjectFiles folder.fileList).entrypoints ↔ dir ≠ "." ∧ folder.HasManifest dir := by
  have selects := selectProjectFiles_selects (folder.fileList.map PickedFile.path)
  have manifest : "Cargo.toml" ∈ INCLUDED_NAMES := by decide
  rw [collectProjectFiles]
  dsimp only
  rw [selects.mem_entrypoints, selects.includedPaths, map_stripRoot_path, List.mem_filter]
  constructor
  · rintro ⟨-, member, collected⟩
    obtain ⟨-, below⟩ := folder.not_cargoToml_dot member
    have path : projectPath dir "Cargo.toml" = dir ++ "/" ++ "Cargo.toml" := if_neg below
    rw [← path, isCollected_projectPath dir manifest, Bool.not_eq_true'] at collected
    rw [← path, mem_keys_iff] at member
    exact ⟨below, collected, member⟩
  · rintro ⟨below, has⟩
    have path : projectPath dir "Cargo.toml" = dir ++ "/" ++ "Cargo.toml" := if_neg below
    have member := mem_keys_iff.mpr has.cargoToml
    rw [path] at member
    refine ⟨(folder.not_cargoToml_dot member).1, member, ?_⟩
    rw [← path, isCollected_projectPath dir manifest, has.kept]
    rfl

theorem entrypoints_nodup : (collectProjectFiles folder.fileList).entrypoints.Nodup :=
  (selectProjectFiles_selects _).distinct

def PlainPaths : Prop :=
  ∀ file ∈ folder.files, isCollected file.1 = true → '\\' ∉ file.1.toList

theorem clean_iff_plainPaths :
    (∀ file ∈ (collectProjectFiles folder.fileList).files, isProjectRelativePath file.1 = true) ↔ folder.PlainPaths := by
  rw [collectProjectFiles_files]
  simp only [List.mem_filter, isProjectRelativePath_iff]
  constructor
  · exact fun clean file member collected => (clean file ⟨member, collected⟩).1
  · rintro plain file ⟨member, collected⟩
    exact ⟨plain file member collected, folder.names file member⟩

variable {folder} {dir : String} {parse : String → Option (List (String × Json))}

theorem HasManifest.fileList_ne_nil (has : folder.HasManifest dir) : folder.fileList ≠ [] := by
  intro empty
  have files : folder.files = [] := List.map_eq_nil_iff.mp empty
  have found := has.cargoToml
  simp [files] at found

theorem HasManifest.selectFolder (has : folder.HasManifest dir) (form : VerifyForm) :
    form.selectFolder folder.fileList = .onImport (collectProjectFiles folder.fileList) :=
  if_neg has.fileList_ne_nil

theorem IsCrate.hasManifest (crate : folder.IsCrate parse dir) : folder.HasManifest dir := by
  obtain ⟨cargoToml, name, found, -⟩ := crate.cargoToml
  exact ⟨crate.kept, by simp [found]⟩

theorem lookup_collected (kept : isSkippedDir (dirParts dir) = false) {file : String} (included : file ∈ INCLUDED_NAMES) :
    (collectProjectFiles folder.fileList).files.lookup (projectPath dir file) =
      folder.files.lookup (projectPath dir file) := by
  rw [collectProjectFiles_files]
  refine lookup_filter folder.files ?_
  rw [isCollected_projectPath dir included, kept]
  rfl

theorem IsCrate.normal (crate : folder.IsCrate parse dir) (plain : folder.PlainPaths) :
    normalizeEntrypoint (some (.string dir)) = some dir := by
  by_cases root : dir = "."
  next => subst root; rfl
  next =>
    have has := crate.hasManifest
    have path : projectPath dir "Cargo.toml" = dir ++ "/" ++ "Cargo.toml" := if_neg root
    have manifest : "Cargo.toml" ∈ INCLUDED_NAMES := by decide
    have collected := isCollected_projectPath dir manifest
    obtain ⟨file, inside, same⟩ := List.mem_map.mp (mem_keys_iff.mpr has.cargoToml)
    rw [has.kept, ← same] at collected
    have clean : isProjectRelativePath file.1 = true :=
      isProjectRelativePath_iff.mpr ⟨plain file inside collected, folder.names file inside⟩
    rw [same, path] at clean
    exact normalizeEntrypoint_clean (isProjectRelativePath_join.mp clean).1

theorem IsCrate.opens_iff (crate : folder.IsCrate parse dir) :
    (∃ project, openProject parse (some (filesJson (collectProjectFiles folder.fileList).files)) (some (.string dir)) =
      .ok project ∧ project.entrypoint = dir) ↔ folder.PlainPaths := by
  rw [← clean_iff_plainPaths]
  constructor
  · rintro ⟨project, opened, -⟩
    obtain ⟨same, -, checked⟩ := openProject_eq_ok opened
    rw [filesJson_injective (Option.some.inj same)]
    exact checked.paths
  · intro clean
    have normal := crate.normal ((clean_iff_plainPaths folder).mp clean)
    obtain ⟨cargoToml, name, found, named⟩ := crate.cargoToml
    have midenProject := crate.midenProject
    rw [← lookup_collected crate.kept (by decide)] at found midenProject
    have opened : Opened parse
        { files := (collectProjectFiles folder.fileList).files, entrypoint := dir, name := name } :=
      ⟨clean, normal, ⟨cargoToml, found, named⟩, midenProject⟩
    exact ⟨_, opened.reopens normal, rfl⟩

end PickedFolder

namespace VerifyForm

variable {result : ProjectFiles} {dir : String}

theorem reaches_of_mem (listed : dir ∈ result.entrypoints) : (onImport result).Reaches dir := by
  obtain ⟨files, entrypoints⟩ := result
  match entrypoints, listed with
  | [only], listed => exact .inl (List.mem_singleton.mp listed).symm
  | head :: next :: rest, listed => exact .inr (by simpa [onImport, offered] using listed)

theorem reaches_root (none : result.entrypoints = []) : (onImport result).Reaches "." := by
  simp [Reaches, onImport, none]

theorem reaches_iff_mem {first second : String} (apart : first ≠ second) (firstListed : first ∈ result.entrypoints)
    (secondListed : second ∈ result.entrypoints) : (onImport result).Reaches dir ↔ dir ∈ result.entrypoints := by
  obtain ⟨files, entrypoints⟩ := result
  match entrypoints with
  | [only] =>
    rw [List.mem_singleton] at firstListed secondListed
    exact absurd (firstListed.trans secondListed.symm) apart
  | head :: next :: rest =>
    simp only [Reaches, onImport, offered, List.head?_cons, Option.getD_some]
    simp +contextual [eq_comm]

end VerifyForm

theorem PickedFolder.HasManifest.reaches_iff {folder : PickedFolder} {first second : String}
    (has : folder.HasManifest first) (also : folder.HasManifest second) (apart : first ≠ second)
    (firstBelow : first ≠ ".") (secondBelow : second ≠ ".") (form : VerifyForm) (dir : String) :
    (form.selectFolder folder.fileList).Reaches dir ↔ dir ≠ "." ∧ folder.HasManifest dir := by
  rw [has.selectFolder, ← folder.mem_entrypoints_iff_hasManifest]
  exact VerifyForm.reaches_iff_mem apart (folder.mem_entrypoints_iff_hasManifest.mpr ⟨firstBelow, has⟩)
    (folder.mem_entrypoints_iff_hasManifest.mpr ⟨secondBelow, also⟩)

/-- A crate is submitted, where no other manifest takes the root's place, exactly when no collected path
is refused. With two other manifests the form has just these to submit. -/
theorem selectFolder_submits (parse : String → Option (List (String × Json))) (form : VerifyForm)
    (folder : PickedFolder) :
    (∀ dir, folder.IsCrate parse dir →
      (dir = "." → ∀ other, folder.HasManifest other → other = ".") →
        ((form.selectFolder folder.fileList).Submits parse dir ↔ folder.PlainPaths)) ∧
      ∀ first second, first ≠ second → first ≠ "." → second ≠ "." →
        folder.HasManifest first → folder.HasManifest second →
          ∀ dir, (form.selectFolder folder.fileList).Reaches dir ↔ dir ≠ "." ∧ folder.HasManifest dir := by
  constructor
  · intro dir crate alone
    rw [crate.hasManifest.selectFolder, ← crate.opens_iff]
    refine and_iff_right ?_
    by_cases root : dir = "."
    next =>
      have none : (collectProjectFiles folder.fileList).entrypoints = [] := by
        refine List.eq_nil_iff_forall_not_mem.mpr fun other listed => ?_
        obtain ⟨below, has⟩ := folder.mem_entrypoints_iff_hasManifest.mp listed
        exact below (alone root other has)
      exact root ▸ VerifyForm.reaches_root none
    next => exact VerifyForm.reaches_of_mem (folder.mem_entrypoints_iff_hasManifest.mpr ⟨root, crate.hasManifest⟩)
  · intro first second apart firstBelow secondBelow has also dir
    exact has.reaches_iff also apart firstBelow secondBelow form dir

def crateFiles (dir name : String) : Files :=
  [(projectPath dir "Cargo.toml", "[package]\nname = \"" ++ name ++ "\"\n"), (projectPath dir "miden-project.toml", "")]

def quotedName (text : String) : Option (List (String × Json)) :=
  some [("package", .object [("name", .string (String.ofList ((text.toList.splitOn '"').getD 1 [])))])]

def walletBesideTwo : PickedFolder where
  name := "wallet"
  files := crateFiles "." "wallet" ++ crateFiles "math" "math" ++ crateFiles "asset" "asset"
  plain := by decide
  names := by decide
  distinct := by decide

def backslashed : PickedFolder where
  name := "wallet"
  files := crateFiles "." "wallet" ++ [("src/a\\b.rs", "")]
  plain := by decide
  names := by decide
  distinct := by decide

def emptyForm : VerifyForm :=
  { files := [], entrypoints := [], entrypoint := "." }

theorem math_submitted : (emptyForm.selectFolder walletBesideTwo.fileList).Submits quotedName "math" ∧
    ∀ dir, (emptyForm.selectFolder walletBesideTwo.fileList).Reaches dir ↔
      dir ≠ "." ∧ walletBesideTwo.HasManifest dir := by
  have math : walletBesideTwo.IsCrate quotedName "math" := ⟨by decide, ⟨_, "math", rfl, by rfl⟩, by decide⟩
  have asset : walletBesideTwo.HasManifest "asset" := ⟨by decide, by decide⟩
  obtain ⟨submits, reaches⟩ := selectFolder_submits quotedName emptyForm walletBesideTwo
  constructor
  · refine (submits "math" math fun root => absurd root (by decide)).mpr ?_
    unfold PickedFolder.PlainPaths
    decide
  · exact reaches "math" "asset" (by decide) (by decide) (by decide) math.hasManifest asset

/-- The root isn't an entrypoint beside two others, and no file with a backslash in its name is taken. -/
theorem wallet_not_submitted :
    (walletBesideTwo.IsCrate quotedName "." ∧
      ¬ (emptyForm.selectFolder walletBesideTwo.fileList).Submits quotedName ".") ∧
      backslashed.IsCrate quotedName "." ∧
        ¬ (emptyForm.selectFolder backslashed.fileList).Submits quotedName "." := by
  refine ⟨⟨⟨by decide, ⟨_, "wallet", rfl, by rfl⟩, by decide⟩, ?_⟩, ?_⟩
  · rintro ⟨reached, -⟩
    have math : walletBesideTwo.HasManifest "math" := ⟨by decide, by decide⟩
    have asset : walletBesideTwo.HasManifest "asset" := ⟨by decide, by decide⟩
    have below := (math.reaches_iff asset (by decide) (by decide) (by decide) emptyForm ".").mp reached
    exact below.1 rfl
  · have crate : backslashed.IsCrate quotedName "." := ⟨by decide, ⟨_, "wallet", rfl, by rfl⟩, by decide⟩
    refine ⟨crate, ?_⟩
    rintro ⟨-, opened⟩
    rw [crate.hasManifest.selectFolder] at opened
    have plain := crate.opens_iff.mp opened
    exact plain ("src/a\\b.rs", "") (by decide) (by decide) (by decide)

end SourceVerification
