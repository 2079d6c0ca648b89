import SourceVerification.InferEntrypoint
import SourceVerification.Registry.Reopening
import SourceVerification.Shared.CodeUnits

set_option autoImplicit false

namespace SourceVerification.Viewer

open CodeUnits
open Registry (PackageRow ServiceCall serveAll)

def MANIFESTS : List String := ["Cargo.toml", "miden-project.toml"]

def isDisplayedSourceFile (path : String) : Bool :=
  let parts := path.toList.splitOn '/'
  let name := parts.getLastD []
  MANIFESTS.any (·.toList == name) || ".rs".toList.isSuffixOf name && parts.dropLast.contains "src".toList

def filterSourceFiles (files : Files) : Files :=
  files.filter fun (path, _) => isDisplayedSourceFile path

section

variable (parse : String → Option (List (String × Json)))

def crateEntry (files : Files) (packageName path : String) : Option String :=
  if path ≠ "Cargo.toml" ∧ "/Cargo.toml".toList.isSuffixOf path.toList = false then none
  else
    let libPath := String.ofList (path.toList.take (path.toList.length - "Cargo.toml".toList.length)) ++ "src/lib.rs"
    if (files.lookup libPath).isSome ∧
        cargoPackageName parse ((files.lookup path).getD "") = some packageName then
      some libPath
    else none

def findEntryFile (files : Files) (packageName : String) : Option String :=
  let paths := sort (files.map (·.1))
  match paths.findSome? (crateEntry parse files packageName) with
  | some libPath => some libPath
  | none =>
    match paths.find? fun path => path = "src/lib.rs" || "/src/lib.rs".toList.isSuffixOf path.toList with
    | some path => some path
    | none => paths.head?

-- `loadPackageSources`
def entryPath (row : PackageRow) : Option String :=
  findEntryFile parse (filterSourceFiles row.files) row.name

/-- A crate of the package's name, with a `src/lib.rs`. -/
structure CrateAt (files : Files) (name dir : String) : Prop where
  normal : normalizeEntrypoint (some (.string dir)) = some dir
  named : ∃ cargoToml, files.lookup (projectPath dir "Cargo.toml") = some cargoToml ∧
    cargoPackageName parse cargoToml = some name
  lib : (files.lookup (projectPath dir "src/lib.rs")).isSome

end

theorem displayed_cargoToml (dir : String) : isDisplayedSourceFile (projectPath dir "Cargo.toml") = true := by
  have file : "Cargo.toml".toList.splitOn '/' = ["Cargo.toml".toList] := by decide
  rw [isDisplayedSourceFile, splitOn_projectPath, file]
  simp [MANIFESTS]

theorem displayed_lib (dir : String) : isDisplayedSourceFile (projectPath dir "src/lib.rs") = true := by
  have file : "src/lib.rs".toList.splitOn '/' = ["src".toList, "lib.rs".toList] := by decide
  have rust : ".rs".toList.isSuffixOf "lib.rs".toList = true := by decide
  rw [isDisplayedSourceFile, splitOn_projectPath, file]
  rw [List.getLastD_eq_getLast?, List.getLast?_append_of_ne_nil _ (by simp), List.dropLast_append_of_ne_nil (by simp)]
  simp only [List.getLast?_cons_cons, List.getLast?_singleton, Option.getD_some, rust, Bool.true_and,
    List.dropLast_cons_cons, List.dropLast_singleton, Bool.or_eq_true]
  exact .inr (by simp)

theorem lookup_filterSourceFiles (files : Files) {path : String} (displayed : isDisplayedSourceFile path = true) :
    (filterSourceFiles files).lookup path = files.lookup path :=
  lookup_filter files displayed

section

variable {parse : String → Option (List (String × Json))} {files : Files} {name dir : String}

theorem crateEntry_projectPath (normal : normalizeEntrypoint (some (.string dir)) = some dir) :
    crateEntry parse files name (projectPath dir "Cargo.toml") =
      if (files.lookup (projectPath dir "src/lib.rs")).isSome ∧
          cargoPackageName parse ((files.lookup (projectPath dir "Cargo.toml")).getD "") = some name then
        some (projectPath dir "src/lib.rs")
      else none := by
  have libPath (before : String) : String.ofList ((before ++ "Cargo.toml").toList.take
      ((before ++ "Cargo.toml").toList.length - "Cargo.toml".toList.length)) ++ "src/lib.rs" =
        before ++ "src/lib.rs" := by
    rw [String.toList_append, List.length_append, Nat.add_sub_cancel, List.take_left', String.ofList_toList]
    rfl
  rcases normalizeEntrypoint_eq_self.mp normal with rfl | clean
  next =>
    have placed : projectPath "." "Cargo.toml" = "" ++ "Cargo.toml" := by decide
    rw [crateEntry, placed, libPath]
    rfl
  next =>
    have below : dir ≠ "." := by
      rintro rfl
      exact absurd clean (by decide)
    have suffix : "/Cargo.toml".toList.isSuffixOf (dir ++ "/" ++ "Cargo.toml").toList = true := by
      rw [List.isSuffixOf_iff_suffix]
      exact ⟨dir.toList, by simp [String.toList_append]⟩
    rw [projectPath, if_neg below, projectPath, if_neg below, crateEntry, libPath, suffix]
    simp

theorem projectPath_injective {other file : String} (same : projectPath dir file = projectPath other file) :
    dir = other := by
  have longer (directory : String) : directory ++ "/" ++ file ≠ file := by
    intro equal
    have length := congrArg (·.toList.length) equal
    simp only [String.toList_append, List.length_append] at length
    have slash : "/".toList.length = 1 := by decide
    omega
  unfold projectPath at same
  split_ifs at same with first second second
  next => rw [first, second]
  next => exact absurd same.symm (longer other)
  next => exact absurd same (longer dir)
  next =>
    have texts := congrArg String.toList same
    simp only [String.toList_append, List.append_cancel_right_eq] at texts
    exact String.toList_injective texts

theorem mem_displayed_iff {path : String} (displayed : isDisplayedSourceFile path = true) :
    path ∈ (filterSourceFiles files).map (·.1) ↔ (files.lookup path).isSome := by
  rw [mem_keys_iff, lookup_filterSourceFiles files displayed]

theorem crateEntry_eq_some_iff (normal : normalizeEntrypoint (some (.string dir)) = some dir)
    (key : projectPath dir "Cargo.toml" ∈ (filterSourceFiles files).map (·.1)) {libPath : String} :
    crateEntry parse (filterSourceFiles files) name (projectPath dir "Cargo.toml") = some libPath ↔
      libPath = projectPath dir "src/lib.rs" ∧ CrateAt parse files name dir := by
  obtain ⟨cargoToml, found⟩ := Option.isSome_iff_exists.mp
    ((mem_displayed_iff (displayed_cargoToml dir)).mp key)
  rw [crateEntry_projectPath normal, lookup_filterSourceFiles files (displayed_lib dir),
    lookup_filterSourceFiles files (displayed_cargoToml dir), found, Option.getD_some]
  constructor
  · intro entry
    split_ifs at entry with crate
    exact ⟨(Option.some.inj entry).symm, normal, ⟨cargoToml, found, crate.2⟩, crate.1⟩
  · rintro ⟨rfl, crate⟩
    obtain ⟨other, same, named⟩ := crate.named
    obtain rfl := Option.some.inj (found.symm.trans same)
    exact if_pos ⟨crate.lib, named⟩

-- Only a `Cargo.toml` has an entry file next to it.
theorem eq_projectPath_of_crateEntry {path : String} (clean : isProjectRelativePath path = true)
    (entry : (crateEntry parse files name path).isSome) :
    ∃ dir, normalizeEntrypoint (some (.string dir)) = some dir ∧ path = projectPath dir "Cargo.toml" := by
  have located : ∃ dir, cargoTomlDir path = some dir := by
    unfold crateEntry at entry
    split at entry
    next => cases entry
    next manifest =>
      unfold cargoTomlDir
      split_ifs with root suffix
      next => exact ⟨_, rfl⟩
      next => exact ⟨_, rfl⟩
      next => exact absurd ⟨root, Bool.not_eq_true _ ▸ suffix⟩ manifest
  obtain ⟨dir, located⟩ := located
  obtain ⟨normal, same⟩ := (cargoTomlDir_eq_some clean).mp located
  exact ⟨dir, normal, same.symm⟩

theorem findEntryFile_iff (clean : ∀ file ∈ files, isProjectRelativePath file.1 = true)
    (crate : CrateAt parse files name dir) :
    findEntryFile parse (filterSourceFiles files) name = some (projectPath dir "src/lib.rs") ↔
      ∀ other, CrateAt parse files name other →
        ¬ codeUnits (projectPath other "Cargo.toml") < codeUnits (projectPath dir "Cargo.toml") := by
  have key {other : String} (crate : CrateAt parse files name other) :
      projectPath other "Cargo.toml" ∈ (filterSourceFiles files).map (·.1) := by
    obtain ⟨cargoToml, found, -⟩ := crate.named
    exact (mem_displayed_iff (displayed_cargoToml other)).mpr (by simp [found])
  have entry {other : String} (crate : CrateAt parse files name other) :
      crateEntry parse (filterSourceFiles files) name (projectPath other "Cargo.toml") =
        some (projectPath other "src/lib.rs") :=
    (crateEntry_eq_some_iff crate.normal (key crate)).mpr ⟨rfl, crate⟩
  have first : ((sort ((filterSourceFiles files).map (·.1))).findSome?
      (crateEntry parse (filterSourceFiles files) name)).isSome := by
    rw [List.findSome?_isSome_iff]
    exact ⟨_, mem_sort.mpr (key crate), by simp [entry crate]⟩
  obtain ⟨libPath, found⟩ := Option.isSome_iff_exists.mp first
  have opened : findEntryFile parse (filterSourceFiles files) name =
      (sort ((filterSourceFiles files).map (·.1))).findSome?
        (crateEntry parse (filterSourceFiles files) name) := by
    rw [findEntryFile, found]
  rw [opened, findSome?_sort_eq_some_iff]
  have manifest {path : String} (member : path ∈ (filterSourceFiles files).map (·.1))
      (entered : (crateEntry parse (filterSourceFiles files) name path).isSome) :
      ∃ other, path = projectPath other "Cargo.toml" ∧ CrateAt parse files name other := by
    obtain ⟨file, inside, rfl⟩ := List.mem_map.mp member
    obtain ⟨other, normal, same⟩ :=
      eq_projectPath_of_crateEntry (clean file (List.mem_filter.mp inside).1) entered
    obtain ⟨libPath, entered⟩ := Option.isSome_iff_exists.mp entered
    rw [same] at member entered
    exact ⟨other, same, ((crateEntry_eq_some_iff normal member).mp entered).2⟩
  constructor
  · rintro ⟨path, member, here, least⟩ other decoy
    obtain ⟨directory, rfl, found⟩ := manifest member (by simp [here])
    have same := (crateEntry_eq_some_iff found.normal member).mp here
    obtain rfl := projectPath_injective same.1
    exact not_lt.mpr (least _ (key decoy) (by simp [entry decoy]))
  · intro first
    refine ⟨_, key crate, entry crate, fun path member entered => ?_⟩
    obtain ⟨other, rfl, decoy⟩ := manifest member entered
    exact not_lt.mp (first other decoy)

end

/-- The page opens the file the package was built from unless a crate of the same name sorts before. -/
theorem entryPath_iff (parse : String → Option (List (String × Json))) {calls : List ServiceCall}
    (builds : ∀ call ∈ calls, call.BuildsWith parse) {row : PackageRow}
    (recorded : row ∈ (serveAll calls).db.packages) {entrypoint : String}
    (placed : row.entrypoint = some entrypoint)
    (lib : (row.files.lookup (projectPath entrypoint "src/lib.rs")).isSome) :
    entryPath parse row = some (projectPath entrypoint "src/lib.rs") ↔
      ∀ other, CrateAt parse row.files row.name other →
        ¬ codeUnits (projectPath other "Cargo.toml") < codeUnits (projectPath entrypoint "Cargo.toml") := by
  obtain ⟨request, project, -, opened, named, builtAt, files⟩ := Registry.serveAll_from builds row recorded
  obtain ⟨-, -, checked⟩ := openProject_eq_ok opened
  have stored := files.opened checked
  obtain rfl : project.entrypoint = entrypoint := Option.some.inj (builtAt.symm.trans placed)
  obtain ⟨cargoToml, found, package⟩ := stored.cargoToml
  refine findEntryFile_iff stored.paths ⟨stored.normal, ⟨cargoToml, found, ?_⟩, lib⟩
  rw [cargoPackageName, package, named]

def decoyFiles : Files :=
  [("Cargo.toml", ""), ("miden-project.toml", ""), ("src/lib.rs", ""), ("counter/Cargo.toml", ""),
    ("counter/miden-project.toml", ""), ("counter/src/lib.rs", "")]

def decoyPost (entrypoint : String) : Registry.PostRequest :=
  { Registry.lockedPost with
    files := some (filesJson decoyFiles)
    entrypoint := some (.string entrypoint) }

theorem decoyPost_recorded : ∃ row ∈ (serveAll [.post (decoyPost "counter")]).db.packages,
    row.entrypoint = some "counter" ∧ row.name = "counter" ∧
      row.files = setFile "Cargo.lock" "version = 4" decoyFiles := by
  decide +kernel

theorem rootPost_recorded : ∃ row ∈ (serveAll [.post (decoyPost ".")]).db.packages,
    row.entrypoint = some "." ∧ row.files = setFile "Cargo.lock" "version = 4" decoyFiles := by
  decide +kernel

theorem decoyPost_builds (entrypoint : String) : ∀ call ∈ [ServiceCall.post (decoyPost entrypoint)],
    call.BuildsWith Compile.counterApi.parseToml := by
  intro call member
  obtain rfl := List.mem_singleton.mp member
  exact ⟨rfl, Registry.counterToolchain, rfl⟩

/-- Built at the root the crate is opened; built below, the decoy may stand before it. -/
theorem decoyPost_entryPath :
    (∃ row ∈ (serveAll [.post (decoyPost ".")]).db.packages,
      entryPath Compile.counterApi.parseToml row = some (projectPath "." "src/lib.rs")) ∧
    ∃ row ∈ (serveAll [.post (decoyPost "counter")]).db.packages,
      (entryPath Compile.counterApi.parseToml row = some (projectPath "counter" "src/lib.rs") ↔
        ∀ other, CrateAt Compile.counterApi.parseToml row.files row.name other →
          ¬ codeUnits (projectPath other "Cargo.toml") < codeUnits (projectPath "counter" "Cargo.toml")) := by
  constructor
  · obtain ⟨row, recorded, placed, files⟩ := rootPost_recorded
    refine ⟨row, recorded, (entryPath_iff _ (decoyPost_builds ".") recorded placed ?_).mpr ?_⟩
    · rw [files]
      decide
    · intro other crate
      obtain ⟨cargoToml, found, -⟩ := crate.named
      have key := mem_keys_iff.mpr (Option.isSome_of_mem found)
      have keys : ∀ path ∈ (setFile "Cargo.lock" "version = 4" decoyFiles).map (·.1),
          path.toList.getLast? = some 'l' → ¬ codeUnits path < codeUnits (projectPath "." "Cargo.toml") := by
        decide +kernel
      rw [files] at key
      exact keys _ key (projectPath_getLast? other (by decide))
  · obtain ⟨row, recorded, placed, -, files⟩ := decoyPost_recorded
    refine ⟨row, recorded, entryPath_iff _ (decoyPost_builds "counter") recorded placed ?_⟩
    rw [files]
    decide

theorem decoy_opened_first :
    ¬ ∀ (parse : String → Option (List (String × Json))) (calls : List ServiceCall) (row : PackageRow)
        (entrypoint : String),
      (∀ call ∈ calls, call.BuildsWith parse) → row ∈ (serveAll calls).db.packages →
        row.entrypoint = some entrypoint →
          (row.files.lookup (projectPath entrypoint "src/lib.rs")).isSome →
            entryPath parse row = some (projectPath entrypoint "src/lib.rs") := by
  intro opens
  obtain ⟨row, recorded, placed, named, files⟩ := decoyPost_recorded
  have opened := opens _ _ row "counter" (decoyPost_builds "counter") recorded placed (by rw [files]; decide)
  have clean : ∀ file ∈ setFile "Cargo.lock" "version = 4" decoyFiles, isProjectRelativePath file.1 = true := by
    decide
  have crate (dir : String) (normal : normalizeEntrypoint (some (.string dir)) = some dir)
      (manifest : ((setFile "Cargo.lock" "version = 4" decoyFiles).lookup (projectPath dir "Cargo.toml")) = some "")
      (lib : ((setFile "Cargo.lock" "version = 4" decoyFiles).lookup (projectPath dir "src/lib.rs")).isSome) :
      CrateAt Compile.counterApi.parseToml (setFile "Cargo.lock" "version = 4" decoyFiles) "counter" dir :=
    ⟨normal, ⟨"", manifest, rfl⟩, lib⟩
  rw [entryPath, files, named] at opened
  have first := (findEntryFile_iff clean (crate "counter" (by decide) (by decide) (by decide))).mp opened
    "." (crate "." (by decide) (by decide) (by decide))
  exact absurd (by decide) first

end SourceVerification.Viewer
