import SourceVerification.Project

set_option autoImplicit false

namespace SourceVerification

def filesJson (files : Files) : Json :=
  .object (files.map fun (path, content) => (path, .string content))

def setFile (path content : String) : Files → Files
  | [] => [(path, content)]
  | (other, text) :: rest =>
    if other = path then (path, content) :: rest else (other, text) :: setFile path content rest

/-- A `Cargo.lock` at a clean path. -/
def IsLockfile (path : String) : Prop :=
  isProjectRelativePath path = true ∧
    (path = "Cargo.lock" ∨ ∃ directory, path = directory ++ "/Cargo.lock")

theorem isProjectRelativePath_iff {path : String} : isProjectRelativePath path = true ↔
    '\\' ∉ path.toList ∧
      ∀ segment ∈ path.toList.splitOn '/', segment ≠ [] ∧ segment ≠ ['.'] ∧ segment ≠ ['.', '.'] := by
  simp only [isProjectRelativePath, Bool.and_eq_true, Bool.not_eq_true', List.all_eq_true, bne_iff_ne,
    List.isEmpty_eq_false_iff, and_assoc, List.contains_eq_mem, decide_eq_false_iff_not]
  constructor
  · exact And.right
  · rintro ⟨plain, segments⟩
    refine ⟨?_, plain, segments⟩
    intro empty
    rw [empty] at segments
    exact absurd rfl (segments [] (by decide)).1

theorem isProjectRelativePath_segments {path : String} (clean : isProjectRelativePath path = true) :
    path.toList ≠ [] ∧ ∀ segment ∈ path.toList.splitOn '/', segment ≠ [] ∧ segment ≠ ['.'] := by
  obtain ⟨-, segments⟩ := isProjectRelativePath_iff.mp clean
  refine ⟨?_, fun segment member => ⟨(segments segment member).1, (segments segment member).2.1⟩⟩
  intro empty
  rw [empty] at segments
  exact absurd rfl (segments [] (by decide)).1

theorem splitOn_join (directory file : String) : (directory ++ "/" ++ file).toList.splitOn '/' =
    directory.toList.splitOn '/' ++ file.toList.splitOn '/' := by
  have slash : (directory ++ "/" ++ file).toList = directory.toList ++ '/' :: file.toList := by
    simp [String.toList_append]
  rw [slash, List.splitOn_append_cons_self]

theorem splitOn_projectPath {dir : String} (file : String) : (projectPath dir file).toList.splitOn '/' =
    (if dir = "." then [] else dir.toList.splitOn '/') ++ file.toList.splitOn '/' := by
  unfold projectPath
  split
  · rfl
  · exact splitOn_join dir file

theorem isProjectRelativePath_join {directory file : String} :
    isProjectRelativePath (directory ++ "/" ++ file) = true ↔
      isProjectRelativePath directory = true ∧ isProjectRelativePath file = true := by
  have plain : '\\' ∉ (directory ++ "/" ++ file).toList ↔
      '\\' ∉ directory.toList ∧ '\\' ∉ file.toList := by
    simp [String.toList_append]
  simp only [isProjectRelativePath_iff, splitOn_join, plain, List.forall_mem_append]
  exact and_and_and_comm

theorem normalizeEntrypoint_clean {dir : String} (clean : isProjectRelativePath dir = true) :
    normalizeEntrypoint (some (.string dir)) = some dir := by
  obtain ⟨nonempty, segments⟩ := isProjectRelativePath_segments clean
  have undotted : dropDotSlash dir.toList = dir.toList := by
    unfold dropDotSlash
    split
    next rest slash =>
      rw [slash] at segments
      have first : ['.'] ∈ (['.'] ++ '/' :: rest).splitOn '/' := by
        rw [List.splitOn_append_cons_self]
        exact List.mem_append_left _ (by decide)
      exact absurd rfl (segments _ first).2
    next => rfl
  have relative : dir.toList.head? ≠ some '/' := by
    intro slash
    obtain ⟨rest, slash⟩ := List.head?_eq_some_iff.mp slash
    rw [slash] at segments
    have first : [] ∈ ([] ++ '/' :: rest).splitOn '/' := by
      rw [List.splitOn_append_cons_self]
      exact List.mem_append_left _ (by decide)
    exact absurd rfl (segments _ first).1
  have trimmed : dir.toList.rdropWhile (· = '/') = dir.toList := by
    refine List.rdropWhile_eq_self_iff.mpr fun present slash => ?_
    have split := List.dropLast_append_getLast present
    rw [of_decide_eq_true slash] at split
    have last : [] ∈ dir.toList.splitOn '/' := by
      rw [← split, List.splitOn_append_cons_self]
      exact List.mem_append_right _ (by decide)
    exact absurd rfl (segments _ last).1
  have named : dir.toList ≠ ['.'] := by
    intro dot
    rw [dot] at segments
    exact absurd rfl (segments ['.'] (by decide)).2
  simp [normalizeEntrypoint, undotted, relative, trimmed, nonempty, named, clean]

theorem normalizeEntrypoint_eq_some {value : Option Json} {dir : String}
    (normalized : normalizeEntrypoint value = some dir) :
    dir = "." ∨ isProjectRelativePath dir = true := by
  unfold normalizeEntrypoint at normalized
  split at normalized
  next => exact .inl (Option.some.inj normalized).symm
  next =>
    dsimp only at normalized
    split at normalized
    next => cases normalized
    next =>
      split at normalized
      next => exact .inl (Option.some.inj normalized).symm
      next =>
        split at normalized
        next clean => exact .inr (Option.some.inj normalized ▸ clean)
        next => cases normalized
  next => cases normalized

theorem normalizeEntrypoint_fixed {value : Option Json} {dir : String}
    (normalized : normalizeEntrypoint value = some dir) :
    normalizeEntrypoint (some (.string dir)) = some dir := by
  rcases normalizeEntrypoint_eq_some normalized with rfl | clean
  · rfl
  · exact normalizeEntrypoint_clean clean

section

variable {parse : String → Option (List (String × Json))}

structure Opened (parse : String → Option (List (String × Json))) (project : Project) : Prop where
  paths : ∀ file ∈ project.files, isProjectRelativePath file.1 = true
  normal : normalizeEntrypoint (some (.string project.entrypoint)) = some project.entrypoint
  cargoToml : ∃ cargoToml, project.files.lookup (projectPath project.entrypoint "Cargo.toml") = some cargoToml ∧
    readCargoPackage parse cargoToml = .named project.name
  midenProject : (project.files.lookup (projectPath project.entrypoint "miden-project.toml")).isSome

theorem invalidFile_none {entries : List (String × Json)} (valid : invalidFile entries = none) :
    entries = (fileContents entries).map (fun (path, content) => (path, .string content)) ∧
      ∀ file ∈ fileContents entries, isProjectRelativePath file.1 = true := by
  induction entries with
  | nil => exact ⟨rfl, by simp [fileContents]⟩
  | cons entry rest ih =>
    obtain ⟨path, content⟩ := entry
    cases content with
    | string text =>
      by_cases clean : isProjectRelativePath path = true
      next =>
        simp only [invalidFile, clean, if_true] at valid
        obtain ⟨same, paths⟩ := ih valid
        constructor
        · simp only [fileContents, List.filterMap_cons, List.map_cons]
          rw [List.cons.injEq]
          exact ⟨rfl, same⟩
        · simpa [fileContents, clean] using paths
      next => simp [invalidFile, clean] at valid
    | _ => by_cases clean : isProjectRelativePath path = true <;> simp [invalidFile, clean] at valid

theorem invalidFile_files {files : Files} (paths : ∀ file ∈ files, isProjectRelativePath file.1 = true) :
    invalidFile (files.map fun (path, content) => (path, .string content)) = none := by
  induction files with
  | nil => rfl
  | cons file rest ih =>
    have clean := paths file (List.mem_cons_self ..)
    simp only [List.map_cons, invalidFile, clean, if_true]
    exact ih fun other member => paths other (List.mem_cons_of_mem _ member)

theorem fileContents_files (files : Files) :
    fileContents (files.map fun (path, content) => (path, .string content)) = files := by
  simp [fileContents, List.filterMap_map]

theorem openProject_eq_ok {files entrypoint : Option Json} {project : Project}
    (opened : openProject parse files entrypoint = .ok project) :
    files = some (filesJson project.files) ∧ normalizeEntrypoint entrypoint = some project.entrypoint ∧
      Opened parse project := by
  unfold openProject at opened
  split at opened
  next entries =>
    split at opened
    next => cases opened
    next valid =>
      dsimp only at opened
      split at opened
      next => cases opened
      next dir normalized =>
        split at opened
        next => cases opened
        next cargoToml found =>
          split at opened
          next => cases opened
          next present =>
            split at opened
            next => cases opened
            next => cases opened
            next name named =>
              obtain rfl := Except.ok.inj opened
              obtain ⟨same, paths⟩ := invalidFile_none valid
              refine ⟨congrArg (some ∘ Json.object) same, normalized, paths,
                normalizeEntrypoint_fixed normalized, ⟨cargoToml, found, named⟩, ?_⟩
              simpa [Option.isSome_iff_ne_none] using present
  next => cases opened

theorem Opened.reopens {project : Project} (opened : Opened parse project) {entrypoint : Option Json}
    (normalized : normalizeEntrypoint entrypoint = some project.entrypoint) :
    openProject parse (some (filesJson project.files)) entrypoint = .ok project := by
  obtain ⟨cargoToml, found, named⟩ := opened.cargoToml
  have present : (project.files.lookup
      (projectPath project.entrypoint "miden-project.toml")).isNone = false := by
    simpa using opened.midenProject
  simp [openProject, filesJson, invalidFile_files opened.paths, fileContents_files, normalized, found,
    present, named]

theorem mem_keys_iff {files : Files} {path : String} : path ∈ files.map (·.1) ↔ (files.lookup path).isSome := by
  induction files with
  | nil => simp
  | cons file rest ih =>
    obtain ⟨name, text⟩ := file
    by_cases same : path = name
    next => simp [same]
    next =>
      have apart : (path == name) = false := by simpa using same
      rw [List.lookup_cons, apart, ← ih, List.map_cons, List.mem_cons, or_iff_right same]

theorem lookup_filter (files : Files) {keep : String → Bool} {path : String} (kept : keep path = true) :
    (files.filter fun (other, _) => keep other).lookup path = files.lookup path := by
  induction files with
  | nil => rfl
  | cons file rest ih =>
    obtain ⟨name, text⟩ := file
    by_cases same : path = name
    next =>
      subst same
      simp [kept]
    next =>
      have apart : (path == name) = false := by simpa using same
      rw [List.lookup_cons, apart, ← ih]
      cases keeps : keep name <;> simp [keeps, List.lookup_cons, apart]

theorem lookup_setFile (files : Files) {path other : String} (content : String) (different : other ≠ path) :
    (setFile path content files).lookup other = files.lookup other := by
  induction files with
  | nil => simp [setFile, different]
  | cons file rest ih =>
    obtain ⟨name, text⟩ := file
    by_cases same : name = path
    next =>
      subst same
      have apart : (other == name) = false := by simpa using different
      simp [setFile, List.lookup_cons, apart]
    next => simp only [setFile, same, if_false, List.lookup_cons, ih]

theorem mem_setFile {files : Files} {path content : String} {file : String × String}
    (member : file ∈ setFile path content files) : file = (path, content) ∨ file ∈ files := by
  induction files with
  | nil => exact .inl (List.mem_singleton.mp member)
  | cons first rest ih =>
    unfold setFile at member
    split at member
    next => exact (List.mem_cons.mp member).imp id (List.mem_cons_of_mem _)
    next =>
      rcases List.mem_cons.mp member with rfl | later
      · exact .inr (List.mem_cons_self ..)
      · exact (ih later).imp id (List.mem_cons_of_mem _)

theorem IsLockfile.getLast? {path : String} (lockfile : IsLockfile path) :
    path.toList.getLast? = some 'k' := by
  rcases lockfile.2 with rfl | ⟨directory, rfl⟩
  · decide
  · simp [String.toList_append]

theorem projectPath_getLast? (entrypoint : String) {file : String} {last : Char}
    (ends : file.toList.getLast? = some last) : (projectPath entrypoint file).toList.getLast? = some last := by
  unfold projectPath
  split
  · exact ends
  · rw [String.toList_append, List.getLast?_append, ends]
    rfl

theorem Opened.setLockfile {project : Project} (opened : Opened parse project) {path : String}
    (lockfile : IsLockfile path) (content : String) :
    Opened parse { project with files := setFile path content project.files } := by
  have other {file : String} (ends : file.toList.getLast? = some 'l') :
      (setFile path content project.files).lookup (projectPath project.entrypoint file) =
        project.files.lookup (projectPath project.entrypoint file) := by
    refine lookup_setFile project.files content ?_
    rintro rfl
    have same := (projectPath_getLast? project.entrypoint ends).symm.trans lockfile.getLast?
    exact absurd same (by decide)
  constructor
  case paths =>
    intro file member
    rcases mem_setFile member with rfl | old
    · exact lockfile.1
    · exact opened.paths file old
  case normal => exact opened.normal
  case cargoToml =>
    rw [other (by decide)]
    exact opened.cargoToml
  case midenProject =>
    rw [other (by decide)]
    exact opened.midenProject

end

end SourceVerification
