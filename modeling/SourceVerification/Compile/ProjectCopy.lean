import Mathlib.Data.List.Nodup
import SourceVerification.InferEntrypoint
import SourceVerification.Shared.FileTree
import SourceVerification.Shared.Paths
import SourceVerification.SubmittedProject

set_option autoImplicit false

namespace SourceVerification.Compile

open Paths

def segments (path : String) : List Name :=
  path.toList.splitOn '/'

-- `join(tmpDir, path)`
def fullPath (tmpDir : List Char) (path : String) : List Char :=
  join tmpDir path.toList

theorem segments_plain {path : String} (clean : isProjectRelativePath path = true) :
    ∀ segment ∈ segments path, Plain segment := by
  obtain ⟨-, checked⟩ := isProjectRelativePath_iff.mp clean
  intro segment member
  obtain ⟨nonempty, dot, dotDot⟩ := checked segment member
  exact ⟨nonempty, dot, dotDot, not_mem_of_mem_splitOn member⟩

theorem segments_ne_nil (path : String) : segments path ≠ [] :=
  List.splitOn_ne_nil '/' path.toList

theorem segments_injective : Function.Injective segments := by
  intro path other same
  have texts := congrArg (List.intercalate ['/']) same
  rw [segments, segments, List.intercalate_splitOn, List.intercalate_splitOn] at texts
  exact String.toList_injective texts

section

variable {tmpDir : List Char} (absolute : isAbsolute tmpDir = true)

include absolute

theorem fullPath_clean {path : String} (clean : isProjectRelativePath path = true) :
    fullPath tmpDir path = text (names tmpDir ++ segments path) :=
  join_plain absolute (segments_plain clean)

theorem names_fullPath {path : String} (clean : isProjectRelativePath path = true) :
    names (fullPath tmpDir path) = names tmpDir ++ segments path := by
  rw [fullPath_clean absolute clean]
  refine names_text fun name member => ?_
  rcases List.mem_append.mp member with above | below
  · exact names_plain absolute name above
  · exact segments_plain clean name below

theorem fullPath_strictlyInside {path : String} (clean : isProjectRelativePath path = true) :
    StrictlyInside tmpDir (fullPath tmpDir path) where
  absolute := by
    rw [fullPath_clean absolute clean]
    exact isAbsolute_text _
  below := by
    rw [names_fullPath absolute clean]
    exact List.prefix_append _ _
  other := by
    rw [names_fullPath absolute clean]
    simpa using segments_ne_nil path

theorem projectDir_inside {value : Option Json} {entrypoint : String}
    (normalized : normalizeEntrypoint value = some entrypoint) :
    Inside tmpDir (fullPath tmpDir entrypoint) := by
  rcases normalizeEntrypoint_eq_some normalized with rfl | clean
  · obtain ⟨below, same⟩ := names_join absolute (show ".".toList ≠ [] by decide)
    refine ⟨below, ?_⟩
    have here : ".".toList.splitOn '/' = [dot] := by decide
    rw [fullPath, same, here]
    simp [push]
  · exact (fullPath_strictlyInside absolute clean).toInside

end

/-- Nothing an accepted request names is outside its own copy, and no two of its files share a path. -/
theorem openProject_paths_inside {parse : String → Option (List (String × Json))}
    {files entrypoint : Option Json} {project : Project}
    (opened : openProject parse files entrypoint = .ok project) {tmpDir : List Char}
    (absolute : isAbsolute tmpDir = true) :
    (∀ file ∈ project.files, StrictlyInside tmpDir (fullPath tmpDir file.1)) ∧
      (∀ file ∈ project.files, ∀ other ∈ project.files, file.1 ≠ other.1 →
        fullPath tmpDir file.1 ≠ fullPath tmpDir other.1) ∧
      Inside tmpDir (fullPath tmpDir project.entrypoint) := by
  obtain ⟨-, normalized, checked⟩ := openProject_eq_ok opened
  refine ⟨fun file member => fullPath_strictlyInside absolute (checked.paths file member), ?_,
    projectDir_inside absolute normalized⟩
  intro file member other otherMember differs same
  have sameNames := congrArg names same
  rw [names_fullPath absolute (checked.paths file member),
    names_fullPath absolute (checked.paths other otherMember)] at sameNames
  exact differs (segments_injective (List.append_cancel_left sameNames))

theorem counterWithDependency_paths_inside :
    (∀ file ∈ counterWithDependency,
        StrictlyInside "/tmp/miden-project-a".toList (fullPath "/tmp/miden-project-a".toList file.1)) ∧
      (∀ file ∈ counterWithDependency, ∀ other ∈ counterWithDependency, file.1 ≠ other.1 →
        fullPath "/tmp/miden-project-a".toList file.1 ≠ fullPath "/tmp/miden-project-a".toList other.1) ∧
      Inside "/tmp/miden-project-a".toList (fullPath "/tmp/miden-project-a".toList "math") :=
  openProject_paths_inside
    (show openProject nameOnly (some (filesJson counterWithDependency)) (some (.string "math/")) =
      .ok { files := counterWithDependency, entrypoint := "math", name := "math" } from rfl) (by decide)

section

variable (accepts : List Name → Bool) (tmpDir : List Char)

-- `mkdir` of the file's directory, then `writeFile`.
def writeProjectFile (path content : String) (tree : FileTree Name) :
    Except FileTree.Errno (FileTree Name) :=
  let dir := upToLastSlash (fullPath tmpDir path)
  if dir = [] then .error .ENOENT
  else
    match FileTree.mkdir accepts [] (names dir) tree with
    | .error error => .error error
    | .ok tree =>
      match (names (fullPath tmpDir path)).getLast? with
      | none => .error .EISDIR
      | some name =>
        FileTree.writeFile accepts (names (fullPath tmpDir path)).dropLast name content tree

-- The write loop of `buildProject`.
def writeProjectFiles : Files → FileTree Name → Except FileTree.Errno (FileTree Name)
  | [], tree => .ok tree
  | (path, content) :: rest, tree =>
    match writeProjectFile accepts tmpDir path content tree with
    | .error error => .error error
    | .ok tree => writeProjectFiles rest tree

end

/-- A directory that `mkdtemp` made, so not the root. -/
structure EmptyDirectory (tree : FileTree Name) (tmpDir : List Char) : Prop where
  absolute : isAbsolute tmpDir = true
  named : names tmpDir ≠ []
  directory : tree.node (names tmpDir) = some .directory
  empty : ∀ below ≠ [], tree.node (names tmpDir ++ below) = none

/-- The directory holds these files, in the directories they are in, and nothing else. -/
structure Holds (tree : FileTree Name) (tmpDir : List Char) (files : Files) : Prop where
  file : ∀ below content, tree.node (names tmpDir ++ below) = some (.file content) ↔
    ∃ file ∈ files, segments file.1 = below ∧ file.2 = content
  directory : ∀ below, tree.node (names tmpDir ++ below) = some .directory ↔
    below = [] ∨ ∃ file ∈ files, below <+: segments file.1 ∧ below ≠ segments file.1

/-- The file system takes the path of a file and of each directory it is in. -/
def Accepted (accepts : List Name → Bool) (tmpDir : List Char) (path : String) : Prop :=
  ∀ below, below <+: segments path → below ≠ [] → accepts (names tmpDir ++ below) = true

section

variable {accepts : List Name → Bool} {tmpDir : List Char} {tree : FileTree Name}

theorem EmptyDirectory.holds (empty : EmptyDirectory tree tmpDir) : Holds tree tmpDir [] where
  file := by
    intro below content
    by_cases here : below = []
    next => simp [here, empty.directory]
    next => simp [empty.empty below here]
  directory := by
    intro below
    by_cases here : below = []
    next => simp [here, empty.directory]
    next => simp [here, empty.empty below here]

theorem Holds.congr {files others : Files} (holds : Holds tree tmpDir files)
    (same : ∀ file, file ∈ files ↔ file ∈ others) : Holds tree tmpDir others where
  file below content := by simpa only [same] using holds.file below content
  directory below := by simpa only [same] using holds.directory below

theorem writeProjectFile_clean (absolute : isAbsolute tmpDir = true) (named : names tmpDir ≠ [])
    (there : tree.node (names tmpDir) = some .directory) {path content : String}
    (clean : isProjectRelativePath path = true) {dirs : List Name} {name : Name}
    (split : segments path = dirs ++ [name]) :
    writeProjectFile accepts tmpDir path content tree =
      match FileTree.mkdir accepts (names tmpDir) dirs tree with
      | .error error => .error error
      | .ok tree => FileTree.writeFile accepts (names tmpDir ++ dirs) name content tree := by
  have plain := segments_plain clean
  rw [split] at plain
  have placed : names (fullPath tmpDir path) = names tmpDir ++ dirs ++ [name] := by
    rw [names_fullPath absolute clean, split, List.append_assoc]
  have above : names tmpDir ++ dirs ≠ [] := by simp [named]
  have dir : upToLastSlash (fullPath tmpDir path) = text (names tmpDir ++ dirs) := by
    rw [fullPath_clean absolute clean, split, ← List.append_assoc]
    exact upToLastSlash_text (plain name (by simp)).slash above
  have dirNames : names (text (names tmpDir ++ dirs)) = names tmpDir ++ dirs := by
    refine names_text fun other member => ?_
    rcases List.mem_append.mp member with outer | inner
    · exact names_plain absolute other outer
    · exact plain other (List.mem_append_left _ inner)
  rw [writeProjectFile, dir, dirNames, placed]
  simp only [text, List.cons_ne_nil, if_false, List.getLast?_append_of_ne_nil, ne_eq, not_false_eq_true,
    List.getLast?_singleton, List.dropLast_concat]
  rw [FileTree.mkdir_existing (by simpa using there), List.nil_append]

def Apart (path other : String) : Prop :=
  ¬ segments path <+: segments other ∧ ¬ segments other <+: segments path

theorem dirs_prefix_iff {path : String} {dirs below : List Name} {name : Name}
    (split : segments path = dirs ++ [name]) :
    below <+: dirs ↔ below <+: segments path ∧ below ≠ segments path := by
  rw [split, List.prefix_concat_iff]
  constructor
  · intro above
    refine ⟨.inr above, ?_⟩
    rintro rfl
    have longer := above.length_le
    simp only [List.length_append, List.length_singleton] at longer
    omega
  · rintro ⟨same | above, other⟩
    · exact absurd same other
    · exact above

theorem writeProjectFile_ok (absolute : isAbsolute tmpDir = true) (named : names tmpDir ≠ [])
    {files : Files} (holds : Holds tree tmpDir files) {path : String} (content : String)
    (clean : isProjectRelativePath path = true) (apart : ∀ file ∈ files, Apart file.1 path)
    (accepted : Accepted accepts tmpDir path) :
    ∃ after, writeProjectFile accepts tmpDir path content tree = .ok after ∧
      ∀ below, after.node (names tmpDir ++ below) =
        if below = segments path then some (.file content)
        else if below <+: segments path then some .directory
        else tree.node (names tmpDir ++ below) := by
  obtain ⟨dirs, name, split⟩ : ∃ dirs name, segments path = dirs ++ [name] :=
    ⟨_, _, (List.dropLast_append_getLast (segments_ne_nil path)).symm⟩
  have within {below : List Name} (on_way : below <+: dirs) : below <+: segments path :=
    ((dirs_prefix_iff split).mp on_way).1
  have there : tree.node (names tmpDir) = some .directory := by
    simpa using (holds.directory []).mpr (.inl rfl)
  obtain ⟨made, makes, madeNodes⟩ := FileTree.mkdir_ok there
    (fun below on_way text found => by
      obtain ⟨file, member, same, -⟩ := (holds.file below text).mp found
      exact (apart file member).1 (same ▸ within on_way))
    (fun below on_way nonempty => accepted below (within on_way) nonempty)
  have free : made.node (names tmpDir ++ dirs ++ [name]) ≠ some .directory := by
    rw [madeNodes, List.append_assoc, ← split]
    simp only [List.prefix_append, List.prefix_append_right_inj, dirs_prefix_iff split, ne_eq, not_true,
      and_false, if_false]
    intro found
    rcases (holds.directory (segments path)).mp found with none | ⟨file, member, above, -⟩
    · exact segments_ne_nil path none
    · exact (apart file member).2 above
  have placed : accepts (names tmpDir ++ dirs ++ [name]) = true := by
    rw [List.append_assoc, ← split]
    exact accepted _ (List.prefix_refl _) (segments_ne_nil path)
  obtain ⟨after, writes, afterNodes⟩ :=
    FileTree.writeFile_ok content (by simp [madeNodes]) free placed
  refine ⟨after, ?_, fun below => ?_⟩
  · rw [writeProjectFile_clean absolute named there clean split, makes]
    exact writes
  · rw [afterNodes, List.append_assoc, ← split, Function.update_apply, madeNodes]
    simp only [List.append_cancel_left_eq, List.prefix_append, List.prefix_append_right_inj, true_and,
      dirs_prefix_iff split]
    by_cases itself : below = segments path
    next => simp [itself]
    next => simp [itself]

theorem Holds.cons {files : Files} (holds : Holds tree tmpDir files) {path content : String}
    (apart : ∀ file ∈ files, Apart file.1 path) {after : FileTree Name}
    (nodes : ∀ below, after.node (names tmpDir ++ below) =
      if below = segments path then some (.file content)
      else if below <+: segments path then some .directory
      else tree.node (names tmpDir ++ below)) :
    Holds after tmpDir ((path, content) :: files) where
  file := by
    intro below text
    rw [nodes]
    split_ifs with itself above
    next =>
      subst itself
      have others : ¬ ∃ file ∈ files, segments file.1 = segments path ∧ file.2 = text := by
        rintro ⟨file, member, same, -⟩
        exact (apart file member).1 (same ▸ List.prefix_refl _)
      simp [others]
    next =>
      have others : ¬ ∃ file ∈ files, segments file.1 = below ∧ file.2 = text := by
        rintro ⟨file, member, same, -⟩
        exact (apart file member).1 (same ▸ above)
      simpa [Ne.symm itself] using others
    next => simpa [Ne.symm itself] using holds.file below text
  directory := by
    intro below
    rw [nodes]
    split_ifs with itself above
    next =>
      subst itself
      have others : ¬ ∃ file ∈ files, segments path <+: segments file.1 ∧ segments path ≠ segments file.1 := by
        rintro ⟨file, member, above, -⟩
        exact (apart file member).2 above
      simpa [segments_ne_nil] using others
    next => simp [above, itself]
    next => simpa [above] using holds.directory below

theorem writeProjectFiles_ok (absolute : isAbsolute tmpDir = true) (named : names tmpDir ≠ [])
    {files rest : Files} (holds : Holds tree tmpDir files)
    (clean : ∀ file ∈ rest, isProjectRelativePath file.1 = true)
    (apart : ∀ file ∈ rest, ∀ other ∈ files, Apart other.1 file.1)
    (pairwise : rest.Pairwise fun file other => Apart file.1 other.1)
    (accepted : ∀ file ∈ rest, Accepted accepts tmpDir file.1) :
    ∃ after, writeProjectFiles accepts tmpDir rest tree = .ok after ∧ Holds after tmpDir (files ++ rest) := by
  induction rest generalizing tree files with
  | nil => exact ⟨tree, rfl, by simpa using holds⟩
  | cons file rest ih =>
    obtain ⟨path, content⟩ := file
    have first : (path, content) ∈ (path, content) :: rest := List.mem_cons_self ..
    have fresh := apart (path, content) first
    obtain ⟨later, pairwise⟩ := List.pairwise_cons.mp pairwise
    obtain ⟨written, writes, nodes⟩ := writeProjectFile_ok absolute named holds
      content (clean _ first) fresh (accepted _ first)
    obtain ⟨after, done, all⟩ := ih (holds.cons fresh nodes)
      (fun other member => clean other (List.mem_cons_of_mem _ member))
      (fun other member previous old => by
        rcases List.mem_cons.mp old with rfl | old
        · exact later other member
        · exact apart other (List.mem_cons_of_mem _ member) previous old)
      pairwise (fun other member => accepted other (List.mem_cons_of_mem _ member))
    refine ⟨after, ?_, all.congr fun other => ?_⟩
    · rw [writeProjectFiles, writes]
      exact done
    · simp only [List.mem_append, List.mem_cons]
      tauto

theorem writeProjectFile_grows {path content : String} {after : FileTree Name}
    (written : writeProjectFile accepts tmpDir path content tree = .ok after) :
    FileTree.Grows accepts tree after := by
  unfold writeProjectFile at written
  dsimp only at written
  split at written
  next => cases written
  next =>
    split at written
    next => cases written
    next made makes =>
      split at written
      next => cases written
      next => exact (FileTree.mkdir_grows makes).trans (FileTree.writeFile_grows written)

theorem writeProjectFiles_grows {files : Files} {after : FileTree Name}
    (written : writeProjectFiles accepts tmpDir files tree = .ok after) :
    FileTree.Grows accepts tree after := by
  induction files generalizing tree with
  | nil =>
    obtain rfl := Except.ok.inj written
    exact FileTree.Grows.refl tree
  | cons file rest ih =>
    obtain ⟨path, content⟩ := file
    unfold writeProjectFiles at written
    split at written
    next => cases written
    next first writes => exact (writeProjectFile_grows writes).trans (ih written)

theorem segments_join (directory file : String) :
    segments (directory ++ "/" ++ file) = segments directory ++ segments file :=
  splitOn_join directory file

-- Of two paths, one is a directory of the other when it is what comes before a `/`.
theorem segments_prefix_iff {path other : String} : segments path <+: segments other ↔
    path = other ∨ ∃ rest, other = path ++ "/" ++ rest := by
  constructor
  · rintro ⟨below, same⟩
    by_cases none : below = []
    next =>
      rw [none, List.append_nil] at same
      exact .inl (segments_injective same)
    next =>
      refine .inr ⟨String.ofList (List.intercalate ['/'] below), segments_injective ?_⟩
      have plain : ∀ name ∈ below, '/' ∉ name := by
        intro name member
        have inside : name ∈ segments other := same ▸ List.mem_append_right _ member
        exact not_mem_of_mem_splitOn inside
      have restored : segments (String.ofList (List.intercalate ['/'] below)) = below := by
        rw [segments, String.toList_ofList, List.splitOn_intercalate '/' plain none]
      rw [segments_join, restored, same]
  · rintro (rfl | ⟨rest, rfl⟩)
    · exact List.prefix_refl _
    · rw [segments_join]
      exact List.prefix_append _ _

theorem apart_iff {path other : String} (differs : path ≠ other) : Apart path other ↔
    (∀ rest, other ≠ path ++ "/" ++ rest) ∧ ∀ rest, path ≠ other ++ "/" ++ rest := by
  simp [Apart, segments_prefix_iff, differs, Ne.symm differs]

end

theorem written_iff {files : Files} (clean : ∀ file ∈ files, isProjectRelativePath file.1 = true)
    (distinct : (files.map (·.1)).Nodup) (accepts : List Name → Bool) {tree : FileTree Name}
    {tmpDir : List Char} (empty : EmptyDirectory tree tmpDir) :
    (∃ after, writeProjectFiles accepts tmpDir files tree = .ok after ∧ Holds after tmpDir files) ↔
      (∀ file ∈ files, Accepted accepts tmpDir file.1) ∧
        ∀ file ∈ files, ∀ other ∈ files, ∀ rest, other.1 ≠ file.1 ++ "/" ++ rest := by
  constructor
  · rintro ⟨after, written, holds⟩
    have present {file : String × String} (member : file ∈ files) :
        after.node (names tmpDir ++ segments file.1) = some (.file file.2) :=
      (holds.file _ _).mpr ⟨file, member, rfl, rfl⟩
    constructor
    · intro file member below above nonempty
      have reached : after.node (names tmpDir ++ below) ≠ none := by
        refine after.present_of_prefix ((List.prefix_append_right_inj _).mpr above) ?_
        simp [present member]
      rcases writeProjectFiles_grows written _ reached with before | accepted
      · exact absurd (empty.empty below nonempty) before
      · exact accepted
    · intro file member other otherMember rest same
      have inside : after.node (names tmpDir ++ segments file.1 ++ segments rest) ≠ none := by
        rw [List.append_assoc, ← segments_join, ← same, present otherMember]
        simp
      have directory := after.directory_of_append inside (segments_ne_nil rest)
      rw [present member] at directory
      cases directory
  · rintro ⟨accepted, prefixFree⟩
    have pairwise : files.Pairwise fun file other => Apart file.1 other.1 := by
      refine (List.pairwise_map.mp distinct).imp_of_mem fun {file other} member otherMember differs => ?_
      exact (apart_iff differs).mpr
        ⟨prefixFree file member other otherMember, prefixFree other otherMember file member⟩
    exact writeProjectFiles_ok empty.absolute empty.named empty.holds clean (by simp) pairwise accepted

def onlyDirectory (path : List Name) : FileTree Name where
  node other := if other <+: path then some .directory else none
  root := if_pos (List.nil_prefix)
  parent := by
    intro other name present
    have inside : other ++ [name] <+: path := by
      by_contra outside
      exact present (if_neg outside)
    exact if_pos ((List.prefix_append _ _).trans inside)

theorem onlyDirectory_empty {tmpDir : List Char} (absolute : isAbsolute tmpDir = true)
    (named : names tmpDir ≠ []) : EmptyDirectory (onlyDirectory (names tmpDir)) tmpDir where
  absolute := absolute
  named := named
  directory := if_pos (List.prefix_refl _)
  empty := by
    intro below nonempty
    refine if_neg fun above => nonempty ?_
    have longer := above.length_le
    rw [List.length_append] at longer
    exact List.eq_nil_of_length_eq_zero (by omega)

end SourceVerification.Compile

namespace SourceVerification.Submitted

open Compile Paths Utf16

def utf8 (units : Text) : String := String.ofList (decode units)

-- The write loop of `buildProject`. `join` only cuts and glues the path at `/`, so the UTF-8 of each name is its own.
def writeProjectFiles (accepts : List Name → Bool) (tmpDir : List Char) (files : Files) :
    FileTree Name → Except FileTree.Errno (FileTree Name) :=
  Compile.writeProjectFiles accepts tmpDir (files.map fun (path, content) => (utf8 path, utf8 content))

/-- What the directory has under its names are these files, under their keys. -/
def Holds (tree : FileTree Name) (tmpDir : List Char) (files : Files) : Prop :=
  ∃ written, files = written.map file ∧ Compile.Holds tree tmpDir written

theorem utf8_text (string : String) : utf8 (text string) = string := by
  rw [utf8, text, decode_encode, String.ofList_toList]

theorem text_utf8 {units : Text} (wellFormed : isWellFormed units = true) : text (utf8 units) = units := by
  rw [utf8, text, String.toList_ofList, encode_decode wellFormed]

theorem isWellFormed_text (string : String) : isWellFormed (text string) = true :=
  isWellFormed_encode string.toList

theorem writeProjectFiles_text (accepts : List Name → Bool) (tmpDir : List Char) (files : SourceVerification.Files)
    (tree : FileTree Name) :
    writeProjectFiles accepts tmpDir (files.map file) tree = Compile.writeProjectFiles accepts tmpDir files tree := by
  have same : (files.map file).map (fun (path, content) => (utf8 path, utf8 content)) = files := by
    rw [List.map_map, List.map_congr_left (g := id) fun _ _ => Prod.ext (utf8_text _) (utf8_text _), List.map_id]
  rw [writeProjectFiles, same]

theorem invalidFile_none {entries : List (Text × Value)} (valid : invalidFile entries = none) :
    ∀ file ∈ fileContents entries, isProjectRelativePath file.1 = true := by
  induction entries with
  | nil => simp [fileContents]
  | cons entry rest ih =>
    obtain ⟨path, content⟩ := entry
    by_cases clean : isProjectRelativePath path = true
    next =>
      cases content with
      | string content =>
        simp only [invalidFile, clean, if_true] at valid
        simpa [fileContents, clean] using ih valid
      | null | boolean | number | array | object => simp [invalidFile, clean] at valid
    next => simp [invalidFile, clean] at valid

theorem openProject_paths {parse : Text → Option (List (Text × Value))} {files entrypoint : Option Value}
    {project : Project} (opened : openProject parse files entrypoint = .ok project) :
    ∀ file ∈ project.files, isProjectRelativePath file.1 = true := by
  unfold openProject at opened
  split at opened
  next entries =>
    split at opened
    next => cases opened
    next valid =>
      dsimp only at opened
      split at opened
      next => cases opened
      next =>
        split at opened
        next => cases opened
        next =>
          split at opened
          next => cases opened
          next =>
            split at opened
            next => cases opened
            next => cases opened
            next =>
              obtain rfl := Except.ok.inj opened
              exact invalidFile_none valid
  next => cases opened

theorem text_below_iff {path other : String} :
    (∃ rest, text other = text path ++ slash :: rest) ↔ ∃ rest, other = path ++ "/" ++ rest := by
  constructor
  · rintro ⟨rest, same⟩
    have split := congrArg (List.splitOn slash) same
    rw [List.splitOn_append_cons_self, splitOn_text, splitOn_text] at split
    have above : (segments path).map encode <+: (segments other).map encode := split ▸ List.prefix_append _ _
    have inside := (List.prefix_map_iff_of_injective encode_injective).mp above
    rcases segments_prefix_iff.mp inside with rfl | below
    · exact absurd (congrArg List.length same) (by simp)
    · exact below
  · rintro ⟨rest, rfl⟩
    have slashed : text "/" = [slash] := by decide
    exact ⟨text rest, by rw [text_append, text_append, slashed, List.append_assoc, List.singleton_append]⟩

/-- The files of a project are written to an empty directory exactly when none of their keys and contents has a lone
surrogate, the file system takes their paths, and none of them is a directory of another. -/
theorem writeProjectFiles_iff {parse : Text → Option (List (Text × Value))} {files entrypoint : Option Value}
    {project : Project} (opened : openProject parse files entrypoint = .ok project)
    (distinct : (project.files.map (·.1)).Nodup) (accepts : List Name → Bool) {tree : FileTree Name}
    {tmpDir : List Char} (empty : EmptyDirectory tree tmpDir) :
    (∃ after, writeProjectFiles accepts tmpDir project.files tree = .ok after ∧ Holds after tmpDir project.files) ↔
      (∀ file ∈ project.files, isWellFormed file.1 = true ∧ isWellFormed file.2 = true) ∧
        (∀ file ∈ project.files, Accepted accepts tmpDir (utf8 file.1)) ∧
          ∀ file ∈ project.files, ∀ other ∈ project.files, ∀ rest, other.1 ≠ file.1 ++ slash :: rest := by
  have paths := openProject_paths opened
  -- Of text, both sides are those of its strings.
  have whole {written : SourceVerification.Files} (same : project.files = written.map file) :
      (∃ after, writeProjectFiles accepts tmpDir project.files tree = .ok after ∧ Compile.Holds after tmpDir written) ↔
        (∀ file ∈ project.files, Accepted accepts tmpDir (utf8 file.1)) ∧
          ∀ file ∈ project.files, ∀ other ∈ project.files, ∀ rest, other.1 ≠ file.1 ++ slash :: rest := by
    rw [same] at paths distinct ⊢
    have clean : ∀ file ∈ written, SourceVerification.isProjectRelativePath file.1 = true := fun found member =>
      (isProjectRelativePath_text found.1).symm.trans (paths (file found) (List.mem_map_of_mem member))
    have keys : (written.map (·.1)).Nodup := by
      rw [List.map_map] at distinct
      refine List.Nodup.of_map text ?_
      rwa [List.map_map]
    simp only [writeProjectFiles_text, written_iff clean keys accepts empty, List.forall_mem_map, file, utf8_text]
    refine and_congr_right fun _ => forall₂_congr fun found _ => forall₂_congr fun other _ => ?_
    rw [← not_exists, ← not_exists]
    exact not_congr text_below_iff.symm
  constructor
  · rintro ⟨after, written, texts, same, holds⟩
    refine ⟨?_, (whole same).mp ⟨after, written, holds⟩⟩
    rw [same]
    intro found member
    obtain ⟨text, -, rfl⟩ := List.mem_map.mp member
    exact ⟨isWellFormed_text text.1, isWellFormed_text text.2⟩
  · rintro ⟨wellFormed, condition⟩
    have kept : ∀ found ∈ project.files, file (utf8 found.1, utf8 found.2) = found := fun found member =>
      Prod.ext (text_utf8 (wellFormed found member).1) (text_utf8 (wellFormed found member).2)
    have same : project.files = (project.files.map fun found => (utf8 found.1, utf8 found.2)).map file := by
      rw [List.map_map]
      exact ((List.map_congr_left kept).trans (List.map_id project.files)).symm
    obtain ⟨after, written, holds⟩ := (whole same).mpr condition
    exact ⟨after, written, _, same, holds⟩

-- The TOML of a file as `nameOnly` reads it.
def submittedNameOnly (cargoToml : Text) : Option (List (Text × Value)) :=
  (nameOnly (utf8 cargoToml)).map (·.map member)

theorem submittedNameOnly_text (cargoToml : String) :
    submittedNameOnly (text cargoToml) = (nameOnly cargoToml).map (·.map member) := by
  rw [submittedNameOnly, utf8_text]

theorem openProject_submitted (files : SourceVerification.Files) (entrypoint : Option Json)
    (project : SourceVerification.Project)
    (opened : SourceVerification.openProject nameOnly (some (filesJson files)) entrypoint = .ok project) :
    openProject submittedNameOnly (some (value (filesJson files))) (entrypoint.map value) = .ok (submitted project) := by
  have read := openProject_text submittedNameOnly_text (some (filesJson files)) entrypoint
  rw [opened] at read
  exact read

theorem counterWithDependency_written :
    (∃ after, writeProjectFiles (fun _ => true) "/tmp/miden-project-a".toList (counterWithDependency.map file)
        (onlyDirectory (names "/tmp/miden-project-a".toList)) = .ok after ∧
        Holds after "/tmp/miden-project-a".toList (counterWithDependency.map file)) ↔
      (∀ found ∈ counterWithDependency.map file, isWellFormed found.1 = true ∧ isWellFormed found.2 = true) ∧
        (∀ found ∈ counterWithDependency.map file,
          Accepted (fun _ => true) "/tmp/miden-project-a".toList (utf8 found.1)) ∧
        ∀ found ∈ counterWithDependency.map file, ∀ other ∈ counterWithDependency.map file, ∀ rest,
          other.1 ≠ found.1 ++ slash :: rest :=
  writeProjectFiles_iff
    (openProject_submitted counterWithDependency (some (.string "math/"))
      { files := counterWithDependency, entrypoint := "math", name := "math" } rfl)
    (by decide) (fun _ => true) (onlyDirectory_empty (by decide) (by decide))

-- A crate whose `src` is both a file and a directory.
def srcTwice : SourceVerification.Files :=
  [("Cargo.toml", "counter"), ("miden-project.toml", ""), ("src", ""), ("src/lib.rs", "")]

theorem srcTwice_not_written :
    ¬ ∀ (parse : Text → Option (List (Text × Value))) (files entrypoint : Option Value) (project : Project)
        (tree : FileTree Name) (tmpDir : List Char),
      openProject parse files entrypoint = .ok project → (project.files.map (·.1)).Nodup →
        EmptyDirectory tree tmpDir →
          ∃ after, writeProjectFiles (fun _ => true) tmpDir project.files tree = .ok after ∧
            Holds after tmpDir project.files := by
  intro written
  have opened := openProject_submitted srcTwice none { files := srcTwice, entrypoint := ".", name := "counter" } rfl
  obtain ⟨after, done, -⟩ := written _ _ _ _ _ "/tmp/miden-project-a".toList opened (by decide)
    (onlyDirectory_empty (by decide) (by decide))
  have refused : Compile.writeProjectFiles (fun _ => true) "/tmp/miden-project-a".toList srcTwice
      (onlyDirectory (names "/tmp/miden-project-a".toList)) = .error .EEXIST := by
    rfl
  rw [submitted, writeProjectFiles_text, refused] at done
  cases done

end SourceVerification.Submitted
