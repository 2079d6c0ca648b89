import Mathlib.Data.List.Nodup
import Mathlib.Data.List.Pairwise
import Mathlib.Data.List.Perm.Basic

set_option autoImplicit false

namespace SourceVerification.Viewer

inductive FileTreeNode
  | file (name path : String)
  | folder (name path : String) (children : List FileTreeNode)

namespace FileTreeNode

def name : FileTreeNode → String
  | file name _ | folder name _ _ => name

def path : FileTreeNode → String
  | file _ path | folder _ path _ => path

def isFolder : FileTreeNode → Bool
  | file .. => false
  | folder .. => true

def folderName : FileTreeNode → Option String
  | file .. => none
  | folder name .. => some name

end FileTreeNode

def splitPath (path : String) : List String :=
  (path.toList.splitOn '/').map String.ofList

def joinPath (parts : List String) : String :=
  String.ofList (['/'].intercalate (parts.map String.toList))

def intoFolder (name path : String) (add : List FileTreeNode → List FileTreeNode) :
    List FileTreeNode → List FileTreeNode
  | [] => [.folder name path (add [])]
  | .file other otherPath :: rest => .file other otherPath :: intoFolder name path add rest
  | .folder other otherPath children :: rest =>
    if other = name then .folder other otherPath (add children) :: rest
    else .folder other otherPath children :: intoFolder name path add rest

def addParts (above : List String) : List String → List FileTreeNode → List FileTreeNode
  | [], level => level
  | [name], level => level ++ [.file name (joinPath (above ++ [name]))]
  | name :: next :: rest, level =>
    intoFolder name (joinPath (above ++ [name])) (addParts (above ++ [name]) (next :: rest)) level

section

variable (localeCompare : String → String → Ordering)

def compareNodes (a b : FileTreeNode) : Ordering :=
  if a.isFolder ≠ b.isFolder then if a.isFolder then .lt else .gt
  else localeCompare a.name b.name

def sortNodes (nodes : List FileTreeNode) : List FileTreeNode :=
  nodes.mergeSort fun a b => (compareNodes localeCompare a b).isLE

mutual

def sortChildren : FileTreeNode → FileTreeNode
  | .file name path => .file name path
  | .folder name path children => .folder name path (sortNodes localeCompare (sortEach children))

def sortEach : List FileTreeNode → List FileTreeNode
  | [] => []
  | node :: rest => sortChildren node :: sortEach rest

end

def sortTree (nodes : List FileTreeNode) : List FileTreeNode :=
  sortNodes localeCompare (sortEach localeCompare nodes)

def growTree (paths : List String) : List FileTreeNode :=
  paths.foldl (fun root path => addParts [] (splitPath path) root) []

def buildFileTree (paths : List String) : List FileTreeNode :=
  sortTree localeCompare (growTree paths)

end

mutual

def FileTreeNode.filePaths : FileTreeNode → List String
  | .file _ path => [path]
  | .folder _ _ children => filePaths children

def filePaths : List FileTreeNode → List String
  | [] => []
  | node :: rest => node.filePaths ++ filePaths rest

end

mutual

def FileTreeNode.fileParts : FileTreeNode → List (List String)
  | .file name _ => [[name]]
  | .folder name _ children => (fileParts children).map (name :: ·)

def fileParts : List FileTreeNode → List (List String)
  | [] => []
  | node :: rest => node.fileParts ++ fileParts rest

end

/-- Below the names `above`, paths are joined names, folders have distinct names and are not empty, and
each level is `ordered`. -/
inductive Tidy (ordered : List FileTreeNode → Prop) : List String → List FileTreeNode → Prop
  | intro {above : List String} {level : List FileTreeNode} (sorted : ordered level)
      (named : ∀ node ∈ level, node.path = joinPath (above ++ [node.name]))
      (folders : (level.filterMap FileTreeNode.folderName).Nodup)
      (filled : ∀ name path children, .folder name path children ∈ level → children ≠ [])
      (below : ∀ name path children, .folder name path children ∈ level →
        Tidy ordered (above ++ [name]) children) : Tidy ordered above level

/-- Folders before files, each in name order. -/
def FoldersFirst (localeCompare : String → String → Ordering) (level : List FileTreeNode) : Prop :=
  level.Pairwise fun a b => (b.isFolder → a.isFolder) ∧
    (a.isFolder = b.isFolder → (localeCompare a.name b.name).isLE)

@[simp] theorem joinPath_splitPath (path : String) : joinPath (splitPath path) = path := by
  simp [joinPath, splitPath, List.map_map, Function.comp_def, List.intercalate_splitOn]

theorem splitPath_ne_nil (path : String) : splitPath path ≠ [] := by
  simp [splitPath]

theorem mem_fileParts {parts : List String} {level : List FileTreeNode} :
    parts ∈ fileParts level ↔ ∃ node ∈ level, parts ∈ node.fileParts := by
  induction level with
  | nil => simp [fileParts]
  | cons node rest ih => simp [fileParts, ih]

theorem mem_folderParts {parts : List String} {name path : String} {children : List FileTreeNode} :
    parts ∈ (FileTreeNode.folder name path children).fileParts ↔
      ∃ rest ∈ fileParts children, name :: rest = parts := by
  simp [FileTreeNode.fileParts]

theorem intoFolder_cases (name path : String) (add : List FileTreeNode → List FileTreeNode)
    (level : List FileTreeNode) :
    (name ∉ level.filterMap FileTreeNode.folderName ∧
      intoFolder name path add level = level ++ [.folder name path (add [])]) ∨
    ∃ before otherPath children after, level = before ++ .folder name otherPath children :: after ∧
      intoFolder name path add level = before ++ .folder name otherPath (add children) :: after := by
  induction level with
  | nil => exact .inl ⟨by simp, rfl⟩
  | cons node rest ih =>
    cases node with
    | file other otherPath =>
      rcases ih with ⟨absent, grown⟩ | ⟨before, otherPath', children, after, rfl, grown⟩
      next => exact .inl ⟨by simpa [FileTreeNode.folderName] using absent, by simp [intoFolder, grown]⟩
      next => exact .inr ⟨_ :: before, otherPath', children, after, rfl, by simp [intoFolder, grown]⟩
    | folder other otherPath children =>
      by_cases same : other = name
      next => exact .inr ⟨[], otherPath, children, rest, by simp [same], by simp [intoFolder, same]⟩
      next =>
        rcases ih with ⟨absent, grown⟩ | ⟨before, otherPath', children', after, rfl, grown⟩
        next =>
          refine .inl ⟨?_, by simp [intoFolder, same, grown]⟩
          simpa [FileTreeNode.folderName, Ne.symm same] using absent
        next =>
          exact .inr ⟨_ :: before, otherPath', children', after, rfl, by simp [intoFolder, same, grown]⟩

theorem fileParts_append (before after : List FileTreeNode) :
    fileParts (before ++ after) = fileParts before ++ fileParts after := by
  induction before with
  | nil => rfl
  | cons node rest ih => simp [fileParts, ih]

theorem fileParts_addParts (above : List String) {parts : List String} (some : parts ≠ [])
    (level : List FileTreeNode) : (fileParts (addParts above parts level)).Perm (parts :: fileParts level) := by
  induction parts generalizing above level with
  | nil => exact absurd rfl some
  | cons name rest ih =>
    cases rest with
    | nil =>
      simp only [addParts, fileParts_append, fileParts, FileTreeNode.fileParts, List.append_nil]
      exact List.perm_append_singleton _ _
    | cons next rest =>
      have inside := ih (above ++ [name]) (by simp)
      have added : ∀ children, ((fileParts (addParts (above ++ [name]) (next :: rest) children)).map (name :: ·)).Perm
          ((name :: next :: rest) :: (fileParts children).map (name :: ·)) :=
        fun children => (inside children).map (name :: ·)
      rcases intoFolder_cases name (joinPath (above ++ [name])) (addParts (above ++ [name]) (next :: rest)) level with
        ⟨-, grown⟩ | ⟨before, path, children, after, rfl, grown⟩
      next =>
        rw [addParts, grown, fileParts_append]
        have single := (added []).append_left (fileParts level)
        simp only [fileParts, FileTreeNode.fileParts, List.append_nil, List.map_nil] at single ⊢
        exact single.trans (List.perm_append_singleton _ _)
      next =>
        rw [addParts, grown, fileParts_append, fileParts_append]
        simp only [fileParts, FileTreeNode.fileParts]
        have moved := ((added children).append_right (fileParts after)).append_left (fileParts before)
        exact moved.trans List.perm_middle

theorem addParts_ne_nil (above : List String) {parts : List String} (some : parts ≠ [])
    (level : List FileTreeNode) : addParts above parts level ≠ [] := by
  intro empty
  have none := fileParts_addParts above some level
  simp [empty, fileParts] at none

abbrev Grown : List String → List FileTreeNode → Prop := Tidy fun _ => True

theorem Grown.nil (above : List String) : Grown above [] :=
  .intro trivial (by simp) (by simp) (by simp) (by simp)

theorem Grown.file {above : List String} {level : List FileTreeNode} (grown : Grown above level) (name : String) :
    Grown above (level ++ [.file name (joinPath (above ++ [name]))]) := by
  cases grown with
  | intro sorted named folders filled below =>
    refine .intro trivial ?_ (by simpa [List.filterMap_cons, FileTreeNode.folderName] using folders) ?_ ?_
    next =>
      simp only [List.forall_mem_append, List.forall_mem_singleton]
      exact ⟨named, rfl⟩
    next => simpa using filled
    next => simpa using below

theorem Grown.newFolder {above : List String} {level children : List FileTreeNode} {name : String}
    (grown : Grown above level) (absent : name ∉ level.filterMap FileTreeNode.folderName)
    (inside : Grown (above ++ [name]) children) (filled : children ≠ []) :
    Grown above (level ++ [.folder name (joinPath (above ++ [name])) children]) := by
  cases grown with
  | intro sorted named folders others below =>
    refine .intro trivial ?_ ?_ ?_ ?_
    next =>
      simp only [List.forall_mem_append, List.forall_mem_singleton]
      exact ⟨named, rfl⟩
    next =>
      rw [List.filterMap_append]
      refine folders.append (List.nodup_singleton _) ?_
      simpa [FileTreeNode.folderName] using absent
    next =>
      intro other path inner member
      rcases List.mem_append.mp member with old | new
      next => exact others other path inner old
      next => simp_all
    next =>
      intro other path inner member
      rcases List.mem_append.mp member with old | new
      next => exact below other path inner old
      next =>
        obtain ⟨rfl, rfl, rfl⟩ : other = name ∧ path = _ ∧ inner = children := by simpa using new
        exact inside

theorem Grown.oldFolder {above : List String} {before after old children : List FileTreeNode} {name path : String}
    (grown : Grown above (before ++ .folder name path old :: after))
    (inside : Grown (above ++ [name]) children) (filled : children ≠ []) :
    Grown above (before ++ .folder name path children :: after) := by
  cases grown with
  | intro sorted named folders others below =>
    have elsewhere : ∀ node ∈ before ++ .folder name path children :: after,
        node = .folder name path children ∨ node ∈ before ++ .folder name path old :: after := by
      intro node member
      simp only [List.mem_append, List.mem_cons] at member ⊢
      rcases member with first | rfl | last
      next => exact .inr (.inl first)
      next => exact .inl rfl
      next => exact .inr (.inr (.inr last))
    refine .intro trivial ?_ (by simpa [FileTreeNode.folderName] using folders) ?_ ?_
    next =>
      intro node member
      rcases elsewhere node member with rfl | kept
      next => exact named (.folder name path old) (by simp)
      next => exact named node kept
    next =>
      intro other otherPath inner member
      rcases elsewhere _ member with same | kept
      next => simp_all
      next => exact others other otherPath inner kept
    next =>
      intro other otherPath inner member
      rcases elsewhere _ member with same | kept
      next =>
        obtain ⟨rfl, rfl, rfl⟩ := FileTreeNode.folder.inj same
        exact inside
      next => exact below other otherPath inner kept

theorem Grown.folder {above : List String} {level : List FileTreeNode} {name path : String}
    {children : List FileTreeNode} (grown : Grown above level) (member : .folder name path children ∈ level) :
    Grown (above ++ [name]) children := by
  cases grown with
  | intro sorted named folders filled below => exact below name path children member

theorem Grown.addParts {above parts : List String} (some : parts ≠ []) {level : List FileTreeNode}
    (grown : Grown above level) : Grown above (addParts above parts level) := by
  induction parts generalizing above level with
  | nil => exact absurd rfl some
  | cons name rest ih =>
    cases rest with
    | nil => exact grown.file name
    | cons next rest =>
      have filled : ∀ level, Viewer.addParts (above ++ [name]) (next :: rest) level ≠ [] :=
        addParts_ne_nil _ (by simp)
      rcases intoFolder_cases name (joinPath (above ++ [name])) (Viewer.addParts (above ++ [name]) (next :: rest)) level
        with ⟨absent, added⟩ | ⟨before, path, children, after, rfl, added⟩
      next =>
        rw [Viewer.addParts, added]
        exact grown.newFolder absent (ih (by simp) (.nil _)) (filled _)
      next =>
        rw [Viewer.addParts, added]
        exact grown.oldFolder (ih (by simp) (grown.folder List.mem_append_cons_self)) (filled _)

theorem grown_foldl (paths : List String) {root : List FileTreeNode} (grown : Grown [] root) :
    Grown [] (paths.foldl (fun root path => addParts [] (splitPath path) root) root) ∧
      (fileParts (paths.foldl (fun root path => addParts [] (splitPath path) root) root)).Perm
        (paths.map splitPath ++ fileParts root) := by
  induction paths generalizing root with
  | nil => exact ⟨grown, .refl _⟩
  | cons path rest ih =>
    obtain ⟨tidy, files⟩ := ih (grown.addParts (splitPath_ne_nil path))
    have added := fileParts_addParts [] (splitPath_ne_nil path) root
    exact ⟨tidy, files.trans ((added.append_left _).trans List.perm_middle)⟩

section

variable {localeCompare : String → String → Ordering}

theorem compareNodes_isLE_iff {a b : FileTreeNode} : (compareNodes localeCompare a b).isLE ↔
    (b.isFolder → a.isFolder) ∧ (a.isFolder = b.isFolder → (localeCompare a.name b.name).isLE) := by
  cases first : a.isFolder <;> cases second : b.isFolder <;> simp [compareNodes, first, second]

theorem sortEach_eq_map (nodes : List FileTreeNode) :
    sortEach localeCompare nodes = nodes.map (sortChildren localeCompare) := by
  induction nodes with
  | nil => rfl
  | cons node rest ih => rw [sortEach, ih, List.map_cons]

variable (localeCompare) in
theorem sortNodes_perm (nodes : List FileTreeNode) : (sortNodes localeCompare nodes).Perm nodes :=
  List.mergeSort_perm nodes _

theorem sortTree_folder (name path : String) (children : List FileTreeNode) :
    sortChildren localeCompare (.folder name path children) = .folder name path (sortTree localeCompare children) := by
  rw [sortChildren, sortTree]

@[simp] theorem sortChildren_name (node : FileTreeNode) : (sortChildren localeCompare node).name = node.name := by
  cases node <;> rfl

@[simp] theorem sortChildren_path (node : FileTreeNode) : (sortChildren localeCompare node).path = node.path := by
  cases node <;> rfl

@[simp] theorem sortChildren_folderName (node : FileTreeNode) :
    (sortChildren localeCompare node).folderName = node.folderName := by
  cases node <;> rfl

theorem mem_sortTree {node : FileTreeNode} {level : List FileTreeNode} :
    node ∈ sortTree localeCompare level ↔ ∃ other ∈ level, sortChildren localeCompare other = node := by
  rw [sortTree, (sortNodes_perm localeCompare _).mem_iff, sortEach_eq_map, List.mem_map]

theorem mem_sortTree_folder {name path : String} {children level : List FileTreeNode}
    (member : .folder name path children ∈ sortTree localeCompare level) :
    ∃ before, .folder name path before ∈ level ∧ children = sortTree localeCompare before := by
  obtain ⟨node, present, same⟩ := mem_sortTree.mp member
  cases node with
  | file => cases same
  | folder other otherPath before =>
    rw [sortTree_folder] at same
    obtain ⟨rfl, rfl, rfl⟩ := FileTreeNode.folder.inj same
    exact ⟨before, present, rfl⟩

theorem compareNodes_total [Std.TransCmp localeCompare] (a b : FileTreeNode) :
    (compareNodes localeCompare a b).isLE ∨ (compareNodes localeCompare b a).isLE := by
  have swapped : localeCompare b.name a.name = (localeCompare a.name b.name).swap :=
    Std.OrientedCmp.eq_swap
  simp only [compareNodes_isLE_iff, swapped]
  cases a.isFolder <;> cases b.isFolder <;> cases localeCompare a.name b.name <;> simp

theorem compareNodes_trans [Std.TransCmp localeCompare] {a b c : FileTreeNode}
    (first : (compareNodes localeCompare a b).isLE) (second : (compareNodes localeCompare b c).isLE) :
    (compareNodes localeCompare a c).isLE := by
  rw [compareNodes_isLE_iff] at *
  refine ⟨fun folder => first.1 (second.1 folder), fun same => ?_⟩
  have between : a.isFolder = b.isFolder := by
    rw [Bool.eq_iff_iff]
    exact ⟨fun folder => second.1 (same ▸ folder), first.1⟩
  exact Std.TransCmp.isLE_trans (first.2 between) (second.2 (between.symm.trans same))

theorem sortNodes_foldersFirst [Std.TransCmp localeCompare] (nodes : List FileTreeNode) :
    FoldersFirst localeCompare (sortNodes localeCompare nodes) := by
  have total : ∀ a b, ((compareNodes localeCompare a b).isLE || (compareNodes localeCompare b a).isLE) = true :=
    fun a b => Bool.or_eq_true .. ▸ compareNodes_total a b
  have transitive : ∀ a b c, (compareNodes localeCompare a b).isLE → (compareNodes localeCompare b c).isLE →
      (compareNodes localeCompare a c).isLE := fun _ _ _ => compareNodes_trans
  have sorted := List.pairwise_mergeSort transitive total nodes
  exact sorted.imp compareNodes_isLE_iff.mp

theorem sortTree_ne_nil {level : List FileTreeNode} (filled : level ≠ []) :
    sortTree localeCompare level ≠ [] := by
  rw [sortTree, sortEach_eq_map]
  intro empty
  have none := (sortNodes_perm localeCompare (level.map (sortChildren localeCompare))).symm
  rw [empty] at none
  exact filled (List.map_eq_nil_iff.mp none.eq_nil)

theorem Grown.sortTree [Std.TransCmp localeCompare] {above : List String} {level : List FileTreeNode}
    (grown : Grown above level) : Tidy (FoldersFirst localeCompare) above (sortTree localeCompare level) := by
  induction grown with
  | @intro above level _ named folders filled below ih =>
    refine .intro (sortNodes_foldersFirst _) ?_ ?_ ?_ ?_
    next =>
      intro node member
      obtain ⟨other, present, rfl⟩ := mem_sortTree.mp member
      simpa using named other present
    next =>
      have same := (sortNodes_perm localeCompare (sortEach localeCompare level)).filterMap
        FileTreeNode.folderName
      rw [Viewer.sortTree, same.nodup_iff, sortEach_eq_map, List.filterMap_map]
      simpa [Function.comp_def] using folders
    next =>
      intro name path children member
      obtain ⟨before, present, rfl⟩ := mem_sortTree_folder member
      exact sortTree_ne_nil (filled name path before present)
    next =>
      intro name path children member
      obtain ⟨before, present, rfl⟩ := mem_sortTree_folder member
      exact ih name path before present

theorem fileParts_eq_flatMap (level : List FileTreeNode) :
    fileParts level = level.flatMap FileTreeNode.fileParts := by
  induction level with
  | nil => rfl
  | cons node rest ih => rw [fileParts, ih, List.flatMap_cons]

theorem filePaths_eq_flatMap (level : List FileTreeNode) :
    filePaths level = level.flatMap FileTreeNode.filePaths := by
  induction level with
  | nil => rfl
  | cons node rest ih => rw [filePaths, ih, List.flatMap_cons]

theorem Grown.fileParts_sortTree {above : List String} {level : List FileTreeNode} (grown : Grown above level) :
    (fileParts (Viewer.sortTree localeCompare level)).Perm (fileParts level) := by
  induction grown with
  | @intro above level _ named folders filled below ih =>
    have each : ∀ node ∈ level, (sortChildren localeCompare node).fileParts.Perm node.fileParts := by
      intro node member
      cases node with
      | file => exact .refl _
      | folder name path children =>
        rw [sortTree_folder, FileTreeNode.fileParts, FileTreeNode.fileParts]
        exact (ih name path children member).map _
    have sorted := (sortNodes_perm localeCompare (sortEach localeCompare level)).flatMap_right FileTreeNode.fileParts
    rw [sortEach_eq_map, List.flatMap_map] at sorted
    rw [fileParts_eq_flatMap, fileParts_eq_flatMap level, Viewer.sortTree, sortEach_eq_map]
    exact sorted.trans (.flatMap_left level each)

theorem Tidy.filePaths {ordered : List FileTreeNode → Prop} {above : List String} {level : List FileTreeNode}
    (tidy : Tidy ordered above level) :
    filePaths level = (fileParts level).map fun parts => joinPath (above ++ parts) := by
  induction tidy with
  | @intro above level _ named folders filled below ih =>
    rw [filePaths_eq_flatMap, fileParts_eq_flatMap, List.map_flatMap]
    refine List.flatMap_congr fun node member => ?_
    cases node with
    | file name path =>
      have joined : path = joinPath (above ++ [name]) := named _ member
      simp [FileTreeNode.filePaths, FileTreeNode.fileParts, joined]
    | folder name path children =>
      simp [FileTreeNode.filePaths, FileTreeNode.fileParts, ih name path children member, Function.comp_def]

theorem Tidy.fileParts_ne_nil {ordered : List FileTreeNode → Prop} {above : List String} {level : List FileTreeNode}
    (tidy : Tidy ordered above level) (some : level ≠ []) : fileParts level ≠ [] := by
  induction tidy with
  | @intro above level _ named folders filled below ih =>
    cases level with
    | nil => exact absurd rfl some
    | cons node rest =>
      cases node with
      | file => simp [fileParts, FileTreeNode.fileParts]
      | folder name path children =>
        have inside := ih name path children List.mem_cons_self (filled name path children List.mem_cons_self)
        simp [fileParts, FileTreeNode.fileParts, inside]

theorem folder_unique {level : List FileTreeNode} (folders : (level.filterMap FileTreeNode.folderName).Nodup)
    {name path otherPath : String} {children others : List FileTreeNode}
    (first : .folder name path children ∈ level) (second : .folder name otherPath others ∈ level) :
    FileTreeNode.folder name path children = .folder name otherPath others := by
  have apart := List.pairwise_filterMap.mp folders
  by_contra different
  have symmetric : Std.Symm fun a b : FileTreeNode => ∀ one, a.folderName = some one →
      ∀ other, b.folderName = some other → one ≠ other :=
    ⟨fun a b apart one known other also => (apart other also one known).symm⟩
  exact apart.forall first second different name rfl name rfl rfl

theorem Tidy.mem_children_iff {ordered : List FileTreeNode → Prop} {above : List String} {level : List FileTreeNode}
    (tidy : Tidy ordered above level) {name path : String} {children : List FileTreeNode}
    (member : .folder name path children ∈ level) {parts : List String} (some : parts ≠ []) :
    parts ∈ fileParts children ↔ name :: parts ∈ fileParts level := by
  cases tidy with
  | intro sorted named folders filled below =>
    constructor
    next =>
      intro inside
      exact mem_fileParts.mpr ⟨_, member, mem_folderParts.mpr ⟨parts, inside, rfl⟩⟩
    next =>
      intro listed
      obtain ⟨node, present, inside⟩ := mem_fileParts.mp listed
      cases node with
      | file other otherPath => simp [FileTreeNode.fileParts, some] at inside
      | folder other otherPath others =>
        obtain ⟨rest, found, same⟩ := mem_folderParts.mp inside
        obtain ⟨rfl, rfl⟩ := List.cons.inj same
        obtain ⟨-, -, rfl⟩ := FileTreeNode.folder.inj (folder_unique folders present member)
        exact found

theorem nil_not_mem_fileParts (level : List FileTreeNode) : [] ∉ fileParts level := by
  intro empty
  obtain ⟨node, -, inside⟩ := mem_fileParts.mp empty
  cases node with
  | file => simp [FileTreeNode.fileParts] at inside
  | folder => simp [FileTreeNode.fileParts] at inside

theorem Tidy.same_name {ordered : List FileTreeNode → Prop} {above : List String} {first second : List FileTreeNode}
    (tidy : Tidy ordered above first) (same : ∀ parts, parts ∈ fileParts first ↔ parts ∈ fileParts second)
    {node : FileTreeNode} (member : node ∈ first) :
    ∃ other ∈ second, other.name = node.name ∧ other.isFolder = node.isFolder := by
  cases tidy with
  | intro sorted named folders filled below =>
    cases node with
    | file name path =>
      have listed : [name] ∈ fileParts first :=
        mem_fileParts.mpr ⟨_, member, by simp [FileTreeNode.fileParts]⟩
      obtain ⟨other, present, inside⟩ := mem_fileParts.mp ((same _).mp listed)
      cases other with
      | file => exact ⟨_, present, by simpa [FileTreeNode.fileParts, FileTreeNode.name, eq_comm] using inside, rfl⟩
      | folder =>
        obtain ⟨rest, found, same⟩ := mem_folderParts.mp inside
        obtain ⟨-, rfl⟩ := List.cons.inj same
        exact absurd found (nil_not_mem_fileParts _)
    | folder name path children =>
      have inner := below name path children member
      obtain ⟨parts, found⟩ := List.exists_mem_of_ne_nil _ (inner.fileParts_ne_nil (filled name path children member))
      have listed : name :: parts ∈ fileParts first :=
        mem_fileParts.mpr ⟨_, member, mem_folderParts.mpr ⟨parts, found, rfl⟩⟩
      obtain ⟨other, present, inside⟩ := mem_fileParts.mp ((same _).mp listed)
      cases other with
      | file =>
        obtain rfl : parts = [] := by simp_all [FileTreeNode.fileParts]
        exact absurd found (nil_not_mem_fileParts _)
      | folder =>
        obtain ⟨rest, -, same⟩ := mem_folderParts.mp inside
        exact ⟨_, present, (List.cons.inj same).1, rfl⟩

theorem fileParts_ne_nil_of_mem {ordered : List FileTreeNode → Prop} {above : List String} {level : List FileTreeNode}
    (tidy : Tidy ordered above level) {node : FileTreeNode} (member : node ∈ level) : node.fileParts ≠ [] := by
  cases tidy with
  | intro sorted named folders filled below =>
    cases node with
    | file => simp [FileTreeNode.fileParts]
    | folder name path children =>
      have inner := (below name path children member).fileParts_ne_nil (filled name path children member)
      simpa [FileTreeNode.fileParts] using inner

theorem Tidy.nodup {ordered : List FileTreeNode → Prop} {above : List String} {level : List FileTreeNode}
    (tidy : Tidy ordered above level) (distinct : (fileParts level).Nodup) : level.Nodup := by
  rw [fileParts_eq_flatMap, List.nodup_flatMap] at distinct
  refine (List.Pairwise.and_mem.mp distinct.2).imp ?_
  rintro a b ⟨present, -, apart⟩ rfl
  obtain ⟨parts, found⟩ := List.exists_mem_of_ne_nil _ (fileParts_ne_nil_of_mem tidy present)
  exact apart found found

theorem nodup_children {level children : List FileTreeNode} {name path : String}
    (distinct : (fileParts level).Nodup) (member : .folder name path children ∈ level) :
    (fileParts children).Nodup := by
  rw [fileParts_eq_flatMap, List.nodup_flatMap] at distinct
  have inside := distinct.1 _ member
  rw [FileTreeNode.fileParts] at inside
  exact inside.of_map

theorem Tidy.eq_of_alike [Std.TransCmp localeCompare] [Std.LawfulEqCmp localeCompare] {above : List String}
    {first second : List FileTreeNode} (tidy : Tidy (FoldersFirst localeCompare) above first)
    (again : Tidy (FoldersFirst localeCompare) above second)
    (same : ∀ parts, parts ∈ fileParts first ↔ parts ∈ fileParts second)
    (distinct : (fileParts first).Nodup) (also : (fileParts second).Nodup)
    (alike : ∀ node ∈ first, ∀ other ∈ second, other.name = node.name → other.isFolder = node.isFolder →
      other = node) : first = second := by
  have members : ∀ node, node ∈ first ↔ node ∈ second := by
    intro node
    constructor
    next =>
      intro member
      obtain ⟨other, present, names, kinds⟩ := tidy.same_name same member
      exact alike node member other present names kinds ▸ present
    next =>
      intro member
      obtain ⟨other, present, names, kinds⟩ := again.same_name (fun parts => (same parts).symm) member
      exact (alike other present node member names.symm kinds.symm).symm ▸ present
  have reordered : first.Perm second :=
    (List.perm_ext_iff_of_nodup (tidy.nodup distinct) (again.nodup also)).mpr members
  cases tidy with
  | intro sorted _ _ _ _ =>
    cases again with
    | intro resorted _ _ _ _ =>
      refine reordered.eq_of_pairwise (fun a b present found before after => ?_) sorted resorted
      have kinds : b.isFolder = a.isFolder := Bool.eq_iff_iff.mpr ⟨before.1, after.1⟩
      have names : localeCompare a.name b.name = .eq :=
        Std.OrientedCmp.isLE_antisymm (before.2 kinds.symm) (after.2 kinds)
      exact (alike a present b found (Std.LawfulEqCmp.eq_of_compare names).symm kinds).symm

theorem Tidy.unique [Std.TransCmp localeCompare] [Std.LawfulEqCmp localeCompare] {above : List String}
    {first second : List FileTreeNode} (tidy : Tidy (FoldersFirst localeCompare) above first)
    (again : Tidy (FoldersFirst localeCompare) above second)
    (same : ∀ parts, parts ∈ fileParts first ↔ parts ∈ fileParts second)
    (distinct : (fileParts first).Nodup) (also : (fileParts second).Nodup) : first = second := by
  induction tidy generalizing second with
  | @intro above first sorted named folders filled below ih =>
    have tidy : Tidy (FoldersFirst localeCompare) above first := .intro sorted named folders filled below
    have alike : ∀ node ∈ first, ∀ other ∈ second, other.name = node.name → other.isFolder = node.isFolder →
        other = node := by
      intro node member other present names kinds
      have paths : other.path = node.path := by
        cases again with
        | intro _ renamed _ _ _ => rw [renamed other present, named node member, names]
      cases node with
      | file name path =>
        cases other with
        | file otherName otherPath =>
          exact congrArg₂ FileTreeNode.file names paths
        | folder => cases kinds
      | folder name path children =>
        cases other with
        | file => cases kinds
        | folder otherName otherPath others =>
          obtain rfl : otherName = name := names
          obtain rfl : otherPath = path := paths
          have inner : Tidy (FoldersFirst localeCompare) (above ++ [otherName]) others := by
            cases again with
            | intro _ _ _ _ rebelow => exact rebelow _ _ _ present
          have files : ∀ parts, parts ∈ fileParts children ↔ parts ∈ fileParts others := by
            intro parts
            by_cases empty : parts = []
            next => simp [empty, nil_not_mem_fileParts]
            next => rw [tidy.mem_children_iff member empty, again.mem_children_iff present empty, same]
          rw [ih otherName otherPath children member inner files (nodup_children distinct member)
            (nodup_children also present)]
    exact tidy.eq_of_alike again same distinct also alike

theorem splitPath_injective : Function.Injective splitPath :=
  Function.LeftInverse.injective joinPath_splitPath

theorem growTree_grown (paths : List String) : Grown [] (growTree paths) :=
  (grown_foldl paths (.nil [])).1

variable (localeCompare)

theorem fileParts_buildFileTree (paths : List String) :
    (fileParts (buildFileTree localeCompare paths)).Perm (paths.map splitPath) := by
  have grown := (grown_foldl paths (.nil [])).2
  rw [fileParts, List.append_nil] at grown
  exact (growTree_grown paths).fileParts_sortTree.trans grown

theorem buildFileTree_tidy [Std.TransCmp localeCompare] (paths : List String) :
    Tidy (FoldersFirst localeCompare) [] (buildFileTree localeCompare paths) :=
  (growTree_grown paths).sortTree

theorem buildFileTree_of_paths [Std.TransCmp localeCompare] [Std.LawfulEqCmp localeCompare] {paths : List String}
    (distinct : paths.Nodup) :
    (filePaths (buildFileTree localeCompare paths)).Perm paths ∧
      Tidy (FoldersFirst localeCompare) [] (buildFileTree localeCompare paths) ∧
        ∀ other : List String, other.Perm paths →
          buildFileTree localeCompare other = buildFileTree localeCompare paths := by
  have nodup : ∀ other : List String, other.Perm paths → (fileParts (buildFileTree localeCompare other)).Nodup := by
    intro other reordered
    rw [(fileParts_buildFileTree localeCompare other).nodup_iff]
    exact (reordered.nodup_iff.mpr distinct).map splitPath_injective
  refine ⟨?_, buildFileTree_tidy localeCompare paths, fun other reordered => ?_⟩
  next =>
    have files := (fileParts_buildFileTree localeCompare paths).map joinPath
    rw [List.map_map, Function.comp_def] at files
    simpa [(buildFileTree_tidy localeCompare paths).filePaths] using files
  next =>
    have files := (fileParts_buildFileTree localeCompare other).trans
      ((reordered.map splitPath).trans (fileParts_buildFileTree localeCompare paths).symm)
    exact (buildFileTree_tidy localeCompare other).unique (buildFileTree_tidy localeCompare paths) (fun _ => files.mem_iff)
      (nodup other reordered) (nodup paths (.refl _))

end

theorem crate_tree : (filePaths (buildFileTree compare
      ["src/lib.rs", "miden-project.toml", "src/storage/mod.rs", "Cargo.toml"])).Perm
    ["src/lib.rs", "miden-project.toml", "src/storage/mod.rs", "Cargo.toml"] :=
  (buildFileTree_of_paths compare (by decide)).1

end SourceVerification.Viewer
