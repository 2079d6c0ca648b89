import Mathlib.Data.List.Infix
import Mathlib.Logic.Function.Basic

set_option autoImplicit false

inductive FileTree.Node
  | directory
  | file (content : String)
  deriving DecidableEq

structure FileTree (α : Type) where
  node : List α → Option FileTree.Node
  root : node [] = some .directory
  parent : ∀ path name, node (path ++ [name]) ≠ none → node path = some .directory

namespace FileTree

variable {α : Type}

inductive Errno
  | EEXIST
  | EISDIR
  | ENOENT
  | ENOTDIR
  -- A path that the file system doesn't take: too long, or with a character it refuses.
  | refused
  deriving DecidableEq

theorem directory_of_append (tree : FileTree α) {path rest : List α} (present : tree.node (path ++ rest) ≠ none)
    (below : rest ≠ []) : tree.node path = some .directory := by
  induction rest using List.reverseRecOn with
  | nil => exact absurd rfl below
  | append_singleton rest name ih =>
    rw [← List.append_assoc] at present
    have parent := tree.parent _ _ present
    by_cases direct : rest = []
    next => simpa [direct] using parent
    next => exact ih (by simp [parent]) direct

theorem present_of_prefix (tree : FileTree α) {path other : List α} (above : path <+: other)
    (present : tree.node other ≠ none) : tree.node path ≠ none := by
  obtain ⟨rest, rfl⟩ := above
  by_cases same : rest = []
  next => simpa [same] using present
  next => simp [tree.directory_of_append present same]

section

variable (accepts : List α → Bool)

def Grows (before after : FileTree α) : Prop :=
  ∀ path, after.node path ≠ none → before.node path ≠ none ∨ accepts path = true

variable {accepts}

theorem Grows.refl (tree : FileTree α) : Grows accepts tree tree := fun _ present => .inl present

theorem Grows.trans {first second third : FileTree α} (earlier : Grows accepts first second)
    (later : Grows accepts second third) : Grows accepts first third := by
  intro path present
  rcases later path present with old | accepted
  · exact earlier path old
  · exact .inr accepted

end

variable [DecidableEq α]

def put (tree : FileTree α) (path : List α) (name : α) (node : Node)
    (under : tree.node path = some .directory) (free : tree.node (path ++ [name]) ≠ some .directory) :
    FileTree α where
  node := Function.update tree.node (path ++ [name]) (some node)
  root := by
    rw [Function.update_of_ne (by simp)]
    exact tree.root
  parent := by
    intro other last present
    by_cases same : other ++ [last] = path ++ [name]
    next =>
      obtain ⟨rfl, -⟩ := List.append_inj' same rfl
      rw [Function.update_of_ne (by simp)]
      exact under
    next =>
      rw [Function.update_of_ne same] at present
      have above := tree.parent _ _ present
      rw [Function.update_of_ne]
      · exact above
      · rintro rfl
        exact free above

section

variable (accepts : List α → Bool)

-- Each directory that is missing on the way, from `path` on.
def mkdir : List α → List α → FileTree α → Except Errno (FileTree α)
  | _, [], tree => .ok tree
  | path, name :: rest, tree =>
    if under : tree.node path = some .directory then
      match found : tree.node (path ++ [name]) with
      | some .directory => mkdir (path ++ [name]) rest tree
      | some (.file _) => .error (if rest.isEmpty then .EEXIST else .ENOTDIR)
      | none =>
        if accepts (path ++ [name]) then
          mkdir (path ++ [name]) rest (tree.put path name .directory under (by simp [found]))
        else .error .refused
    else .error .ENOTDIR

def writeFile (path : List α) (name : α) (content : String) (tree : FileTree α) :
    Except Errno (FileTree α) :=
  if under : tree.node path = some .directory then
    if free : tree.node (path ++ [name]) ≠ some .directory then
      if accepts (path ++ [name]) then .ok (tree.put path name (.file content) under free)
      else .error .refused
    else .error .EISDIR
  else .error (if tree.node path = none then .ENOENT else .ENOTDIR)

variable {accepts}

theorem grows_put {tree : FileTree α} {path : List α} {name : α} {node : Node} {under free}
    (accepted : accepts (path ++ [name]) = true) :
    Grows accepts tree (tree.put path name node under free) := by
  intro other present
  by_cases same : other = path ++ [name]
  next => exact .inr (same ▸ accepted)
  next => exact .inl (by simpa [put, Function.update_of_ne same] using present)

theorem mkdir_grows {path names : List α} {tree after : FileTree α}
    (made : mkdir accepts path names tree = .ok after) : Grows accepts tree after := by
  induction names generalizing path tree with
  | nil =>
    obtain rfl := Except.ok.inj made
    exact Grows.refl tree
  | cons name rest ih =>
    unfold mkdir at made
    split at made
    next under =>
      split at made
      next => exact ih made
      next => cases made
      next missing =>
        split at made
        next accepted => exact (grows_put accepted).trans (ih made)
        next => cases made
    next => cases made

theorem writeFile_grows {path : List α} {name : α} {content : String} {tree after : FileTree α}
    (written : writeFile accepts path name content tree = .ok after) : Grows accepts tree after := by
  unfold writeFile at written
  split_ifs at written with under free accepted
  obtain rfl := Except.ok.inj written
  exact grows_put accepted

omit [DecidableEq α] in
theorem on_the_way_iff {path rest other : List α} {name : α} :
    path <+: other ∧ other <+: path ++ name :: rest ↔
      other = path ∨ path ++ [name] <+: other ∧ other <+: path ++ [name] ++ rest := by
  constructor
  · rintro ⟨⟨below, rfl⟩, on_way⟩
    have inside := (List.prefix_append_right_inj path).mp on_way
    cases below with
    | nil => exact .inl (List.append_nil path)
    | cons first below =>
      obtain ⟨rfl, deeper⟩ := List.cons_prefix_cons.mp inside
      have split : path ++ first :: below = path ++ [first] ++ below := by simp
      rw [split]
      exact .inr ⟨List.prefix_append _ _, (List.prefix_append_right_inj _).mpr deeper⟩
  · rintro (rfl | ⟨above, on_way⟩)
    · exact ⟨List.prefix_refl _, List.prefix_append _ _⟩
    · exact ⟨(List.prefix_append _ _).trans above, by simpa using on_way⟩

theorem mkdir_existing {path above rest : List α} {tree : FileTree α}
    (there : tree.node (path ++ above) = some .directory) :
    mkdir accepts path (above ++ rest) tree = mkdir accepts (path ++ above) rest tree := by
  induction above generalizing path with
  | nil => simp
  | cons name above ih =>
    have split : path ++ name :: above = path ++ [name] ++ above := by simp
    rw [split] at there ⊢
    have present : tree.node (path ++ [name] ++ above) ≠ none := by
      rw [there]
      simp
    have reached := tree.present_of_prefix (List.prefix_append (path ++ [name]) above) present
    have under := tree.parent path name reached
    have directory : tree.node (path ++ [name]) = some .directory := by
      by_cases last : above = []
      next => simpa [last] using there
      next => exact tree.directory_of_append present last
    rw [List.cons_append, mkdir, dif_pos under, ← ih there]
    split
    next => rfl
    next content found => simp [directory] at found
    next missing => exact absurd missing reached

theorem mkdir_cons {path : List α} (rest : List α) {name : α} {tree : FileTree α}
    (under : tree.node path = some .directory)
    (clear : ∀ content, tree.node (path ++ [name]) ≠ some (.file content))
    (accepted : accepts (path ++ [name]) = true) :
    ∃ made, mkdir accepts path (name :: rest) tree = mkdir accepts (path ++ [name]) rest made ∧
      made.node = Function.update tree.node (path ++ [name]) (some .directory) := by
  rw [mkdir, dif_pos under]
  split
  next there => exact ⟨tree, rfl, by rw [← there, Function.update_eq_self]⟩
  next content there => exact absurd there (clear content)
  next missing =>
    rw [if_pos accepted]
    exact ⟨_, rfl, rfl⟩

theorem mkdir_ok {path names : List α} {tree : FileTree α} (under : tree.node path = some .directory)
    (clear : ∀ below, below <+: names → ∀ content, tree.node (path ++ below) ≠ some (.file content))
    (accepted : ∀ below, below <+: names → below ≠ [] → accepts (path ++ below) = true) :
    ∃ after, mkdir accepts path names tree = .ok after ∧ ∀ other, after.node other =
      if path <+: other ∧ other <+: path ++ names then some .directory else tree.node other := by
  induction names generalizing path tree with
  | nil =>
    refine ⟨tree, rfl, fun other => ?_⟩
    split
    next same =>
      rw [List.append_nil] at same
      obtain rfl := same.1.eq_of_length_le same.2.length_le
      exact under
    next => rfl
  | cons name rest ih =>
    have first : [name] <+: name :: rest := List.prefix_append [name] rest
    obtain ⟨made, steps, nodes⟩ := mkdir_cons rest under (clear [name] first)
      (accepted [name] first (List.cons_ne_nil _ _))
    have later {below : List α} (on_way : below <+: rest) : name :: below <+: name :: rest :=
      List.cons_prefix_cons.mpr ⟨rfl, on_way⟩
    have made_clear : ∀ below, below <+: rest → ∀ content,
        made.node (path ++ [name] ++ below) ≠ some (.file content) := by
      intro below on_way content
      rw [nodes, Function.update_apply]
      split
      next => simp
      next => simpa using clear (name :: below) (later on_way) content
    obtain ⟨after, done, result⟩ := ih (by simp [nodes]) made_clear
      fun below on_way _ => by simpa using accepted (name :: below) (later on_way) (List.cons_ne_nil _ _)
    refine ⟨after, steps.trans done, fun other => ?_⟩
    rw [result, nodes, Function.update_apply]
    simp only [on_the_way_iff]
    by_cases same : other = path
    next =>
      subst same
      simp [under]
    next =>
      by_cases next_one : other = path ++ [name]
      next => simp [next_one]
      next => simp [same, next_one]

theorem writeFile_ok {path : List α} {name : α} (content : String) {tree : FileTree α}
    (under : tree.node path = some .directory) (free : tree.node (path ++ [name]) ≠ some .directory)
    (accepted : accepts (path ++ [name]) = true) :
    ∃ after, writeFile accepts path name content tree = .ok after ∧
      after.node = Function.update tree.node (path ++ [name]) (some (.file content)) := by
  rw [writeFile, dif_pos under, dif_pos free, if_pos accepted]
  exact ⟨_, rfl, rfl⟩

end

end FileTree
