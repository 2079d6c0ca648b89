import SourceVerification.Words
import SourceVerification.Shared.FileTree
import SourceVerification.Shared.Paths

set_option autoImplicit false

namespace SourceVerification.Registry.Storage

open Paths
open FileTree (Errno)

structure MaspStore (σ : Type) where
  put (commitment : String) (masp : Masp) (variant : Option MaspVariant) : σ → Except Errno Unit × σ
  get (commitment : String) (variant : Option MaspVariant) : σ → Except Errno (Option Masp)
  delete (commitment : String) (variant : Option MaspVariant) : σ → Except Errno Unit × σ

-- A variant that isn't given is `maspKey`'s default.
def fileName (commitment : String) (variant : Option MaspVariant) : List Char :=
  (maspKey commitment (variant.getD .release)).toList

inductive Entry
  | directory
  | file (masp : Masp)
deriving DecidableEq

abbrev Disk := List Name → Option Entry

def isFile : Option Entry → Bool
  | some (.file _) => true
  | _ => false

def Disk.missing (disk : Disk) (path : List Name) : Errno :=
  if path.inits.any fun above => isFile (disk above) then .ENOTDIR else .ENOENT

section

variable (path : List Name) (disk : Disk)

def mkdir : Except Errno Disk :=
  if isFile (disk path) then .error .EEXIST
  else if path.inits.any fun above => isFile (disk above) then .error .ENOTDIR
  else .ok fun other => if other <+: path then some .directory else disk other

def writeFile (masp : Masp) : Except Errno Disk :=
  if disk path = some .directory then .error .EISDIR
  else if disk path.dropLast = some .directory then .ok (Function.update disk path (some (.file masp)))
  else .error (disk.missing path.dropLast)

def readFile : Except Errno Masp :=
  match disk path with
  | some (.file masp) => .ok masp
  | some .directory => .error .EISDIR
  | none => .error (disk.missing path)

def rm : Except Errno Disk :=
  match disk path with
  | some (.file _) => .ok (Function.update disk path none)
  | some .directory => .error .EISDIR
  | none => if disk.missing path = .ENOENT then .ok disk else .error (disk.missing path)

end

def createFsMaspStore (cwd : List Name) (dir : List Char) : MaspStore Disk where
  put commitment masp variant disk :=
    match (if dir = [] then .error .ENOENT else mkdir (resolve cwd dir) disk) with
    | .error error => (.error error, disk)
    | .ok made =>
      match writeFile (resolve cwd (join dir (fileName commitment variant))) made masp with
      | .error error => (.error error, made)
      | .ok written => (.ok (), written)
  get commitment variant disk :=
    match readFile (resolve cwd (join dir (fileName commitment variant))) disk with
    | .ok masp => .ok (some masp)
    | .error error => if error = .ENOENT then .ok none else .error error
  delete commitment variant disk :=
    match rm (resolve cwd (join dir (fileName commitment variant))) disk with
    | .error error => (.error error, disk)
    | .ok removed => (.ok (), removed)

abbrev Bucket := List Char → Option Masp

def createR2MaspStore : MaspStore Bucket where
  put commitment masp variant bucket :=
    (.ok (), Function.update bucket (fileName commitment variant) (some masp))
  get commitment variant bucket := .ok (bucket (fileName commitment variant))
  delete commitment variant bucket :=
    (.ok (), Function.update bucket (fileName commitment variant) none)

/-- A commitment in any letter case. -/
structure Commitment where
  text : String
  root : rootPattern text = true

def Commitment.lowercase (commitment : Commitment) : Word :=
  ⟨toLowerCase commitment.text, toLowerCase_canonical commitment.text commitment.root⟩

inductive Operation
  | put (commitment : Commitment) (masp : Masp) (variant : Option MaspVariant)
  | get (commitment : Commitment) (variant : Option MaspVariant)
  | delete (commitment : Commitment) (variant : Option MaspVariant)

def MaspStore.step {σ : Type} (store : MaspStore σ) (state : σ) : Operation → Bool × σ
  | .put commitment masp variant =>
    let (result, after) := store.put commitment.text masp variant state
    (result.isOk, after)
  | .get commitment variant => ((store.get commitment.text variant state).isOk, state)
  | .delete commitment variant =>
    let (result, after) := store.delete commitment.text variant state
    (result.isOk, after)

def MaspStore.run {σ : Type} (store : MaspStore σ) (state : σ) : List Operation → List Operation × σ
  | [] => ([], state)
  | operation :: rest =>
    let (succeeded, after) := store.step state operation
    let (done, last) := store.run after rest
    (if succeeded then operation :: done else done, last)

abbrev Artifacts := Word × MaspVariant → Option Masp

def Operation.on (artifacts : Artifacts) : Operation → Artifacts
  | .put commitment masp variant =>
    Function.update artifacts (commitment.lowercase, variant.getD .release) (some masp)
  | .get _ _ => artifacts
  | .delete commitment variant =>
    Function.update artifacts (commitment.lowercase, variant.getD .release) none

def Operation.keep (key : Word × MaspVariant) (kept : Option Masp) : Operation → Option Masp
  | .put commitment masp variant =>
    if key = (commitment.lowercase, variant.getD .release) then some masp else kept
  | .get _ _ => kept
  | .delete commitment variant =>
    if key = (commitment.lowercase, variant.getD .release) then none else kept

/-- The bytes of the last put that no delete followed, for this commitment and variant. -/
def lastPut (key : Word × MaspVariant) (before : Option Masp) (operations : List Operation) : Option Masp :=
  operations.foldl (Operation.keep key) before

def masp : Option Entry → Option Masp
  | some (.file masp) => some masp
  | _ => none

def filed (directory : List Name) (disk : Disk) : Artifacts :=
  fun key => masp (disk (directory ++ [(maspKey key.1.text key.2).toList]))

def stored (bucket : Bucket) : Artifacts :=
  fun key => bucket (maspKey key.1.text key.2).toList

structure Refines {σ : Type} (store : MaspStore σ) (artifacts : σ → Artifacts) : Prop where
  succeeds : ∀ state operation, (store.step state operation).1 = true →
    artifacts (store.step state operation).2 = operation.on (artifacts state)
  fails : ∀ state operation, (store.step state operation).1 = false →
    artifacts (store.step state operation).2 = artifacts state
  answers : ∀ state (commitment : Commitment) variant found, store.get commitment.text variant state = .ok found →
    found = artifacts state (commitment.lowercase, variant.getD .release)

theorem on_apply (operation : Operation) (artifacts : Artifacts) (key : Word × MaspVariant) :
    operation.on artifacts key = operation.keep key (artifacts key) := by
  cases operation with
  | put commitment masp variant => exact Function.update_apply ..
  | get commitment variant => rfl
  | delete commitment variant => exact Function.update_apply ..

theorem run_lastPut {σ : Type} {store : MaspStore σ} {artifacts : σ → Artifacts} (refines : Refines store artifacts)
    (state : σ) (operations : List Operation) (key : Word × MaspVariant) :
    artifacts (store.run state operations).2 key =
      lastPut key (artifacts state key) (store.run state operations).1 := by
  induction operations generalizing state with
  | nil => rfl
  | cons operation rest ih =>
    cases succeeded : (store.step state operation).1 with
    | true =>
      have after := congrFun (refines.succeeds state operation succeeded) key
      rw [on_apply] at after
      simp only [MaspStore.run, succeeded, if_true, ih, after]
      rfl
    | false =>
      have after := congrFun (refines.fails state operation succeeded) key
      simp only [MaspStore.run, succeeded, Bool.false_eq_true, if_false, ih, after]

def Keeps (kept : SourceVerification.MaspStore) (artifacts : Artifacts) : Prop :=
  ∀ commitment variant, kept.get commitment variant = artifacts (commitment, variant)

def Operation.onKept (kept : SourceVerification.MaspStore) : Operation → SourceVerification.MaspStore
  | .put commitment masp variant => kept.put commitment.lowercase masp (variant.getD .release)
  | .get _ _ => kept
  | .delete commitment variant => kept.delete commitment.lowercase (variant.getD .release)

theorem Keeps.on {kept : SourceVerification.MaspStore} {artifacts : Artifacts} (keeps : Keeps kept artifacts)
    (operation : Operation) : Keeps (operation.onKept kept) (operation.on artifacts) := by
  intro commitment variant
  cases operation with
  | put other masp given =>
    simp [Operation.onKept, Operation.on, SourceVerification.MaspStore.get_put, Function.update_apply,
      keeps commitment variant]
  | get other given => exact keeps commitment variant
  | delete other given =>
    simp [Operation.onKept, Operation.on, SourceVerification.MaspStore.get_delete, Function.update_apply,
      keeps commitment variant]

theorem run_keeps {σ : Type} {store : MaspStore σ} {artifacts : σ → Artifacts} (refines : Refines store artifacts)
    (state : σ) (operations : List Operation) {kept : SourceVerification.MaspStore}
    (keeps : Keeps kept (artifacts state)) :
    Keeps ((store.run state operations).1.foldl Operation.onKept kept) (artifacts (store.run state operations).2) := by
  induction operations generalizing state kept with
  | nil => exact keeps
  | cons operation rest ih =>
    cases succeeded : (store.step state operation).1 with
    | true =>
      have after := refines.succeeds state operation succeeded
      simp only [MaspStore.run, succeeded, if_true, List.foldl_cons]
      exact ih _ (after ▸ keeps.on operation)
    | false =>
      have after := refines.fails state operation succeeded
      simp only [MaspStore.run, succeeded, Bool.false_eq_true, if_false]
      exact ih _ (after ▸ keeps)

theorem run_succeeds {σ : Type} {store : MaspStore σ} {Usable : σ → Prop}
    (step : ∀ state operation, Usable state →
      (store.step state operation).1 = true ∧ Usable (store.step state operation).2)
    {state : σ} (usable : Usable state) (operations : List Operation) :
    (store.run state operations).1 = operations ∧ Usable (store.run state operations).2 := by
  induction operations generalizing state with
  | nil => exact ⟨rfl, usable⟩
  | cons operation rest ih =>
    obtain ⟨succeeded, still⟩ := step state operation usable
    obtain ⟨done, last⟩ := ih still
    simp only [MaspStore.run, succeeded, if_true, done]
    exact ⟨trivial, last⟩

theorem toLowerCase_toLowerCase (commitment : Commitment) :
    toLowerCase (toLowerCase commitment.text) = toLowerCase commitment.text :=
  commitment.lowercase.toLowerCase_text

theorem maspKey_lowercase (commitment : Commitment) (variant : MaspVariant) :
    maspKey commitment.lowercase.text variant = maspKey commitment.text variant := by
  rw [maspKey, maspKey, Commitment.lowercase, toLowerCase_toLowerCase]

theorem maspKey_eq_append (word : Word) (variant : MaspVariant) :
    (maspKey word.text variant).toList = word.text.toList ++ (maspSuffix variant).toList := by
  rw [maspKey, word.toLowerCase_text, String.toList_append]

theorem maspKey_plain (word : Word) (variant : MaspVariant) : Plain (maspKey word.text variant).toList := by
  rw [maspKey_eq_append]
  obtain ⟨digits, shape, length, all⟩ := (isWordText_iff word.text).mp word.canonical
  have text : '/' ∉ word.text.toList := by
    rw [shape]
    simp only [List.mem_cons, not_or]
    refine ⟨by decide, by decide, fun member => absurd (all _ member) (by decide)⟩
  have suffix : '/' ∉ (maspSuffix variant).toList := by cases variant <;> decide
  have slash : '/' ∉ word.text.toList ++ (maspSuffix variant).toList := by simp [text, suffix]
  rw [shape] at slash ⊢
  exact ⟨by simp, by simp [dot], by simp [dotDot], slash⟩

theorem parseMaspKey_maspKey (commitment : Commitment) (variant : MaspVariant) :
    parseMaspKey (maspKey commitment.text variant) = some (commitment.lowercase, variant) := by
  have key := maspKey_eq_append commitment.lowercase variant
  have length := commitment.lowercase.length_text
  rw [maspKey_lowercase] at key
  have head : String.ofList ((maspKey commitment.text variant).toList.take 66) = commitment.lowercase.text := by
    rw [key, ← length, List.take_left, String.ofList_toList]
  have tail : String.ofList ((maspKey commitment.text variant).toList.drop 66) = maspSuffix variant := by
    rw [key, ← length, List.drop_left, String.ofList_toList]
  rw [parseMaspKey, head, parseRoot_text]
  simp only [tail]
  have release : toLowerCase (maspSuffix .release) = maspSuffix .release := by decide
  have debug : toLowerCase (maspSuffix .debug) = maspSuffix .debug := by decide
  cases variant with
  | release => rw [release, if_neg (by decide), if_pos rfl]
  | debug => rw [debug, if_pos rfl]

theorem maspKey_parseMaspKey {key : String} {commitment : Word} {variant : MaspVariant}
    (parsed : parseMaspKey key = some (commitment, variant)) :
    maspKey commitment.text variant = toLowerCase key := by
  have split : toLowerCase key = toLowerCase (String.ofList (key.toList.take 66)) ++
      toLowerCase (String.ofList (key.toList.drop 66)) := by
    apply String.ext
    simp [toLowerCase]
  rw [parseMaspKey, parseRoot] at parsed
  by_cases root : rootPattern (String.ofList (key.toList.take 66)) = true
  next =>
    simp only [dif_pos root] at parsed
    split_ifs at parsed with debug release
    next =>
      obtain ⟨rfl, rfl⟩ := Prod.mk.inj (Option.some.inj parsed)
      rw [split, debug, maspKey, Word.toLowerCase_text]
    next =>
      obtain ⟨rfl, rfl⟩ := Prod.mk.inj (Option.some.inj parsed)
      rw [split, release, maspKey, Word.toLowerCase_text]
  next =>
    simp only [dif_neg root] at parsed
    cases parsed

theorem fileName_eq (commitment : Commitment) (variant : Option MaspVariant) :
    fileName commitment.text variant =
      (maspKey commitment.lowercase.text (variant.getD .release)).toList := by
  rw [maspKey_lowercase, fileName]

theorem fileName_eq_iff {key : Word × MaspVariant} {commitment : Commitment} {variant : Option MaspVariant} :
    (maspKey key.1.text key.2).toList = fileName commitment.text variant ↔
      key = (commitment.lowercase, variant.getD .release) := by
  rw [fileName_eq, String.toList_inj, maspKey_eq_iff, Prod.ext_iff]

theorem createR2MaspStore_succeeds (bucket : Bucket) (operation : Operation) :
    (createR2MaspStore.step bucket operation).1 = true := by
  cases operation <;> rfl

theorem createR2MaspStore_refines : Refines createR2MaspStore stored where
  succeeds bucket operation _ := by
    funext key
    rw [on_apply]
    cases operation with
    | put commitment masp variant =>
      simp only [MaspStore.step, createR2MaspStore, stored, Operation.keep, Function.update_apply,
        fileName_eq_iff]
    | get commitment variant => rfl
    | delete commitment variant =>
      simp only [MaspStore.step, createR2MaspStore, stored, Operation.keep, Function.update_apply,
        fileName_eq_iff]
  fails bucket operation failed := by
    rw [createR2MaspStore_succeeds] at failed
    cases failed
  answers bucket commitment variant found answered := by
    obtain rfl := Except.ok.inj answered
    rw [fileName_eq, stored]

theorem not_prefix_concat (path : List Name) (name : Name) : ¬ path ++ [name] <+: path := by
  intro above
  have length := above.length_le
  simp only [List.length_append, List.length_singleton] at length
  omega

section

variable {directory : List Name} {disk : Disk}

theorem mkdir_filed {made : Disk} (ok : mkdir directory disk = .ok made) :
    filed directory made = filed directory disk ∧ made directory = some .directory := by
  unfold mkdir at ok
  split_ifs at ok
  obtain rfl := Except.ok.inj ok
  refine ⟨?_, if_pos (List.prefix_refl _)⟩
  funext key
  rw [filed, filed, if_neg (not_prefix_concat _ _)]

theorem update_filed (key : Word × MaspVariant) (entry : Option Entry) :
    filed directory (Function.update disk (directory ++ [(maspKey key.1.text key.2).toList]) entry) =
      Function.update (filed directory disk) key (masp entry) := by
  funext other
  rw [filed, Function.update_apply, Function.update_apply]
  by_cases same : other = key
  next => simp [same]
  next =>
    have different : directory ++ [(maspKey other.1.text other.2).toList] ≠
        directory ++ [(maspKey key.1.text key.2).toList] := by
      intro paths
      have names := List.singleton_inj.mp (List.append_cancel_left paths)
      exact same (Prod.ext_iff.mpr (maspKey_eq_iff.mp (String.toList_inj.mp names)))
    rw [if_neg different, if_neg same, filed]

end

theorem writeFile_ok {path : List Name} {disk written : Disk} {masp : Masp}
    (ok : writeFile path disk masp = .ok written) : written = Function.update disk path (some (.file masp)) := by
  unfold writeFile at ok
  split_ifs at ok
  exact (Except.ok.inj ok).symm

theorem rm_ok {path : List Name} {disk removed : Disk} (ok : rm path disk = .ok removed) :
    removed = Function.update disk path none := by
  unfold rm at ok
  split at ok
  next => exact (Except.ok.inj ok).symm
  next => cases ok
  next absent =>
    split_ifs at ok
    rw [← absent, Function.update_eq_self, Except.ok.inj ok]

section

variable (cwd : List Name) (dir : List Char)

theorem fileName_path (commitment : Commitment) (variant : Option MaspVariant) :
    resolve cwd (join dir (fileName commitment.text variant)) = resolve cwd dir ++
      [(maspKey commitment.lowercase.text (variant.getD .release)).toList] := by
  rw [fileName_eq, resolve_join cwd dir (maspKey_plain _ _)]

section

variable {cwd dir} {disk after : Disk} {commitment : Commitment} {variant : Option MaspVariant}

theorem put_ok {masp : Masp}
    (ok : (createFsMaspStore cwd dir).put commitment.text masp variant disk = (.ok (), after)) :
    filed (resolve cwd dir) after = Function.update (filed (resolve cwd dir) disk)
      (commitment.lowercase, variant.getD .release) (some masp) := by
  simp only [createFsMaspStore, fileName_path] at ok
  split at ok
  next => cases ok
  next made ready =>
    split at ok
    next => cases ok
    next written wrote =>
      obtain rfl := (Prod.mk.inj ok).2
      split_ifs at ready
      rw [← (mkdir_filed ready).1, writeFile_ok wrote]
      exact update_filed (commitment.lowercase, variant.getD .release) _

theorem put_error {masp : Masp} {error : Errno}
    (failed : (createFsMaspStore cwd dir).put commitment.text masp variant disk = (.error error, after)) :
    filed (resolve cwd dir) after = filed (resolve cwd dir) disk := by
  simp only [createFsMaspStore] at failed
  split at failed
  next => rw [← (Prod.mk.inj failed).2]
  next made ready =>
    split at failed
    next =>
      split_ifs at ready
      rw [← (Prod.mk.inj failed).2, (mkdir_filed ready).1]
    next => cases failed

theorem delete_ok (ok : (createFsMaspStore cwd dir).delete commitment.text variant disk = (.ok (), after)) :
    filed (resolve cwd dir) after = Function.update (filed (resolve cwd dir) disk)
      (commitment.lowercase, variant.getD .release) none := by
  simp only [createFsMaspStore, fileName_path] at ok
  split at ok
  next => cases ok
  next removed gone =>
    obtain rfl := (Prod.mk.inj ok).2
    rw [rm_ok gone]
    exact update_filed (commitment.lowercase, variant.getD .release) none

theorem delete_error {error : Errno}
    (failed : (createFsMaspStore cwd dir).delete commitment.text variant disk = (.error error, after)) :
    filed (resolve cwd dir) after = filed (resolve cwd dir) disk := by
  simp only [createFsMaspStore] at failed
  split at failed
  next => rw [← (Prod.mk.inj failed).2]
  next => cases failed

end

theorem createFsMaspStore_refines : Refines (createFsMaspStore cwd dir) (filed (resolve cwd dir)) where
  succeeds disk operation succeeded := by
    cases operation with
    | put commitment masp variant =>
      cases result : (createFsMaspStore cwd dir).put commitment.text masp variant disk with
      | mk outcome after =>
        simp only [MaspStore.step, result] at succeeded ⊢
        cases outcome with
        | error error => cases succeeded
        | ok => exact put_ok result
    | get commitment variant => rfl
    | delete commitment variant =>
      cases result : (createFsMaspStore cwd dir).delete commitment.text variant disk with
      | mk outcome after =>
        simp only [MaspStore.step, result] at succeeded ⊢
        cases outcome with
        | error error => cases succeeded
        | ok => exact delete_ok result
  fails disk operation failed := by
    cases operation with
    | put commitment masp variant =>
      cases result : (createFsMaspStore cwd dir).put commitment.text masp variant disk with
      | mk outcome after =>
        simp only [MaspStore.step, result] at failed ⊢
        cases outcome with
        | error error => exact put_error result
        | ok => cases failed
    | get commitment variant => rfl
    | delete commitment variant =>
      cases result : (createFsMaspStore cwd dir).delete commitment.text variant disk with
      | mk outcome after =>
        simp only [MaspStore.step, result] at failed ⊢
        cases outcome with
        | error error => exact delete_error result
        | ok => cases failed
  answers disk commitment variant found answered := by
    simp only [createFsMaspStore, fileName_path, readFile] at answered
    unfold filed masp
    split at answered
    next bytes read =>
      obtain rfl := Except.ok.inj answered
      split at read
      next found => rw [found, Except.ok.inj read]
      next => cases read
      next => cases read
    next error read =>
      split_ifs at answered with missing
      obtain rfl := Except.ok.inj answered
      split at read
      next => cases read
      next => exact absurd (Except.error.inj read) (by simp [missing])
      next absent => rw [absent]

/-- No file is in the way of the directory, and no directory in the way of an artifact. -/
structure Usable (disk : Disk) : Prop where
  given : dir ≠ []
  above : ∀ path, path <+: resolve cwd dir → isFile (disk path) = false
  free : ∀ key : Word × MaspVariant,
    disk (resolve cwd dir ++ [(maspKey key.1.text key.2).toList]) ≠ some .directory

variable {cwd dir} {disk : Disk} (usable : Usable cwd dir disk)

include usable

theorem Usable.mkdir : ∃ made, mkdir (resolve cwd dir) disk = .ok made ∧ Usable cwd dir made ∧
    made (resolve cwd dir) = some .directory := by
  have noFile : ¬ (resolve cwd dir).inits.any (fun above => isFile (disk above)) = true := by
    rw [List.any_eq_true]
    rintro ⟨path, above, file⟩
    rw [usable.above path ((List.mem_inits _ _).mp above)] at file
    cases file
  have here : ¬ isFile (disk (resolve cwd dir)) = true := by
    rw [usable.above _ (List.prefix_refl _)]
    decide
  refine ⟨_, by rw [Storage.mkdir, if_neg here, if_neg noFile], ⟨usable.given, ?_, ?_⟩,
    if_pos (List.prefix_refl _)⟩
  · intro path above
    rw [if_pos above]
    rfl
  · intro key
    rw [if_neg (not_prefix_concat _ _)]
    exact usable.free key

theorem Usable.update (key : Word × MaspVariant) {entry : Option Entry} (file : entry ≠ some .directory) :
    Usable cwd dir
      (Function.update disk (resolve cwd dir ++ [(maspKey key.1.text key.2).toList]) entry) := by
  refine ⟨usable.given, fun path above => ?_, fun other => ?_⟩
  · rw [Function.update_of_ne]
    · exact usable.above path above
    · rintro rfl
      exact not_prefix_concat _ _ above
  · rw [Function.update_apply]
    split
    next => exact file
    next => exact usable.free other

theorem Usable.missing (key : Word × MaspVariant)
    (absent : disk (resolve cwd dir ++ [(maspKey key.1.text key.2).toList]) = none) :
    disk.missing (resolve cwd dir ++ [(maspKey key.1.text key.2).toList]) = .ENOENT := by
  rw [Disk.missing, if_neg]
  rw [List.any_eq_true]
  rintro ⟨path, above, file⟩
  rcases List.prefix_concat_iff.mp ((List.mem_inits _ _).mp above) with rfl | above
  next =>
    rw [absent] at file
    cases file
  next =>
    rw [usable.above path above] at file
    cases file

theorem Usable.get (commitment : Commitment) (variant : Option MaspVariant) :
    ∃ found, (createFsMaspStore cwd dir).get commitment.text variant disk = .ok found := by
  have missing := usable.missing (commitment.lowercase, variant.getD .release)
  have free := usable.free (commitment.lowercase, variant.getD .release)
  simp only [createFsMaspStore, fileName_path, readFile] at missing free ⊢
  cases read : disk (resolve cwd dir ++ [(maspKey commitment.lowercase.text (variant.getD .release)).toList]) with
  | none =>
    simp only [missing read]
    exact ⟨none, rfl⟩
  | some entry =>
    cases entry with
    | directory => exact absurd read free
    | file masp => exact ⟨some masp, rfl⟩

theorem Usable.put (commitment : Commitment) (masp : Masp) (variant : Option MaspVariant) : ∃ after,
    (createFsMaspStore cwd dir).put commitment.text masp variant disk = (.ok (), after) ∧
      Usable cwd dir after := by
  obtain ⟨made, ready, still, directory⟩ := usable.mkdir
  have free := still.free (commitment.lowercase, variant.getD .release)
  have after := still.update (commitment.lowercase, variant.getD .release)
    (by simp : some (Entry.file masp) ≠ some .directory)
  refine ⟨_, ?_, after⟩
  simp only [createFsMaspStore, fileName_path, if_neg usable.given, ready, writeFile, if_neg free,
    List.dropLast_concat, directory, if_true]

theorem Usable.delete (commitment : Commitment) (variant : Option MaspVariant) : ∃ after,
    (createFsMaspStore cwd dir).delete commitment.text variant disk = (.ok (), after) ∧
      Usable cwd dir after := by
  have missing := usable.missing (commitment.lowercase, variant.getD .release)
  have free := usable.free (commitment.lowercase, variant.getD .release)
  have after := usable.update (commitment.lowercase, variant.getD .release)
    (by simp : (none : Option Entry) ≠ some .directory)
  simp only [createFsMaspStore, fileName_path, rm] at missing free ⊢
  cases read : disk (resolve cwd dir ++ [(maspKey commitment.lowercase.text (variant.getD .release)).toList]) with
  | none =>
    simp only [missing read, if_true]
    exact ⟨disk, rfl, usable⟩
  | some entry =>
    cases entry with
    | directory => exact absurd read free
    | file masp => exact ⟨_, rfl, after⟩

theorem Usable.step (operation : Operation) :
    ((createFsMaspStore cwd dir).step disk operation).1 = true ∧
      Usable cwd dir ((createFsMaspStore cwd dir).step disk operation).2 := by
  cases operation with
  | put commitment masp variant =>
    obtain ⟨after, done, still⟩ := usable.put commitment masp variant
    simp only [MaspStore.step, done]
    exact ⟨rfl, still⟩
  | get commitment variant =>
    obtain ⟨found, read⟩ := usable.get commitment variant
    simp only [MaspStore.step, read]
    exact ⟨rfl, usable⟩
  | delete commitment variant =>
    obtain ⟨after, done, still⟩ := usable.delete commitment variant
    simp only [MaspStore.step, done]
    exact ⟨rfl, still⟩

end

theorem maspStore_last_put :
    (∀ (commitment : Commitment) variant,
      parseMaspKey (maspKey commitment.text variant) = some (commitment.lowercase, variant)) ∧
    (∀ key commitment variant, parseMaspKey key = some (commitment, variant) →
      maspKey commitment.text variant = toLowerCase key) ∧
    (∀ a b : Commitment, maspKey a.text .release ≠ maspKey b.text .debug) ∧
    (∀ cwd dir disk operations (commitment : Commitment) variant,
      let store := createFsMaspStore cwd dir
      let key := (commitment.lowercase, variant.getD .release)
      let before := filed (resolve cwd dir) disk key
      (∀ found, store.get commitment.text variant (store.run disk operations).2 = .ok found →
        found = lastPut key before (store.run disk operations).1) ∧
      (Usable cwd dir disk → store.get commitment.text variant (store.run disk operations).2 =
        .ok (lastPut key before operations))) ∧
    ∀ bucket operations (commitment : Commitment) variant,
      let store := createR2MaspStore
      let key := (commitment.lowercase, variant.getD .release)
      store.get commitment.text variant (store.run bucket operations).2 =
        .ok (lastPut key (stored bucket key) operations) := by
  refine ⟨parseMaspKey_maspKey, fun _ _ _ => maspKey_parseMaspKey, ?_, ?_, ?_⟩
  · intro a b same
    rw [← maspKey_lowercase a, ← maspKey_lowercase b, maspKey_eq_iff] at same
    exact absurd same.2 (by decide)
  · intro cwd dir disk operations commitment variant
    have refines := createFsMaspStore_refines cwd dir
    have answers : ∀ found, _ → _ := fun found answered =>
      (refines.answers _ commitment variant found answered).trans (run_lastPut refines disk operations _)
    refine ⟨answers, fun usable => ?_⟩
    obtain ⟨done, still⟩ := run_succeeds (fun _ operation now => Usable.step now operation) usable operations
    obtain ⟨found, answered⟩ := still.get commitment variant
    rw [answered, answers found answered, done]
  · intro bucket operations commitment variant store key
    have always : ∀ state operation, True → (store.step state operation).1 = true ∧ True :=
      fun state operation _ => ⟨createR2MaspStore_succeeds state operation, trivial⟩
    have done := (run_succeeds always trivial operations : (store.run bucket operations).1 = _ ∧ _).1
    have kept := run_lastPut createR2MaspStore_refines bucket operations key
    rw [done] at kept
    rw [← kept, stored, ← fileName_eq]
    rfl

end SourceVerification.Registry.Storage
