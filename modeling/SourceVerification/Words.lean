import Mathlib.Data.List.Basic
import Mathlib.Logic.Function.Basic

set_option autoImplicit false

namespace SourceVerification

def hexDigits : List Char :=
  ['0', '1', '2', '3', '4', '5', '6', '7', '8', '9', 'a', 'b', 'c', 'd', 'e', 'f']

def upperHexDigits : List Char := ['A', 'B', 'C', 'D', 'E', 'F']

def isWordText (text : String) : Bool :=
  match text.toList with
  | '0' :: 'x' :: digits => digits.length == 64 && digits.all hexDigits.contains
  | _ => false

/-- A 32-byte word as `to_hex` prints it: every root and commitment the services exchange. -/
structure Word where
  text : String
  canonical : isWordText text = true
deriving DecidableEq

theorem Word.eq_of_text {a b : Word} (same : a.text = b.text) : a = b := by
  cases a
  cases b
  simpa using same

-- Only ever applied to ASCII text, where `toLowerCase` and `Char.toLower` agree.
def toLowerCase (value : String) : String :=
  String.ofList (value.toList.map Char.toLower)

theorem toLower_hexDigit (c : Char) (digit : hexDigits.contains c = true) : c.toLower = c := by
  have all : hexDigits.all (fun c => c.toLower = c) = true := by decide
  exact of_decide_eq_true (List.all_eq_true.mp all c (by simpa using digit))

theorem isWordText_iff (text : String) :
    isWordText text = true ↔ ∃ digits : List Char, text.toList = '0' :: 'x' :: digits ∧
      digits.length = 64 ∧ ∀ c ∈ digits, hexDigits.contains c = true := by
  unfold isWordText
  constructor
  · intro canonical
    split at canonical
    · rename_i digits shape
      simp only [Bool.and_eq_true, beq_iff_eq, List.all_eq_true] at canonical
      exact ⟨digits, shape, canonical.1, canonical.2⟩
    · cases canonical
  · rintro ⟨digits, shape, length, all⟩
    simp [shape, length]
    simpa using all

theorem Word.length_text (word : Word) : word.text.toList.length = 66 := by
  obtain ⟨digits, shape, length, _⟩ := (isWordText_iff word.text).mp word.canonical
  simp [shape, length]

@[simp] theorem Word.toLowerCase_text (word : Word) : toLowerCase word.text = word.text := by
  obtain ⟨digits, shape, _, all⟩ := (isWordText_iff word.text).mp word.canonical
  apply String.ext
  have kept : digits.map Char.toLower = digits := by
    rw [List.map_congr_left fun c member => toLower_hexDigit c (all c member), List.map_id']
  simp [toLowerCase, shape, kept]

def rootPattern (value : String) : Bool :=
  match value.toList with
  | '0' :: x :: digits =>
    (x == 'x' || x == 'X') && digits.length == 64 &&
      digits.all (hexDigits ++ upperHexDigits).contains
  | _ => false

theorem toLowerCase_canonical (value : String) (root : rootPattern value = true) :
    isWordText (toLowerCase value) = true := by
  have digits : (hexDigits ++ upperHexDigits).all (fun c => hexDigits.contains c.toLower) = true := by
    decide
  have digit := List.all_eq_true.mp digits
  unfold rootPattern at root
  split at root
  · rename_i x digits shape
    simp only [Bool.and_eq_true, Bool.or_eq_true, beq_iff_eq, List.all_eq_true,
      List.contains_iff_mem] at root
    obtain ⟨⟨hx, length⟩, all⟩ := root
    rw [isWordText_iff]
    refine ⟨digits.map Char.toLower, ?_, by simpa using length, ?_⟩
    · rcases hx with rfl | rfl <;> simp [toLowerCase, shape]
    · intro c member
      obtain ⟨d, hd, rfl⟩ := List.mem_map.mp member
      exact digit d (all d hd)
  · cases root

/-- `undefined` when the value is not a root, else its lowercase form. -/
def parseRoot (value : String) : Option Word :=
  if root : rootPattern value = true then
    some ⟨toLowerCase value, toLowerCase_canonical value root⟩
  else
    none

@[simp] theorem parseRoot_text (word : Word) : parseRoot word.text = some word := by
  have root : rootPattern word.text = true := by
    obtain ⟨digits, shape, length, all⟩ := (isWordText_iff word.text).mp word.canonical
    simp only [rootPattern, shape, length, beq_self_eq_true, Bool.true_or, Bool.true_and,
      List.all_eq_true]
    intro c member
    have digit := all c member
    simp only [List.contains_iff_mem] at digit ⊢
    exact List.mem_append_left _ digit
  rw [parseRoot, dif_pos root]
  exact congrArg some (Word.eq_of_text word.toLowerCase_text)

inductive MaspVariant
  | release
  | debug
deriving DecidableEq

def maspSuffix : MaspVariant → String
  | .release => ".masp"
  | .debug => ".debug.masp"

def maspKey (commitment : String) (variant : MaspVariant) : String :=
  toLowerCase commitment ++ maspSuffix variant

def underscoreRuns (inRun : Bool) : List Char → List Char
  | [] => []
  | c :: rest =>
    if c.isAlphanum ∨ c = '.' then c :: underscoreRuns false rest
    else if inRun then underscoreRuns true rest
    else '_' :: underscoreRuns true rest

def maspDownloadName (name : String) (commitment : Word) (variant : MaspVariant) : String :=
  match (underscoreRuns false name.toList).dropWhile (· = '_') with
  | [] => maspKey commitment.text variant
  | base => String.ofList base ++ maspSuffix variant

example : maspDownloadName "miden:basic-wallet/basic-wallet"
    ⟨"0x1111111111111111111111111111111111111111111111111111111111111111", by decide⟩ .debug =
      "miden_basic_wallet_basic_wallet.debug.masp" := by decide

def parseMaspKey (key : String) : Option (Word × MaspVariant) :=
  match parseRoot (String.ofList (key.toList.take 66)) with
  | none => none
  | some commitment =>
    let suffix := toLowerCase (String.ofList (key.toList.drop 66))
    if suffix = maspSuffix .debug then some (commitment, .debug)
    else if suffix = maspSuffix .release then some (commitment, .release)
    else none

theorem maspKey_injective {a b : Word} {v w : MaspVariant}
    (same : maspKey a.text v = maspKey b.text w) : a = b ∧ v = w := by
  have lists := congrArg String.toList same
  simp only [maspKey, Word.toLowerCase_text, String.toList_append] at lists
  obtain ⟨text, suffix⟩ := List.append_inj lists (by simp only [Word.length_text])
  refine ⟨Word.eq_of_text (String.ext text), ?_⟩
  cases v <;> cases w <;> first | rfl | exact absurd suffix (by decide)

@[simp] theorem maspKey_eq_iff {a b : Word} {v w : MaspVariant} :
    maspKey a.text v = maspKey b.text w ↔ a = b ∧ v = w :=
  ⟨maspKey_injective, by rintro ⟨rfl, rfl⟩; rfl⟩

abbrev Masp := List UInt8

abbrev MaspStore := String → Option Masp

def MaspStore.put (store : MaspStore) (commitment : Word) (masp : Masp) (variant : MaspVariant) :
    MaspStore :=
  Function.update store (maspKey commitment.text variant) (some masp)

def MaspStore.get (store : MaspStore) (commitment : Word) (variant : MaspVariant) : Option Masp :=
  store (maspKey commitment.text variant)

def MaspStore.delete (store : MaspStore) (commitment : Word) (variant : MaspVariant) : MaspStore :=
  Function.update store (maspKey commitment.text variant) none

theorem MaspStore.get_put (store : MaspStore) (a b : Word) (masp : Masp) (v w : MaspVariant) :
    (store.put a masp v).get b w = if b = a ∧ w = v then some masp else store.get b w := by
  simp [put, get, Function.update_apply]

theorem MaspStore.get_delete (store : MaspStore) (a b : Word) (v w : MaspVariant) :
    (store.delete a v).get b w = if b = a ∧ w = v then none else store.get b w := by
  simp [delete, get, Function.update_apply]

end SourceVerification
