import Mathlib.Data.List.Lex
import Mathlib.Tactic.SplitIfs

set_option autoImplicit false

namespace CodeUnits

def ofChar (char : Char) : List Nat :=
  if char.toNat < 0x10000 then [char.toNat]
  else [0xD800 + (char.toNat - 0x10000) / 0x400, 0xDC00 + (char.toNat - 0x10000) % 0x400]

def codeUnits (string : String) : List Nat :=
  string.toList.flatMap ofChar

-- `strings.sort()`
def sort (strings : List String) : List String :=
  strings.mergeSort fun first second => codeUnits first ≤ codeUnits second

theorem toNat_valid (char : Char) : char.toNat < 0xD800 ∨ 0xDFFF < char.toNat ∧ char.toNat < 0x110000 :=
  char.valid

theorem ofChar_append_injective {char other : Char} {rest tail : List Nat}
    (same : ofChar char ++ rest = ofChar other ++ tail) : char = other ∧ rest = tail := by
  have first := toNat_valid char
  have second := toNat_valid other
  unfold ofChar at same
  split_ifs at same
  next =>
    simp only [List.singleton_append, List.cons.injEq] at same
    exact ⟨Char.toNat_inj.mp same.1, same.2⟩
  next =>
    simp only [List.cons_append, List.cons.injEq] at same
    omega
  next =>
    simp only [List.cons_append, List.cons.injEq] at same
    omega
  next =>
    simp only [List.cons_append, List.nil_append, List.cons.injEq] at same
    refine ⟨Char.toNat_inj.mp ?_, same.2.2⟩
    omega

theorem flatMap_ofChar_injective {chars others : List Char} (same : chars.flatMap ofChar = others.flatMap ofChar) :
    chars = others := by
  have nonempty (char : Char) : ofChar char ≠ [] := by
    unfold ofChar
    split <;> simp
  induction chars generalizing others with
  | nil =>
    cases others with
    | nil => rfl
    | cons other others => simp [nonempty, eq_comm] at same
  | cons char chars ih =>
    cases others with
    | nil => simp [nonempty] at same
    | cons other others =>
      obtain ⟨rfl, rest⟩ := ofChar_append_injective same
      rw [ih rest]

theorem codeUnits_injective : Function.Injective codeUnits :=
  fun _ _ same => String.toList_injective (flatMap_ofChar_injective same)

theorem mem_sort {strings : List String} {string : String} : string ∈ sort strings ↔ string ∈ strings :=
  List.mem_mergeSort

theorem sort_sorted (strings : List String) :
    (sort strings).Pairwise fun first second => codeUnits first ≤ codeUnits second := by
  refine (List.pairwise_mergeSort ?_ ?_ strings).imp fun ordered => of_decide_eq_true ordered
  · intro first second third earlier later
    exact decide_eq_true (le_trans (of_decide_eq_true earlier) (of_decide_eq_true later))
  · intro first second
    simpa using le_total (codeUnits first) (codeUnits second)

theorem findSome?_sort_eq_some_iff {α : Type} {find : String → Option α} {strings : List String} {found : α} :
    (sort strings).findSome? find = some found ↔ ∃ string ∈ strings, find string = some found ∧
      ∀ other ∈ strings, (find other).isSome → codeUnits string ≤ codeUnits other := by
  have least {result : α} (first : (sort strings).findSome? find = some result) :
      ∃ string ∈ strings, find string = some result ∧
        ∀ other ∈ strings, (find other).isSome → codeUnits string ≤ codeUnits other := by
    obtain ⟨before, string, after, split, here, none⟩ := List.findSome?_eq_some_iff.mp first
    have sorted := sort_sorted strings
    have inside (other : String) : other ∈ strings ↔ other ∈ before ++ string :: after := by
      rw [← split, mem_sort]
    rw [split] at sorted
    refine ⟨string, (inside string).mpr (by simp), here, fun other member some => ?_⟩
    rcases List.mem_append.mp ((inside other).mp member) with earlier | later
    · simp [none other earlier] at some
    · rcases List.mem_cons.mp later with rfl | later
      · exact le_refl _
      · exact List.rel_of_pairwise_cons (List.pairwise_append.mp sorted).2.1 later
  refine ⟨least, ?_⟩
  rintro ⟨string, member, here, first⟩
  have some : ((sort strings).findSome? find).isSome := by
    rw [List.findSome?_isSome_iff]
    exact ⟨string, mem_sort.mpr member, by simp [here]⟩
  obtain ⟨result, same⟩ := Option.isSome_iff_exists.mp some
  obtain ⟨other, otherMember, there, least⟩ := least same
  have least_string := least string member (by simp [here])
  have least_other := first other otherMember (by simp [there])
  obtain rfl := codeUnits_injective (le_antisymm least_string least_other)
  rw [same, ← there, here]

end CodeUnits
