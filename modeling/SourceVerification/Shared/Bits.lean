import Mathlib.Data.List.Basic
import Mathlib.Tactic.Push

set_option autoImplicit false

namespace Bits

def toBits {width : Nat} (word : BitVec width) : List Bool :=
  (List.range width).map word.getMsbD

def ofBits (width : Nat) (bits : List Bool) : BitVec width :=
  (BitVec.ofBoolListBE bits).setWidth width

def bits {width : Nat} (words : List (BitVec width)) : List Bool :=
  words.flatMap toBits

def group (width : Nat) : Nat → List Bool → List (BitVec width)
  | 0, _ => []
  | count + 1, bits => ofBits width (bits.take width) :: group width count (bits.drop width)

section

variable {width : Nat}

@[simp] theorem length_toBits (word : BitVec width) : (toBits word).length = width := by
  simp [toBits]

theorem toBits_ofBits {bits : List Bool} (length : bits.length = width) : toBits (ofBits width bits) = bits := by
  subst length
  apply List.ext_getElem (by simp)
  intro place _ inside
  simp [toBits, ofBits, inside]

theorem ofBits_toBits (word : BitVec width) : ofBits width (toBits word) = word := by
  have length : (toBits word).length = width := length_toBits word
  have same : toBits (ofBits width (toBits word)) = toBits word := toBits_ofBits length
  apply BitVec.eq_of_getMsbD_eq
  intro place inside
  have bit := congrArg (fun bits => bits[place]?) same
  simpa [toBits, inside] using bit

@[simp] theorem length_bits (words : List (BitVec width)) : (bits words).length = width * words.length := by
  induction words with
  | nil => rfl
  | cons word rest ih =>
    have split : bits (word :: rest) = toBits word ++ bits rest := List.flatMap_cons
    rw [split, List.length_append, length_toBits, ih, List.length_cons, Nat.mul_succ, Nat.add_comm]

@[simp] theorem length_group (count : Nat) (bits : List Bool) : (group width count bits).length = count := by
  induction count generalizing bits with
  | zero => rfl
  | succ count ih => simp [group, ih]

theorem bits_group {count : Nat} {all : List Bool} (length : all.length = width * count) :
    bits (group width count all) = all := by
  induction count generalizing all with
  | zero =>
    have empty : all = [] := List.length_eq_zero_iff.mp (by simpa using length)
    simp [empty, group, bits]
  | succ count ih =>
    rw [Nat.mul_succ] at length
    have first : (all.take width).length = width := by simp; omega
    have rest : (all.drop width).length = width * count := by simp; omega
    have split : bits (group width (count + 1) all) =
        toBits (ofBits width (all.take width)) ++ bits (group width count (all.drop width)) := List.flatMap_cons
    rw [split, toBits_ofBits first, ih rest, List.take_append_drop]

theorem group_bits (words : List (BitVec width)) : group width words.length (bits words) = words := by
  induction words with
  | nil => rfl
  | cons word rest ih =>
    have split : bits (word :: rest) = toBits word ++ bits rest := List.flatMap_cons
    rw [List.length_cons, group, split, List.take_left' (length_toBits word), List.drop_left' (length_toBits word),
      ofBits_toBits, ih]

theorem group_append {first : List Bool} (length : first.length = width) (count : Nat) (rest : List Bool) :
    group width (count + 1) (first ++ rest) = ofBits width first :: group width count rest := by
  rw [group, List.take_left' length, List.drop_left' length]

end

def encode {large : Nat} (small : Nat) (words : List (BitVec large)) : List (BitVec small) :=
  let all := bits words
  let count := (all.length + small - 1) / small
  group small count (all ++ List.replicate (small * count - all.length) false)

def decode {small : Nat} (large : Nat) (words : List (BitVec small)) : Option (List (BitVec large)) :=
  let all := bits words
  let count := all.length / large
  let rest := all.drop (large * count)
  if rest.length < small ∧ rest = List.replicate rest.length false then
    some (group large count (all.take (large * count)))
  else none

section

variable {small large : Nat}

theorem filled {length count rest : Nat} (fits : small * count = length + rest) (short : rest < small) :
    (length + small - 1) / small = count := by
  have swap : small * count = count * small := Nat.mul_comm ..
  apply Nat.div_eq_of_lt_le
  · omega
  · rw [Nat.succ_mul]
    omega

theorem length_encode (words : List (BitVec large)) :
    (encode small words).length = (large * words.length + small - 1) / small := by
  rw [encode]
  simp only [length_group, length_bits]

theorem exists_filled (positive : 0 < small) (length : Nat) :
    ∃ rest, small * ((length + small - 1) / small) = length + rest ∧ rest < small := by
  have division := Nat.div_add_mod (length + small - 1) small
  have remainder := Nat.mod_lt (length + small - 1) positive
  exact ⟨small - 1 - (length + small - 1) % small, by omega, by omega⟩

theorem bits_encode (positive : 0 < small) (words : List (BitVec large)) :
    ∃ rest, rest < small ∧ bits (encode small words) = bits words ++ List.replicate rest false := by
  obtain ⟨rest, fits, short⟩ := exists_filled positive (bits words).length
  refine ⟨rest, short, ?_⟩
  have zeros : small * (((bits words).length + small - 1) / small) - (bits words).length = rest := by omega
  rw [encode]
  simp only [zeros]
  exact bits_group (by rw [List.length_append, List.length_replicate, fits])

theorem decode_encode (positive : 0 < small) (smaller : small ≤ large) (words : List (BitVec large)) :
    decode large (encode small words) = some words := by
  obtain ⟨rest, short, all⟩ := bits_encode positive words
  have length : (bits words).length = large * words.length := length_bits words
  have count : (bits words ++ List.replicate rest false).length / large = words.length := by
    rw [List.length_append, length, List.length_replicate]
    apply Nat.div_eq_of_lt_le
    · rw [Nat.mul_comm]
      omega
    · rw [Nat.succ_mul, Nat.mul_comm]
      omega
  rw [decode]
  simp only [all, count, ← length, List.drop_left, List.take_left, group_bits]
  simp [short]

theorem encode_decode {words : List (BitVec small)} {decoded : List (BitVec large)}
    (read : decode large words = some decoded) : encode small decoded = words := by
  simp only [decode] at read
  split_ifs at read with strict
  obtain ⟨short, zeros⟩ := strict
  obtain rfl := Option.some.inj read
  generalize place : large * ((bits words).length / large) = whole at *
  have inside : whole ≤ (bits words).length := place ▸ Nat.mul_div_le _ _
  have taken : ((bits words).take whole).length = large * ((bits words).length / large) := by
    rw [List.length_take, place]
    omega
  have back : bits (group large ((bits words).length / large) ((bits words).take whole)) =
      (bits words).take whole := bits_group taken
  have rest : ((bits words).drop whole).length = (bits words).length - whole := List.length_drop
  have fits : small * words.length = ((bits words).take whole).length + ((bits words).drop whole).length := by
    rw [taken, rest, place, ← length_bits words]
    omega
  have count := filled fits short
  rw [encode]
  simp only [back]
  rw [count, fits, Nat.add_sub_cancel_left, ← zeros, List.take_append_drop, group_bits]

theorem decode_exact {words : List (BitVec small)} {count : Nat} (positive : 0 < small) (some_bits : 0 < large)
    (fits : small * words.length = large * count) : decode large words = some (group large count (bits words)) := by
  have length : (bits words).length = large * count := by rw [length_bits, fits]
  have whole : (bits words).length / large = count := by rw [length, Nat.mul_div_cancel_left _ some_bits]
  rw [decode]
  simp only [whole, ← length, List.drop_length, List.take_length]
  simp [positive]

end

end Bits
