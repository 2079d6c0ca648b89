import Mathlib.Data.List.GetD
import SourceVerification.Shared.Alphabets
import SourceVerification.Shared.Strings

set_option autoImplicit false

namespace Bech32m

open Bits

abbrev Word := BitVec 5

def charset : Alphabet 5 where
  letters := "qpzry9x8gf2tvdw0s3jn54khce6mua7l".toList
  length := by decide
  distinct := by decide

def generator (top : Word) : BitVec 30 :=
  (if top.getLsbD 0 then 0x3b6a57b2 else 0) ^^^ (if top.getLsbD 1 then 0x26508e6d else 0) ^^^
    (if top.getLsbD 2 then 0x1ea119fa else 0) ^^^ (if top.getLsbD 3 then 0x3d4233dd else 0) ^^^
    (if top.getLsbD 4 then 0x2a1462b3 else 0)

def top (remainder : BitVec 30) : Word :=
  remainder.extractLsb' 25 5

def push (remainder : BitVec 30) (value : Word) : BitVec 30 :=
  remainder <<< 5 ^^^ value.setWidth 30 ^^^ generator (top remainder)

def polymod (values : List Word) : BitVec 30 :=
  values.foldl push 1

def constant : BitVec 30 := 0x2bc830a3

def hrpExpand (hrp : List Char) : List Word :=
  hrp.map (fun char => BitVec.ofNat 5 (char.toNat / 32)) ++ 0 :: hrp.map fun char => BitVec.ofNat 5 char.toNat

def checksum (hrp : List Char) (words : List Word) : List Word :=
  group 5 6 (toBits (polymod (hrpExpand hrp ++ words ++ List.replicate 6 0) ^^^ constant))

def printable (char : Char) : Bool :=
  33 ≤ char.toNat && char.toNat ≤ 126

def encode (limit : Option Nat) (hrp : List Char) (words : List Word) : Option (List Char) :=
  if hrp = [] ∨ ¬ hrp.all printable ∨ limit.any (· < hrp.length + 7 + words.length) then none
  else
    let lowered := hrp.map Char.toLower
    some (lowered ++ '1' :: charset.spell (words ++ checksum lowered words))

def decode (limit : Option Nat) (text : List Char) : Option (List Char × List Word) :=
  let lowered := text.map Char.toLower
  if limit.any (· < text.length) ∨ ¬ text.all printable ∨ text ≠ lowered ∧ text ≠ text.map Char.toUpper then none
  else
    let data := lowered.rtakeWhile (· ≠ '1')
    -- Up to the last separator, with it.
    let start := lowered.rdropWhile (· ≠ '1')
    if start.length < 2 ∨ data.length < 6 then none
    else
      match charset.read data with
      | none => none
      | some values =>
        if polymod (hrpExpand start.dropLast ++ values) = constant then
          some (start.dropLast, values.take (values.length - 6))
        else none

def encodeFromBytes (limit : Option Nat) (hrp : List Char) (bytes : List (BitVec 8)) : Option (List Char) :=
  encode limit hrp (Bits.encode 5 bytes)

def decodeToBytes (limit : Option Nat) (text : List Char) : Option (List Char × List (BitVec 8)) := do
  let (hrp, words) ← decode limit text
  let bytes ← Bits.decode 8 words
  some (hrp, bytes)

def packed (values : List Word) : BitVec 30 :=
  values.foldl (fun sum value => sum <<< 5 ^^^ value.setWidth 30) 0

theorem packed_append (values : List Word) (value : Word) :
    packed (values ++ [value]) = packed values <<< 5 ^^^ value.setWidth 30 := by
  rw [packed, List.foldl_append]
  rfl

theorem getLsbD_packed {values : List Word} (short : values.length ≤ 6) (place : Nat) :
    (packed values).getLsbD place =
      (decide (place < 5 * values.length) && (bits values).getD (5 * values.length - 1 - place) false) := by
  induction values using List.reverseRecOn generalizing place with
  | nil => simp [packed]
  | append_singleton values value ih =>
    have split : bits (values ++ [value]) = bits values ++ toBits value := by simp [bits]
    have length : (bits values).length = 5 * values.length := length_bits values
    rw [List.length_append, List.length_singleton] at short
    rw [packed_append, split, BitVec.getLsbD_xor, BitVec.getLsbD_shiftLeft, BitVec.getLsbD_setWidth,
      ih (by omega), List.length_append, List.length_singleton]
    by_cases last : place < 5
    next =>
      have inside : place < 30 := by omega
      have within : place < 5 * (values.length + 1) := by omega
      have index : 5 * (values.length + 1) - 1 - place = (bits values).length + (4 - place) := by omega
      have bit : (toBits value).getD (4 - place) false = value.getLsbD place := by
        have back : 4 - (4 - place) = place := by omega
        simp [toBits, List.getD_eq_getElem?_getD, BitVec.getMsbD, back, show 4 - place < 5 by omega]
      rw [index, List.getD_append_right _ _ _ _ (Nat.le_add_right ..), Nat.add_sub_cancel_left, bit]
      simp [last, inside, within]
    next =>
      have beyond : value.getLsbD place = false := BitVec.getLsbD_of_ge _ _ (by omega)
      have same : place - 5 < 5 * values.length ↔ place < 5 * (values.length + 1) := by omega
      rw [beyond]
      by_cases within : place < 5 * (values.length + 1)
      next =>
        have index : 5 * (values.length + 1) - 1 - place = 5 * values.length - 1 - (place - 5) := by omega
        rw [index, List.getD_append _ _ _ _ (by omega)]
        simp [last, within, same, show place < 30 by omega]
      next => simp [within, same]

theorem top_packed {values : List Word} (short : values.length ≤ 5) : top (packed values) = 0 := by
  apply BitVec.eq_of_getLsbD_eq
  intro place inside
  have beyond : ¬ 25 + place < 5 * values.length := by omega
  rw [top, BitVec.getLsbD_extractLsb', getLsbD_packed (by omega)]
  simp [beyond]

theorem top_xor (a b : BitVec 30) : top (a ^^^ b) = top a ^^^ top b := by
  apply BitVec.eq_of_getLsbD_eq
  intro place inside
  simp [top, inside]

theorem foldl_push (remainder : BitVec 30) {values : List Word} (short : values.length ≤ 6) :
    values.foldl push remainder = (List.replicate values.length 0).foldl push remainder ^^^ packed values := by
  induction values using List.reverseRecOn with
  | nil => simp [packed]
  | append_singleton values value ih =>
    rw [List.length_append, List.length_singleton] at short
    have same : top (List.foldl push remainder values) =
        top ((List.replicate values.length 0).foldl push remainder) := by
      rw [ih (by omega), top_xor, top_packed (by omega)]
      exact BitVec.xor_zero
    rw [List.length_append, List.length_singleton, List.replicate_succ', List.foldl_append, List.foldl_append,
      List.foldl_cons, List.foldl_nil, List.foldl_cons, List.foldl_nil, push, push, same, packed_append,
      ih (by omega), BitVec.shiftLeft_xor_distrib]
    have zero : (0 : Word).setWidth 30 = 0#30 := rfl
    rw [zero, BitVec.xor_zero]
    ac_rfl

theorem packed_eq_ofBits {values : List Word} (length : values.length = 6) : toBits (packed values) = bits values := by
  have all : (bits values).length = 30 := by rw [length_bits, length]
  apply List.ext_getElem (by simp [all])
  intro place inside within
  rw [all] at within
  have index : 5 * values.length - 1 - (29 - place) = place := by omega
  have below : 29 - place < 5 * values.length := by omega
  have bit : (packed values).getMsbD place = (packed values).getLsbD (29 - place) := by
    simp [BitVec.getMsbD, within]
  simp only [toBits, List.getElem_map, List.getElem_range, bit, getLsbD_packed length.le, below, index]
  simp [List.getD_eq_getElem?_getD, all, within]

theorem polymod_eq_constant_iff (values : List Word) {last : List Word} (length : last.length = 6) :
    polymod (values ++ last) = constant ↔
      last = group 5 6 (toBits (polymod (values ++ List.replicate 6 0) ^^^ constant)) := by
  have remainder : polymod (values ++ last) = polymod (values ++ List.replicate 6 0) ^^^ packed last := by
    rw [polymod, List.foldl_append, foldl_push _ length.le, length, polymod, List.foldl_append]
  have unpacked : group 5 6 (toBits (packed last)) = last := by
    rw [packed_eq_ofBits length, ← length, group_bits]
  rw [remainder]
  generalize polymod (values ++ List.replicate 6 0) = before
  constructor
  · intro same
    have difference : packed last = before ^^^ constant := by
      rw [← same, ← BitVec.xor_assoc, BitVec.xor_self, BitVec.zero_xor]
    rw [← difference, unpacked]
  · intro same
    have bits : toBits (packed last) = toBits (before ^^^ constant) := by
      rw [packed_eq_ofBits length, same, bits_group (length_toBits _)]
    have difference : packed last = before ^^^ constant := by
      rw [← ofBits_toBits (packed last), bits, ofBits_toBits]
    rw [difference, ← BitVec.xor_assoc, BitVec.xor_self, BitVec.zero_xor]

theorem polymod_checksum (hrp : List Char) (words : List Word) :
    polymod (hrpExpand hrp ++ (words ++ checksum hrp words)) = constant := by
  rw [← List.append_assoc]
  exact (polymod_eq_constant_iff _ (length_group 6 _)).mpr rfl

theorem eq_checksum {hrp : List Char} {words last : List Word} (length : last.length = 6)
    (checks : polymod (hrpExpand hrp ++ (words ++ last)) = constant) : last = checksum hrp words := by
  rw [← List.append_assoc] at checks
  exact (polymod_eq_constant_iff _ length).mp checks

structure Lowercase (hrp : List Char) : Prop where
  nonempty : hrp ≠ []
  printable : hrp.all printable = true
  lower : hrp.map Char.toLower = hrp

section

variable {limit : Option Nat} {hrp text : List Char} {words : List Word}

def string (hrp : List Char) (words : List Word) : List Char :=
  hrp ++ '1' :: charset.spell (words ++ checksum hrp words)

theorem length_string (hrp : List Char) (words : List Word) :
    (string hrp words).length = hrp.length + 7 + words.length := by
  simp only [string, List.length_append, List.length_cons, Alphabet.length_spell, checksum, length_group]
  omega

omit hrp text words in
theorem not_any {length : Nat} (fits : ∀ most ∈ limit, length ≤ most) : ¬ limit.any (· < length) = true := by
  rw [Option.any_eq_true]
  rintro ⟨most, given, long⟩
  have fit := fits most given
  simp only [decide_eq_true_eq] at long
  omega

theorem encode_eq (lowercase : Lowercase hrp) (fits : ∀ most ∈ limit, hrp.length + 7 + words.length ≤ most) :
    encode limit hrp words = some (string hrp words) := by
  rw [encode, if_neg]
  · simp only [lowercase.lower]
    rfl
  · rintro (empty | unprintable | long)
    · exact lowercase.nonempty empty
    · exact unprintable lowercase.printable
    · exact not_any fits long

omit limit hrp text words in
theorem charset_letter (word : Word) : printable (charset.letter word) = true ∧
    (charset.letter word).toLower = charset.letter word ∧ charset.letter word ≠ '1' := by
  have all : ∀ letter ∈ charset.letters, printable letter = true ∧ letter.toLower = letter ∧ letter ≠ '1' :=
    forall_mem_of_all (by decide)
  exact all _ (charset.letter_mem word)

theorem string_printable (lowercase : Lowercase hrp) : (string hrp words).all printable = true := by
  rw [string, List.all_append, lowercase.printable, List.all_cons, Bool.true_and, Bool.and_eq_true,
    Alphabet.spell, List.all_map, List.all_eq_true]
  exact ⟨by decide, fun word _ => (charset_letter word).1⟩

theorem string_lower (lowercase : Lowercase hrp) : (string hrp words).map Char.toLower = string hrp words := by
  have kept : (charset.spell (words ++ checksum hrp words)).map Char.toLower = charset.spell (words ++ checksum hrp words) := by
    rw [Alphabet.spell, List.map_map]
    exact List.map_congr_left fun word _ => (charset_letter word).2.1
  rw [string, List.map_append, lowercase.lower, List.map_cons, kept]
  rfl

theorem string_split (hrp : List Char) (words : List Word) :
    (string hrp words).rtakeWhile (· ≠ '1') = charset.spell (words ++ checksum hrp words) ∧
      (string hrp words).rdropWhile (· ≠ '1') = hrp ++ ['1'] := by
  have letters : ∀ letter ∈ charset.spell (words ++ checksum hrp words), decide (letter ≠ '1') = true := by
    intro letter member
    obtain ⟨word, -, rfl⟩ := List.mem_map.mp member
    exact decide_eq_true (charset_letter word).2.2
  have shape : string hrp words = hrp ++ ['1'] ++ charset.spell (words ++ checksum hrp words) := by
    rw [string, List.append_assoc, List.singleton_append]
  have start : (string hrp words).rdropWhile (· ≠ '1') = hrp ++ ['1'] := by
    rw [shape, Strings.rdropWhile_append_of_pos _ letters]
    simp
  have both : (string hrp words).rdropWhile (· ≠ '1') ++ (string hrp words).rtakeWhile (· ≠ '1') = string hrp words :=
    List.rdropWhile_append_rtakeWhile
  rw [start] at both
  exact ⟨List.append_cancel_left (both.trans shape), start⟩

theorem decode_string (lowercase : Lowercase hrp)
    (fits : ∀ most ∈ limit, hrp.length + 7 + words.length ≤ most) :
    decode limit (string hrp words) = some (hrp, words) := by
  have within : ¬ limit.any (· < (string hrp words).length) = true := by
    rw [length_string]
    exact not_any fits
  have values := charset.read_spell (words ++ checksum hrp words)
  have checks := polymod_checksum hrp words
  have six : (checksum hrp words).length = 6 := length_group 6 _
  obtain ⟨data, start⟩ := string_split hrp words
  have long : ¬ ((hrp ++ ['1']).length < 2 ∨ (charset.spell (words ++ checksum hrp words)).length < 6) := by
    have some := List.length_pos_of_ne_nil lowercase.nonempty
    simp only [List.length_append, List.length_singleton, Alphabet.length_spell, six]
    omega
  have taken : (words ++ checksum hrp words).take ((words ++ checksum hrp words).length - 6) = words := by
    rw [List.length_append, six, Nat.add_sub_cancel, List.take_left]
  rw [decode]
  simp only [string_lower lowercase, data, start, if_neg long, values, List.dropLast_concat, checks, if_true, taken]
  rw [if_neg]
  rintro (long | unprintable | mixed)
  · exact within long
  · exact unprintable (string_printable lowercase)
  · exact mixed.1 rfl

omit limit hrp text words in
theorem toLower_printable {char : Char} (ascii : printable char = true) :
    printable char.toLower = true ∧ char.toLower.toLower = char.toLower := by
  have all : ∀ char : Char, char.toNat < 127 → printable char = true →
      printable char.toLower = true ∧ char.toLower.toLower = char.toLower := forall_ascii_of_all (by decide)
  refine all char ?_ ascii
  simp only [printable, Bool.and_eq_true, decide_eq_true_eq] at ascii
  omega

theorem decode_eq_some (read : decode limit text = some (hrp, words)) :
    Lowercase hrp ∧ text.map Char.toLower = string hrp words ∧
      (∀ most ∈ limit, hrp.length + 7 + words.length ≤ most) ∧
      text.all printable = true ∧ (text = text.map Char.toLower ∨ text = text.map Char.toUpper) := by
  unfold decode at read
  dsimp only at read
  split_ifs at read with refused short
  push Not at refused short
  obtain ⟨within, ascii, cased⟩ := refused
  obtain ⟨separated, checked⟩ := short
  split at read
  next => cases read
  next values values_eq =>
    split_ifs at read with checks
    obtain ⟨rfl, rfl⟩ := Prod.mk.inj (Option.some.inj read)
    obtain ⟨before, start⟩ : ∃ before, (text.map Char.toLower).rdropWhile (· ≠ '1') = before ++ ['1'] := by
      have present : (text.map Char.toLower).rdropWhile (· ≠ '1') ≠ [] := by
        intro empty
        rw [empty] at separated
        exact absurd separated (by decide)
      have last := List.rdropWhile_last_not _ _ present
      rw [decide_eq_true_eq, not_not] at last
      refine ⟨((text.map Char.toLower).rdropWhile (· ≠ '1')).dropLast, ?_⟩
      conv_lhs => rw [← List.dropLast_append_getLast present, last]
    rw [start, List.length_append, List.length_singleton] at separated
    rw [start, List.dropLast_concat] at checks ⊢
    have data := charset.spell_read values_eq
    have whole : text.map Char.toLower = before ++ '1' :: charset.spell values := by
      rw [data, ← List.singleton_append, ← List.append_assoc, ← start]
      exact List.rdropWhile_append_rtakeWhile.symm
    rw [← data, Alphabet.length_spell] at checked
    have six : (values.drop (values.length - 6)).length = 6 := by
      rw [List.length_drop]
      omega
    have split := List.take_append_drop (values.length - 6) values
    rw [← split] at checks
    have last := eq_checksum six checks
    have shape : text.map Char.toLower = string before (values.take (values.length - 6)) := by
      rw [whole, string, ← last, split]
    have kept : ∀ char ∈ text.map Char.toLower, printable char = true ∧ char.toLower = char := by
      intro char member
      obtain ⟨letter, inside, rfl⟩ := List.mem_map.mp member
      exact toLower_printable (List.all_eq_true.mp ascii letter inside)
    have front : ∀ char ∈ before, printable char = true ∧ char.toLower = char := by
      intro char member
      refine kept char ?_
      rw [whole]
      exact List.mem_append_left _ member
    refine ⟨⟨?_, ?_, ?_⟩, shape, ?_, ascii, ?_⟩
    · rintro rfl
      exact absurd separated (by decide)
    · exact List.all_eq_true.mpr fun char member => (front char member).1
    · exact (List.map_congr_left fun char member => (front char member).2).trans (List.map_id _)
    · intro most given
      rw [← length_string, ← shape, List.length_map]
      by_contra long
      exact within ((Option.any_eq_true _ _).mpr ⟨most, given, decide_eq_true (by omega)⟩)
    · by_cases lower : text = text.map Char.toLower
      · exact .inl lower
      · exact .inr (cased lower)

variable {bytes : List (BitVec 8)}

theorem decodeToBytes_eq_some (read : decodeToBytes limit text = some (hrp, bytes)) :
    decode limit text = some (hrp, Bits.encode 5 bytes) := by
  rw [decodeToBytes] at read
  obtain ⟨⟨part, words⟩, decoded, rest⟩ := Option.bind_eq_some_iff.mp read
  obtain ⟨octets, regrouped, both⟩ := Option.bind_eq_some_iff.mp rest
  obtain ⟨rfl, rfl⟩ := Prod.mk.inj (Option.some.inj both)
  rw [decoded, Bits.encode_decode regrouped]

theorem decodeToBytes_of_decode (read : decode limit text = some (hrp, Bits.encode 5 bytes)) :
    decodeToBytes limit text = some (hrp, bytes) := by
  have regrouped : Bits.decode 8 (Bits.encode 5 bytes) = some bytes :=
    Bits.decode_encode (by decide) (by decide) bytes
  rw [decodeToBytes, read]
  simp [regrouped]

end

end Bech32m
