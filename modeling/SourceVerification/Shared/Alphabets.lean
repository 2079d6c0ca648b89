import Mathlib.Algebra.GroupWithZero.Nat
import SourceVerification.Shared.Bits

set_option autoImplicit false

theorem forall_mem_of_all {letters : List Char} {holds : Char → Prop} [DecidablePred holds]
    (checked : letters.all (fun char => holds char) = true) : ∀ char ∈ letters, holds char :=
  fun char member => of_decide_eq_true (List.all_eq_true.mp checked char member)

theorem forall_ascii_of_all {holds : Char → Prop} (checked : ∀ code : Fin 127, holds (Char.ofNat code)) :
    ∀ char : Char, char.toNat < 127 → holds char := by
  intro char ascii
  have same : Char.ofNat (⟨char.toNat, ascii⟩ : Fin 127) = char := Char.ofNat_toNat char
  exact same ▸ checked ⟨char.toNat, ascii⟩

structure Alphabet (width : Nat) where
  letters : List Char
  length : letters.length = 2 ^ width
  distinct : letters.Nodup

namespace Alphabet

section

variable {width : Nat} (alphabet : Alphabet width)

def letter (word : BitVec width) : Char :=
  alphabet.letters.get ⟨word.toNat, by rw [alphabet.length]; exact word.isLt⟩

def value (char : Char) : Option (BitVec width) :=
  if char ∈ alphabet.letters then some (BitVec.ofNat width (alphabet.letters.idxOf char)) else none

theorem letter_mem (word : BitVec width) : alphabet.letter word ∈ alphabet.letters :=
  List.get_mem ..

theorem value_letter (word : BitVec width) : alphabet.value (alphabet.letter word) = some word := by
  have place : alphabet.letters.idxOf (alphabet.letter word) = word.toNat :=
    List.Nodup.idxOf_getElem alphabet.distinct _ _
  rw [value, if_pos (alphabet.letter_mem word), place, BitVec.ofNat_toNat, BitVec.setWidth_eq]

theorem letter_value {char : Char} {word : BitVec width} (known : alphabet.value char = some word) :
    alphabet.letter word = char := by
  rw [value] at known
  split_ifs at known with member
  obtain rfl := Option.some.inj known
  have inside := List.idxOf_lt_length_of_mem member
  have place : (BitVec.ofNat width (alphabet.letters.idxOf char)).toNat = alphabet.letters.idxOf char := by
    rw [BitVec.toNat_ofNat, Nat.mod_eq_of_lt (alphabet.length ▸ inside)]
  simp only [letter, List.get_eq_getElem, place]
  exact List.getElem_idxOf inside

theorem value_of_mem {char : Char} (member : char ∈ alphabet.letters) : ∃ word, alphabet.value char = some word :=
  ⟨_, if_pos member⟩

def spell (words : List (BitVec width)) : List Char :=
  words.map alphabet.letter

def read (letters : List Char) : Option (List (BitVec width)) :=
  letters.mapM alphabet.value

theorem length_spell (words : List (BitVec width)) : (alphabet.spell words).length = words.length :=
  List.length_map ..

theorem read_spell (words : List (BitVec width)) : alphabet.read (alphabet.spell words) = some words := by
  induction words with
  | nil => rfl
  | cons word rest ih =>
    rw [spell, List.map_cons, read, List.mapM_cons, alphabet.value_letter]
    exact congrArg (fun others => others.bind fun rest => some (word :: rest)) ih

theorem spell_read {letters : List Char} {words : List (BitVec width)}
    (understood : alphabet.read letters = some words) : alphabet.spell words = letters := by
  induction letters generalizing words with
  | nil =>
    obtain rfl : words = [] := by simpa [read] using understood.symm
    rfl
  | cons letter rest ih =>
    rw [read, List.mapM_cons] at understood
    obtain ⟨word, first, others⟩ := Option.bind_eq_some_iff.mp understood
    obtain ⟨later, following, both⟩ := Option.bind_eq_some_iff.mp others
    obtain rfl := Option.some.inj both
    rw [spell, List.map_cons, alphabet.letter_value first]
    exact congrArg (letter :: ·) (ih following)

end

def hex : Alphabet 4 where
  letters := "0123456789abcdef".toList
  length := by decide
  distinct := by decide

def encodeHex (bytes : List (BitVec 8)) : List Char :=
  hex.spell (Bits.encode 4 bytes)

def decodeHex (text : List Char) : Option (List (BitVec 8)) :=
  (hex.read (text.map Char.toLower)).bind (Bits.decode 8)

theorem length_encodeHex (bytes : List (BitVec 8)) : (encodeHex bytes).length = 2 * bytes.length := by
  rw [encodeHex, length_spell, Bits.length_encode]
  omega

theorem toLower_encodeHex (bytes : List (BitVec 8)) : (encodeHex bytes).map Char.toLower = encodeHex bytes := by
  have all : ∀ letter ∈ hex.letters, letter.toLower = letter := forall_mem_of_all (by decide)
  rw [encodeHex, spell, List.map_map]
  exact List.map_congr_left fun word _ => all _ (hex.letter_mem word)

theorem decodeHex_encodeHex (bytes : List (BitVec 8)) : decodeHex (encodeHex bytes) = some bytes := by
  rw [decodeHex, toLower_encodeHex, encodeHex, read_spell]
  exact Bits.decode_encode (by decide) (by decide) bytes

theorem encodeHex_decodeHex {text : List Char} {bytes : List (BitVec 8)} (decoded : decodeHex text = some bytes) :
    encodeHex bytes = text.map Char.toLower := by
  obtain ⟨words, understood, regrouped⟩ := Option.bind_eq_some_iff.mp decoded
  rw [encodeHex, Bits.encode_decode regrouped, hex.spell_read understood]

theorem decodeHex_isSome {text : List Char} (digits : ∀ char ∈ text, char.toLower ∈ hex.letters) {count : Nat}
    (even : text.length = 2 * count) : ∃ bytes, decodeHex text = some bytes ∧ bytes.length = count := by
  obtain ⟨words, understood⟩ : ∃ words, hex.read (text.map Char.toLower) = some words := by
    clear even
    induction text with
    | nil => exact ⟨[], rfl⟩
    | cons char rest ih =>
      obtain ⟨later, following⟩ := ih fun other member => digits other (List.mem_cons_of_mem _ member)
      obtain ⟨word, first⟩ := hex.value_of_mem (digits char (List.mem_cons_self ..))
      refine ⟨word :: later, ?_⟩
      rw [read] at following
      rw [read, List.map_cons, List.mapM_cons, first, following]
      rfl
  have length : words.length = 2 * count := by
    rw [← length_spell hex, hex.spell_read understood, List.length_map, even]
  refine ⟨_, ?_, Bits.length_group count (Bits.bits words)⟩
  rw [decodeHex, understood]
  exact Bits.decode_exact (by decide) (by decide) (by omega)

end Alphabet
