import SourceVerification.Shared.CodeUnits

set_option autoImplicit false

namespace Utf16

abbrev Text := List UInt16

def isHigh (unit : UInt16) : Bool := 0xD800 ≤ unit.toNat && unit.toNat < 0xDC00

def isLow (unit : UInt16) : Bool := 0xDC00 ≤ unit.toNat && unit.toNat < 0xE000

def encodeChar (char : Char) : Text :=
  (CodeUnits.ofChar char).map UInt16.ofNat

def encode (chars : List Char) : Text :=
  chars.flatMap encodeChar

def pair (high low : UInt16) : Char :=
  Char.ofNat (0x10000 + (high.toNat - 0xD800) * 0x400 + (low.toNat - 0xDC00))

def single (unit : UInt16) : Char :=
  if isHigh unit || isLow unit then '\uFFFD' else Char.ofNat unit.toNat

def decode : Text → List Char
  | high :: low :: rest =>
    if isHigh high && isLow low then pair high low :: decode rest else single high :: decode (low :: rest)
  | [unit] => [single unit]
  | [] => []

def isWellFormed : Text → Bool
  | high :: low :: rest =>
    if isHigh high && isLow low then isWellFormed rest
    else !(isHigh high || isLow high) && isWellFormed (low :: rest)
  | [unit] => !(isHigh unit || isLow unit)
  | [] => true

theorem toNat_encodeChar {char : Char} {unit : Nat} (member : unit ∈ CodeUnits.ofChar char) :
    (UInt16.ofNat unit).toNat = unit := by
  have valid := CodeUnits.toNat_valid char
  have small : unit < 65536 := by
    unfold CodeUnits.ofChar at member
    split_ifs at member <;> simp at member <;> omega
  rw [UInt16.toNat_ofNat']
  exact Nat.mod_eq_of_lt small

theorem encodeChar_cases (char : Char) :
    (∃ unit, encodeChar char = [unit] ∧ (isHigh unit || isLow unit) = false ∧ unit.toNat = char.toNat) ∨
      ∃ high low, encodeChar char = [high, low] ∧ isHigh high = true ∧ isLow low = true ∧ pair high low = char ∧
        0x10000 ≤ char.toNat := by
  have valid := CodeUnits.toNat_valid char
  have units := @toNat_encodeChar char
  unfold encodeChar
  unfold CodeUnits.ofChar at units ⊢
  split_ifs at units ⊢ with small
  next =>
    have same := units (List.mem_singleton.mpr rfl)
    refine .inl ⟨_, rfl, ?_, same⟩
    simp only [isHigh, isLow, same, Bool.or_eq_false_iff, Bool.and_eq_false_iff, decide_eq_false_iff_not]
    omega
  next =>
    have first := units List.mem_cons_self
    have second := units (List.mem_cons_of_mem _ List.mem_cons_self)
    refine .inr ⟨_, _, rfl, ?_, ?_, ?_, by omega⟩
    · simp only [isHigh, first, Bool.and_eq_true, decide_eq_true_eq]
      omega
    · simp only [isLow, second, Bool.and_eq_true, decide_eq_true_eq]
      omega
    · rw [pair, first, second]
      have whole : 0x10000 + (0xD800 + (char.toNat - 0x10000) / 0x400 - 0xD800) * 0x400 +
          (0xDC00 + (char.toNat - 0x10000) % 0x400 - 0xDC00) = char.toNat := by omega
      rw [whole, Char.ofNat_toNat]

theorem encode_cons (char : Char) (chars : List Char) : encode (char :: chars) = encodeChar char ++ encode chars :=
  List.flatMap_cons

theorem encode_append (chars others : List Char) : encode (chars ++ others) = encode chars ++ encode others :=
  List.flatMap_append

theorem encodeChar_ne_nil (char : Char) : encodeChar char ≠ [] := by
  rcases encodeChar_cases char with ⟨unit, same, -⟩ | ⟨high, low, same, -⟩ <;> simp [same]

theorem decode_single {unit : UInt16} (plain : (isHigh unit || isLow unit) = false) (rest : Text) :
    decode (unit :: rest) = Char.ofNat unit.toNat :: decode rest := by
  obtain ⟨high, low⟩ := Bool.or_eq_false_iff.mp plain
  cases rest <;> simp [decode, single, high, low]

theorem isWellFormed_single {unit : UInt16} (plain : (isHigh unit || isLow unit) = false) (rest : Text) :
    isWellFormed (unit :: rest) = isWellFormed rest := by
  obtain ⟨high, low⟩ := Bool.or_eq_false_iff.mp plain
  cases rest <;> simp [isWellFormed, high, low]

theorem decode_encode (chars : List Char) : decode (encode chars) = chars := by
  induction chars with
  | nil => rfl
  | cons char chars ih =>
    rw [encode_cons]
    rcases encodeChar_cases char with ⟨unit, same, plain, value⟩ | ⟨high, low, same, isHigh, isLow, value, -⟩
    · rw [same, List.singleton_append, decode_single plain, value, Char.ofNat_toNat, ih]
    · simp [same, decode, isHigh, isLow, value, ih]

theorem encode_injective : Function.Injective encode :=
  Function.LeftInverse.injective decode_encode

theorem isWellFormed_encode (chars : List Char) : isWellFormed (encode chars) = true := by
  induction chars with
  | nil => rfl
  | cons char chars ih =>
    rw [encode_cons]
    rcases encodeChar_cases char with ⟨unit, same, plain, -⟩ | ⟨high, low, same, isHigh, isLow, -, -⟩
    · rw [same, List.singleton_append, isWellFormed_single plain, ih]
    · simp [same, isWellFormed, isHigh, isLow, ih]

theorem toNat_ofNat {code : Nat} (valid : code.isValidChar) : (Char.ofNat code).toNat = code := by
  rw [Char.ofNat, dif_pos valid]
  rfl

theorem encodeChar_pair {high low : UInt16} (isHigh : isHigh high = true) (isLow : isLow low = true) :
    encodeChar (pair high low) = [high, low] := by
  simp only [Utf16.isHigh, Utf16.isLow, Bool.and_eq_true, decide_eq_true_eq] at isHigh isLow
  have value : (pair high low).toNat = 0x10000 + (high.toNat - 0xD800) * 0x400 + (low.toNat - 0xDC00) := by
    rw [pair, toNat_ofNat]
    right
    omega
  have first : UInt16.ofNat (0xD800 + ((pair high low).toNat - 0x10000) / 0x400) = high := by
    rw [← UInt16.toNat_inj, UInt16.toNat_ofNat', value]
    omega
  have second : UInt16.ofNat (0xDC00 + ((pair high low).toNat - 0x10000) % 0x400) = low := by
    rw [← UInt16.toNat_inj, UInt16.toNat_ofNat', value]
    omega
  rw [encodeChar, CodeUnits.ofChar, if_neg (by omega), List.map_cons, List.map_cons, first, second]
  rfl

theorem encodeChar_plain {unit : UInt16} (plain : (isHigh unit || isLow unit) = false) :
    encodeChar (Char.ofNat unit.toNat) = [unit] := by
  have small := unit.toNat_lt
  simp only [isHigh, isLow, Bool.or_eq_false_iff, Bool.and_eq_false_iff, decide_eq_false_iff_not] at plain
  have value : (Char.ofNat unit.toNat).toNat = unit.toNat := by
    refine toNat_ofNat ?_
    simp only [Nat.isValidChar]
    omega
  rw [encodeChar, CodeUnits.ofChar, value, if_pos (by omega)]
  simp

theorem encode_decode {text : Text} (wellFormed : isWellFormed text = true) : encode (decode text) = text := by
  induction text using isWellFormed.induct with
  | case1 high low rest paired ih =>
    simp only [isWellFormed, paired, if_true] at wellFormed
    obtain ⟨isHigh, isLow⟩ := Bool.and_eq_true_iff.mp paired
    rw [decode, if_pos paired, encode_cons, ih wellFormed, encodeChar_pair isHigh isLow]
    rfl
  | case2 high low rest unpaired ih =>
    rw [isWellFormed, if_neg unpaired, Bool.and_eq_true, Bool.not_eq_true'] at wellFormed
    obtain ⟨plain, rest⟩ := wellFormed
    rw [decode_single plain, encode_cons, ih rest, encodeChar_plain plain]
    rfl
  | case3 unit =>
    rw [isWellFormed, Bool.not_eq_true'] at wellFormed
    rw [decode_single wellFormed, encode_cons, encodeChar_plain wellFormed]
    rfl
  | case4 => rfl

section

variable {mark : Char} (small : mark.toNat < 0x80)

include small

theorem encodeChar_small : encodeChar mark = [UInt16.ofNat mark.toNat] := by
  rw [encodeChar, CodeUnits.ofChar, if_pos (by omega)]
  rfl

theorem mem_encodeChar_small {char : Char} (member : UInt16.ofNat mark.toNat ∈ encodeChar char) : char = mark := by
  have value : (UInt16.ofNat mark.toNat).toNat = mark.toNat := by
    rw [UInt16.toNat_ofNat']
    omega
  rcases encodeChar_cases char with ⟨unit, same, -, isUnit⟩ | ⟨high, low, same, isHigh, isLow, -, -⟩
  · rw [same, List.mem_singleton] at member
    rw [← member, value] at isUnit
    exact Char.toNat_inj.mp isUnit.symm
  · simp only [Utf16.isHigh, Utf16.isLow, Bool.and_eq_true, decide_eq_true_eq] at isHigh isLow
    simp only [same, List.mem_cons, List.not_mem_nil, or_false] at member
    rcases member with rfl | rfl <;> omega

theorem mem_encode_small {chars : List Char} : UInt16.ofNat mark.toNat ∈ encode chars ↔ mark ∈ chars := by
  rw [encode, List.mem_flatMap]
  constructor
  · rintro ⟨char, member, inside⟩
    exact mem_encodeChar_small small inside ▸ member
  · intro member
    exact ⟨mark, member, by rw [encodeChar_small small]; exact List.mem_singleton.mpr rfl⟩

omit small in
theorem splitOn_append {units rest : Text} {unit : UInt16} (free : unit ∉ units) :
    (units ++ rest).splitOn unit = (rest.splitOn unit).modifyHead (units ++ ·) := by
  induction units with
  | nil =>
    obtain ⟨first, others, split⟩ := List.exists_cons_of_ne_nil (List.splitOn_ne_nil unit rest)
    simp [split]
  | cons other units ih =>
    rw [List.mem_cons, not_or] at free
    rw [List.cons_append, List.splitOn_cons_eq_if_modifyHead, if_neg (by simpa using Ne.symm free.1), ih free.2]
    obtain ⟨first, others, split⟩ := List.exists_cons_of_ne_nil (List.splitOn_ne_nil unit rest)
    simp [split]

theorem splitOn_encode (chars : List Char) :
    (encode chars).splitOn (UInt16.ofNat mark.toNat) = (chars.splitOn mark).map encode := by
  induction chars with
  | nil => simp [encode]
  | cons char chars ih =>
    rw [encode_cons]
    by_cases same : char = mark
    next =>
      subst same
      rw [encodeChar_small small, List.singleton_append, List.splitOn_cons_eq_if_modifyHead,
        List.splitOn_cons_eq_if_modifyHead, ih]
      simp [encode]
    next =>
      have outside : UInt16.ofNat mark.toNat ∉ encodeChar char := fun member => same (mem_encodeChar_small small member)
      obtain ⟨first, others, split⟩ := List.exists_cons_of_ne_nil (List.splitOn_ne_nil mark chars)
      rw [splitOn_append outside, ih, List.splitOn_cons_eq_if_modifyHead, if_neg (by simpa using same), split]
      simp [encode_cons]

end

end Utf16
