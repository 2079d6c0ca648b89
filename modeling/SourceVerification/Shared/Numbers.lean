import Mathlib.Data.Int.Log
import Mathlib.Data.Rat.Floor
import Mathlib.Tactic.Positivity
import SourceVerification.Shared.Strings

set_option autoImplicit false

namespace Numbers

open Strings

-- A double, where zero has no sign.
inductive Number
  | nan
  | infinity (negative : Bool)
  | finite (value : ℚ)
deriving DecidableEq

def Number.neg : Number → Number
  | .nan => .nan
  | .infinity negative => .infinity (!negative)
  | .finite value => .finite (-value)

def roundEven (value : ℚ) : ℤ :=
  let below := ⌊value⌋
  if value - below < 1 / 2 then below
  else if 1 / 2 < value - below then below + 1
  else if below % 2 = 0 then below
  else below + 1

/-- The double nearest to a rational number. -/
def ofRat (value : ℚ) : Number :=
  -- Of the last of its 53 digits, or of the smallest double's.
  let exponent := max (Int.log 2 |value| - 52) (-1074)
  let rounded : ℚ := roundEven (value / (2 : ℚ) ^ exponent) * (2 : ℚ) ^ exponent
  if 2 ^ 1024 ≤ |rounded| then .infinity (decide (value < 0)) else .finite rounded

def digitValue (char : Char) : Option Nat :=
  if char.isDigit then some (char.toNat - '0'.toNat)
  else if 'a' ≤ char.toLower ∧ char.toLower ≤ 'z' then some (char.toLower.toNat - 'a'.toNat + 10)
  else none

def readDigits (base : Nat) (digits : List Char) : Option Nat :=
  if digits = [] then none
  else digits.foldlM (fun value char => do
    let digit ← digitValue char
    if digit < base then some (base * value + digit) else none) 0

def readExponent : List Char → Option ℤ
  | [] => some 0
  | _ :: '+' :: digits => (readDigits 10 digits).map (·)
  | _ :: '-' :: digits => (readDigits 10 digits).map (-·)
  | _ :: digits => (readDigits 10 digits).map (·)

def readDecimal (text : List Char) : Option ℚ := do
  let mantissa := text.takeWhile fun char => char ≠ 'e' ∧ char ≠ 'E'
  let exponent ← readExponent (text.dropWhile fun char => char ≠ 'e' ∧ char ≠ 'E')
  let whole := mantissa.takeWhile (· ≠ '.')
  let fraction := (mantissa.dropWhile (· ≠ '.')).drop 1
  let digits ← readDigits 10 (whole ++ fraction)
  some (digits * 10 ^ (exponent - fraction.length))

def readUnsigned (text : List Char) : Number :=
  if text = "Infinity".toList then .infinity false
  else
    match readDecimal text with
    | some value => ofRat value
    | none => .nan

def radixPrefix : List Char → Option (Nat × List Char)
  | '0' :: letter :: digits =>
    if letter.toLower = 'x' then some (16, digits)
    else if letter.toLower = 'o' then some (8, digits)
    else if letter.toLower = 'b' then some (2, digits)
    else none
  | _ => none

def ofText (text : List Char) : Number :=
  let literal := trim text
  if literal = [] then .finite 0
  else
    match radixPrefix literal with
    | some (base, digits) =>
      match readDigits base digits with
      | some value => ofRat value
      | none => .nan
    | none =>
      match literal with
      | '+' :: rest => readUnsigned rest
      | '-' :: rest => (readUnsigned rest).neg
      | _ => readUnsigned literal

theorem roundEven_intCast (value : ℤ) : roundEven value = value := by
  simp [roundEven]

theorem ofRat_natCast {value : Nat} (small : value < 2 ^ 53) : ofRat value = .finite value := by
  have log : Int.log 2 (value : ℚ) < 53 := by
    by_cases zero : value = 0
    next => simp [zero]
    next =>
      have positive : (0 : ℚ) < value := by positivity
      rw [← Int.lt_zpow_iff_log_lt (by decide) positive]
      exact_mod_cast small
  obtain ⟨places, exponent⟩ : ∃ places : Nat, max (Int.log 2 (value : ℚ) - 52) (-1074) = -places := by
    refine ⟨(-max (Int.log 2 (value : ℚ) - 52) (-1074)).toNat, ?_⟩
    omega
  have power : (2 : ℚ) ^ (-(places : ℤ)) = (2 ^ places)⁻¹ := by simp
  have scaled : (value : ℚ) / (2 ^ places)⁻¹ = ((value * 2 ^ places : ℕ) : ℤ) := by
    push_cast
    rw [div_inv_eq_mul]
  have bounded : ¬ (2 : ℚ) ^ 1024 ≤ |(value : ℚ)| := by
    rw [Nat.abs_cast, not_le]
    exact_mod_cast small.trans_le (Nat.pow_le_pow_right (by decide) (by decide))
  have back : (((value * 2 ^ places : ℕ) : ℤ) : ℚ) * (2 ^ places)⁻¹ = value := by
    push_cast
    exact mul_inv_cancel_right₀ (by positivity) _
  rw [ofRat]
  simp only [Nat.abs_cast, exponent, power, scaled, roundEven_intCast, back]
  rw [Nat.abs_cast] at bounded
  rw [if_neg bounded]

theorem digit_range {char : Char} (digit : char.isDigit = true) : 48 ≤ char.toNat ∧ char.toNat ≤ 57 := by
  simpa [Char.isDigit, UInt32.le_iff_toNat_le] using digit

theorem digitValue_of_isDigit {char : Char} (digit : char.isDigit = true) :
    digitValue char = some (char.toNat - '0'.toNat) ∧ char.toNat - '0'.toNat < 10 := by
  have range := digit_range digit
  have zero : '0'.toNat = 48 := rfl
  exact ⟨if_pos digit, by omega⟩

theorem readDigits_decimal {digits : List Char} (nonempty : digits ≠ [])
    (decimal : ∀ char ∈ digits, char.isDigit = true) :
    readDigits 10 digits = some (Nat.ofDigitChars 10 digits 0) := by
  rw [readDigits, if_neg nonempty]
  generalize 0 = start
  induction digits generalizing start with
  | nil => exact absurd rfl nonempty
  | cons char rest ih =>
    obtain ⟨read, below⟩ := digitValue_of_isDigit (decimal char (List.mem_cons_self ..))
    rw [List.foldlM_cons, Nat.ofDigitChars_cons]
    simp only [read, Option.bind_eq_bind, Option.bind_some, below, if_true]
    by_cases last : rest = []
    next => simp [last]
    next => exact ih last (fun other member => decimal other (List.mem_cons_of_mem _ member)) _

section

variable {digits : List Char} (nonempty : digits ≠ []) (decimal : ∀ char ∈ digits, char.isDigit = true)

include decimal

theorem digits_ne {char : Char} (other : char.isDigit = false) : ∀ digit ∈ digits, digit ≠ char := by
  rintro digit member rfl
  simp [decimal digit member] at other

theorem radixPrefix_decimal : radixPrefix digits = none := by
  have notLetter {letter : Char} (digit : letter.isDigit = true) :
      letter.toLower ≠ 'x' ∧ letter.toLower ≠ 'o' ∧ letter.toLower ≠ 'b' := by
    have same : letter.toLower = letter := by
      simp only [Char.isDigit, Bool.and_eq_true, decide_eq_true_eq] at digit
      have below : ¬ 'A'.val ≤ letter.val :=
        fun upper => absurd (UInt32.le_trans upper digit.2) (by decide)
      exact dif_neg fun upper => below upper.1
    rw [same]
    refine ⟨?_, ?_, ?_⟩ <;> rintro rfl <;> exact absurd digit (by decide)
  unfold radixPrefix
  split
  next letter rest =>
    obtain ⟨x, o, b⟩ := notLetter (decimal letter (by simp))
    simp [x, o, b]
  next => rfl

include nonempty

theorem readDecimal_decimal : readDecimal digits = some (Nat.ofDigitChars 10 digits 0 : ℚ) := by
  have plain : ∀ digit ∈ digits, decide (digit ≠ 'e' ∧ digit ≠ 'E') = true := fun digit member =>
    decide_eq_true ⟨digits_ne decimal (by decide) digit member, digits_ne decimal (by decide) digit member⟩
  have whole : ∀ digit ∈ digits, decide (digit ≠ '.') = true :=
    fun digit member => decide_eq_true (digits_ne decimal (by decide) digit member)
  have noExponent : digits.dropWhile (fun char => char ≠ 'e' ∧ char ≠ 'E') = [] :=
    List.dropWhile_eq_nil_iff.mpr plain
  have mantissa : digits.takeWhile (fun char => char ≠ 'e' ∧ char ≠ 'E') = digits :=
    List.takeWhile_eq_self_iff.mpr plain
  have noFraction : digits.dropWhile (· ≠ '.') = [] := List.dropWhile_eq_nil_iff.mpr whole
  have integer : digits.takeWhile (· ≠ '.') = digits := List.takeWhile_eq_self_iff.mpr whole
  rw [readDecimal, noExponent, mantissa, noFraction, integer]
  simp [readExponent, readDigits_decimal nonempty decimal]

theorem ofText_decimal : ofText digits = ofRat (Nat.ofDigitChars 10 digits 0 : ℚ) := by
  have solid : ∀ char ∈ digits, isWhiteSpace char = false := by
    intro char member
    have range := digit_range (decimal char member)
    simp [isWhiteSpace]
    omega
  have finite : digits ≠ "Infinity".toList := by
    rintro rfl
    exact absurd (decimal 'I' (by decide)) (by decide)
  have unsigned : readUnsigned digits = ofRat (Nat.ofDigitChars 10 digits 0 : ℚ) := by
    rw [readUnsigned, if_neg finite, readDecimal_decimal nonempty decimal]
  rw [ofText, trim_eq_self solid]
  simp only [if_neg nonempty, radixPrefix_decimal decimal]
  split
  next rest => exact absurd rfl (digits_ne decimal (by decide) '+' (List.mem_cons_self ..))
  next rest => exact absurd rfl (digits_ne decimal (by decide) '-' (List.mem_cons_self ..))
  next => exact unsigned

end

theorem ofText_toDigits {value : Nat} (small : value < 2 ^ 53) :
    ofText (Nat.toDigits 10 value) = .finite value := by
  have decimal : ∀ char ∈ Nat.toDigits 10 value, char.isDigit = true :=
    fun char member => Nat.isDigit_of_mem_toDigits (by decide) (by decide) member
  rw [ofText_decimal Nat.toDigits_ne_nil decimal, Nat.ofDigitChars_ten_toDigits, ofRat_natCast small]

end Numbers
