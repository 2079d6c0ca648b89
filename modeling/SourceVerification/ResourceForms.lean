import SourceVerification.ResourceId

set_option autoImplicit false

namespace SourceVerification.ResourceIds

open Alphabet Strings

-- `[a-z]`
def letterClass (char : Char) : Bool :=
  'a' ≤ char && char ≤ 'z'

-- `[02-9ac-hj-np-z]`
def dataClass (char : Char) : Bool :=
  char == '0' || ('2' ≤ char && char ≤ '9') || char == 'a' || ('c' ≤ char && char ≤ 'h') ||
    ('j' ≤ char && char ≤ 'n') || ('p' ≤ char && char ≤ 'z')

-- `(_.*)?`
def routingPattern : List Char → Bool
  | [] => true
  | char :: rest => char == '_' && rest.all fun char => !isLineTerminator char

-- `[a-z]+1[02-9ac-hj-np-z]{6,}(_.*)?`, where no part can go on into the next.
def addressPattern (text : List Char) : Bool :=
  match text.dropWhile letterClass with
  | '1' :: rest => text.takeWhile letterClass ≠ [] && 6 ≤ (rest.takeWhile dataClass).length &&
    routingPattern (rest.dropWhile dataClass)
  | _ => false

/-- Whether all of a text matches. -/
def RESOURCE_ID_PATTERN (text : List Char) : Bool :=
  hexPattern 30 text || hexPattern 64 text || addressPattern text

/-- The account that a Resource ID is for, in lowercase. -/
def Names (bech32m : Bech32mCodec) (value accountId : List Char) : Prop :=
  (ACCOUNT_ID_REGEX (trim value) = true ∧ (trim value).map Char.toLower = accountId) ∨
    ∃ networkId, decodeAddress bech32m value = some ⟨networkId, accountId⟩

/-- No hex ID with an uppercase digit. -/
def Canonical (value : List Char) : Prop :=
  ACCOUNT_ID_REGEX (trim value) = true → (trim value).map Char.toLower = trim value

instance (value : List Char) : Decidable (Canonical value) :=
  inferInstanceAs (Decidable (_ → _))

/-- A hex ID as it is, or a lowercase address with nothing before it, and behind it nothing or
routing parameters on one line. -/
def PlainlyTyped (value : List Char) : Prop :=
  if ACCOUNT_ID_REGEX (trim value) ∨ NOTE_ID_REGEX (trim value) then trim value = value
  else (encodedId value).map Char.toLower = encodedId value ∧ ∃ suffix, value = encodedId value ++ suffix ∧
    (suffix = [] ∨ ∃ routing, suffix = '_' :: routing ∧ ∀ char ∈ routing, isLineTerminator char = false)

theorem trim_eq_nil_iff (value : List Char) : trim value = [] ↔ Blank value := by
  constructor
  · intro empty
    obtain ⟨before, after, same, left, right⟩ := exists_around value
    intro char member
    rw [same, empty, List.append_nil] at member
    exact (List.mem_append.mp member).elim (left char) (right char)
  · intro blank
    rw [trim, List.dropWhile_eq_nil_iff.mpr blank]
    rfl

theorem encodedId_trim (value : List Char) : encodedId (trim value) = encodedId value := by
  rw [encodedId, encodedId, trim_trim]

theorem decodeAddress_trim (bech32m : Bech32mCodec) (value : List Char) :
    decodeAddress bech32m (trim value) = decodeAddress bech32m value := by
  rw [decodeAddress, decodeAddress, encodedId_trim]

theorem networkOf_eq_some {value : List Char} {network : NetworkId} (served : networkOf value = some network) :
    network.value = value := by
  simpa using List.find?_some served

theorem second_letter {id : List (BitVec 8)} (nonempty : id ≠ []) : ∃ first second rest,
    Bits.encode 5 (ACCOUNT_ID_ADDRESS_TYPE :: id) = first :: second :: rest ∧
      Bech32m.charset.letter second ∉ hex.letters := by
  obtain ⟨byte, others, rfl⟩ := List.exists_cons_of_ne_nil nonempty
  have four : ∀ a b : Bool, Bech32m.charset.letter (Bits.ofBits 5 [false, false, false, a, b]) ∉ hex.letters := by
    decide
  have type : Bits.toBits ACCOUNT_ID_ADDRESS_TYPE = [true, true, true, false, true, false, false, false] := by decide
  obtain ⟨a, b, more, eight⟩ : ∃ a b more, Bits.toBits byte = a :: b :: more := ⟨_, _, _, rfl⟩
  obtain ⟨count, several⟩ : ∃ count,
      ((Bits.bits (ACCOUNT_ID_ADDRESS_TYPE :: byte :: others)).length + 5 - 1) / 5 = count + 1 + 1 := by
    refine ⟨((Bits.bits (ACCOUNT_ID_ADDRESS_TYPE :: byte :: others)).length + 5 - 1) / 5 - 2, ?_⟩
    simp only [Bits.length_bits, List.length_cons]
    omega
  have all : Bits.bits (ACCOUNT_ID_ADDRESS_TYPE :: byte :: others) =
      [true, true, true, false, true] ++ ([false, false, false, a, b] ++ (more ++ Bits.bits others)) := by
    rw [Bits.bits, List.flatMap_cons, List.flatMap_cons, type, eight]
    simp [Bits.bits]
  have words : ∀ zeros : List Bool, Bits.group 5 (count + 1 + 1)
      ([true, true, true, false, true] ++ ([false, false, false, a, b] ++ (more ++ Bits.bits others)) ++ zeros) =
      Bits.ofBits 5 [true, true, true, false, true] :: Bits.ofBits 5 [false, false, false, a, b] ::
        Bits.group 5 count (more ++ Bits.bits others ++ zeros) := by
    intro zeros
    have five : [true, true, true, false, true].length = 5 := rfl
    have others : [false, false, false, a, b].length = 5 := rfl
    rw [List.append_assoc, Bits.group_append five, List.append_assoc, Bits.group_append others]
  rw [Bits.encode]
  simp only [several]
  generalize List.replicate _ false = zeros
  rw [all, words]
  exact ⟨_, _, _, rfl, four a b⟩

section

variable {bech32m : Bech32mCodec} {limit : Option Nat} (follows : bech32m.Follows limit)

include follows

theorem decodeAddress_not_hex {value : List Char} {address : Address}
    (decoded : decodeAddress bech32m value = some address) (count : Nat) : hexPattern count (trim value) = false := by
  obtain ⟨id, -, decodes⟩ := decodeAddress_decodes follows decoded
  rw [Bool.eq_false_iff]
  intro pattern
  obtain ⟨digits, shape, -, all⟩ := hexPattern_iff.mp pattern
  have plain : ∀ char ∈ hexDigits ++ upperHexDigits, char ≠ '_' := forall_mem_of_all (by decide)
  have start_plain : ∀ char ∈ "0x".toList, char ≠ '_' := forall_mem_of_all (by decide)
  have whole : encodedId value = trim value := by
    rw [encodedId, List.takeWhile_eq_self_iff, shape]
    intro char member
    rcases List.mem_append.mp member with start | digit
    · exact decide_eq_true (start_plain char start)
    · exact decide_eq_true (plain char (all char digit))
  have some_id : id ≠ [] := by
    rintro rfl
    exact absurd decodes.length (by decide)
  obtain ⟨first, second, rest, words, other⟩ := second_letter some_id
  have lower := decodes.lower
  rw [whole, shape, canonicalAddress, words, Bech32m.string] at lower
  have letters := congrArg (List.drop (address.networkId.length + 2)) lower
  have left : (("0x".toList ++ digits).map Char.toLower).drop (address.networkId.length + 2) =
      (digits.map Char.toLower).drop address.networkId.length := rfl
  have right : ∀ letter letters : List Char, letter.length = 1 →
      (address.networkId ++ '1' :: (letter ++ letters)).drop (address.networkId.length + 2) = letters := by
    intro letter letters one
    have start : (address.networkId ++ ['1'] ++ letter).length = address.networkId.length + 2 := by
      simp [one]
    have shape : address.networkId ++ '1' :: (letter ++ letters) = address.networkId ++ ['1'] ++ letter ++ letters := by
      simp
    rw [shape, ← start, List.drop_left]
  have data : Bech32m.charset.spell (first :: second :: rest ++
      Bech32m.checksum address.networkId (first :: second :: rest)) = [Bech32m.charset.letter first] ++
        Bech32m.charset.letter second :: Bech32m.charset.spell (rest ++
          Bech32m.checksum address.networkId (first :: second :: rest)) := rfl
  rw [left, data, right _ _ rfl] at letters
  have inside : Bech32m.charset.letter second ∈ digits.map Char.toLower := by
    have dropped : Bech32m.charset.letter second ∈ (digits.map Char.toLower).drop address.networkId.length := by
      rw [letters]
      exact List.mem_cons_self ..
    exact List.mem_of_mem_drop dropped
  obtain ⟨digit, member, same⟩ := List.mem_map.mp inside
  have lowered := toLower_hexDigits digit (all digit member)
  rw [lowered.1, same] at lowered
  exact other lowered.2

theorem parseResourceId_address {value : List Char} {address : Address}
    (decoded : decodeAddress bech32m value = some address) :
    parseResourceId bech32m value = some (.account address.accountId) := by
  have note : NOTE_ID_REGEX (trim value) = false := decodeAddress_not_hex follows decoded 64
  have account : ACCOUNT_ID_REGEX (trim value) = false := decodeAddress_not_hex follows decoded 30
  simp only [parseResourceId, note, account, decodeAddress_trim, decoded]
  rfl

end

theorem hexPattern_length {count : Nat} {text : List Char} (pattern : hexPattern count text = true) :
    text.length = count + 2 := by
  obtain ⟨digits, rfl, length, -⟩ := hexPattern_iff.mp pattern
  rw [List.length_append, length, Nat.add_comm]
  rfl

theorem parseResourceId_hex (bech32m : Bech32mCodec) {value : List Char}
    (pattern : ACCOUNT_ID_REGEX (trim value) = true) :
    parseResourceId bech32m value = some (.account (trim value)) := by
  have note : NOTE_ID_REGEX (trim value) = false := by
    rw [Bool.eq_false_iff]
    intro note
    have thirty := hexPattern_length pattern
    have sixtyFour := hexPattern_length note
    omega
  simp only [parseResourceId, note, pattern]
  rfl

theorem resourceIdError_iff (bech32m : Bech32mCodec) (value : List Char) (network : NetworkId) :
    resourceIdError bech32m value network = none ↔ Blank value ∨
      parseResourceId bech32m value ≠ none ∧
        ∀ address, decodeAddress bech32m value = some address → address.networkId = network.value := by
  rw [← trim_eq_nil_iff, resourceIdError]
  by_cases blank : trim value = []
  next => simp [blank]
  next =>
    rw [if_neg blank]
    cases decoded : decodeAddress bech32m value with
    | none => simp [blank, Option.isSome_iff_ne_none]
    | some address =>
      by_cases same : address.networkId = network.value
      next => simp [blank, same, Option.isSome_iff_ne_none, Option.filter_some]
      next => simp [blank, same, Option.filter_some]

theorem decodeAddress_disjoint (bech32m : Bech32mCodec) {limit : Option Nat} (follows : bech32m.Follows limit)
    {value : List Char} (some_address : decodeAddress bech32m value ≠ none) :
    ACCOUNT_ID_REGEX (trim value) = false ∧ NOTE_ID_REGEX (trim value) = false := by
  obtain ⟨address, decoded⟩ := Option.ne_none_iff_exists'.mp some_address
  exact ⟨decodeAddress_not_hex follows decoded 30, decodeAddress_not_hex follows decoded 64⟩

theorem resourceIdError_hex (bech32m : Bech32mCodec) {limit : Option Nat} (follows : bech32m.Follows limit)
    {value : List Char} (network : NetworkId)
    (pattern : ACCOUNT_ID_REGEX (trim value) = true ∨ NOTE_ID_REGEX (trim value) = true) :
    resourceIdError bech32m value network = none := by
  refine (resourceIdError_iff bech32m value network).mpr (.inr ⟨?_, ?_⟩)
  · rcases pattern with account | note
    · simp [parseResourceId_hex bech32m account]
    · simp [parseResourceId, note]
  · intro address decoded
    have some_address : decodeAddress bech32m value ≠ none := by simp [decoded]
    obtain ⟨account, note⟩ := decodeAddress_disjoint bech32m follows some_address
    rcases pattern with hex | hex
    · rw [account] at hex
      cases hex
    · rw [note] at hex
      cases hex

theorem resourceIdError_agrees (bech32m : Bech32mCodec) (limit : Option Nat) (follows : bech32m.Follows limit) :
    (∀ value network, resourceIdError bech32m value network = none ↔ Blank value ∨
      parseResourceId bech32m value ≠ none ∧
        ∀ address, decodeAddress bech32m value = some address → address.networkId = network.value) ∧
    (∀ value, decodeAddress bech32m value ≠ none →
      ACCOUNT_ID_REGEX (trim value) = false ∧ NOTE_ID_REGEX (trim value) = false) ∧
    (∀ value network, (ACCOUNT_ID_REGEX (trim value) = true ∨ NOTE_ID_REGEX (trim value) = true) →
      resourceIdError bech32m value network = none) ∧
    ∀ value network other, addressNetwork bech32m value network = some other →
      resourceIdError bech32m value other = none := by
  refine ⟨resourceIdError_iff bech32m, fun value => decodeAddress_disjoint bech32m follows,
    fun value network => resourceIdError_hex bech32m follows network, ?_⟩
  · intro value network other offered
    rw [addressNetwork] at offered
    cases decoded : decodeAddress bech32m value with
    | none =>
      rw [decoded] at offered
      cases offered
    | some address =>
      simp only [decoded] at offered
      have served := networkOf_eq_some (Option.filter_eq_some_iff.mp offered).1
      refine (resourceIdError_iff bech32m value other).mpr (.inr ⟨?_, ?_⟩)
      · rw [parseResourceId_address follows decoded]
        simp
      · intro address same
        rw [decoded] at same
        obtain rfl := Option.some.inj same
        exact served.symm

theorem resourceIdError_agrees_hex : resourceIdError (bip350 none) "0xAD41ad8e6776a19173668f043fc081".toList .mm = none :=
  (resourceIdError_agrees (bip350 none) none (bip350_follows none)).2.2.1 _ _ (.inl (by decide))

theorem names_parse {bech32m : Bech32mCodec} {limit : Option Nat} (follows : bech32m.Follows limit)
    {value accountId : List Char} (names : Names bech32m value accountId) : ∃ spelled,
    parseResourceId bech32m value = some (.account spelled) ∧ (Canonical value ↔ spelled = accountId) ∧
      (ACCOUNT_ID_REGEX (trim value) = true → spelled = trim value) := by
  rcases names with ⟨pattern, rfl⟩ | ⟨networkId, decoded⟩
  · refine ⟨trim value, parseResourceId_hex bech32m pattern, ?_, fun _ => rfl⟩
    constructor
    · intro canonical
      exact (canonical pattern).symm
    · intro same _
      exact same.symm
  · have account : ACCOUNT_ID_REGEX (trim value) = false := decodeAddress_not_hex follows decoded 30
    refine ⟨accountId, parseResourceId_address follows decoded, ?_, ?_⟩
    · refine iff_of_true (fun pattern => ?_) rfl
      rw [account] at pattern
      cases pattern
    · intro pattern
      rw [account] at pattern
      cases pattern

theorem parseResourceId_same_iff (bech32m : Bech32mCodec) (limit : Option Nat) (follows : bech32m.Follows limit)
    {value other accountId : List Char} (left : Names bech32m value accountId) (right : Names bech32m other accountId) :
    parseResourceId bech32m value = parseResourceId bech32m other ↔
      Canonical value ∧ Canonical other ∨ trim value = trim other := by
  obtain ⟨spelled, parsed, canonical, hex⟩ := names_parse follows left
  obtain ⟨spelling, parsedToo, canonicalToo, hexToo⟩ := names_parse follows right
  constructor
  · intro same
    have spellings : spelled = spelling := by simpa [parsed, parsedToo] using same
    by_cases lower : Canonical value
    next => exact .inl ⟨lower, canonicalToo.mpr (spellings.symm.trans (canonical.mp lower))⟩
    next =>
      have upper : ¬ Canonical other := fun lowerToo =>
        lower (canonical.mpr (spellings.trans (canonicalToo.mp lowerToo)))
      have patterns := And.intro (Classical.not_imp.mp lower).1 (Classical.not_imp.mp upper).1
      refine .inr ?_
      rw [← hex patterns.1, ← hexToo patterns.2, spellings]
  · rintro (⟨lower, lowerToo⟩ | same)
    · rw [parsed, parsedToo, canonical.mp lower, canonicalToo.mp lowerToo]
    · simp only [parseResourceId, same]

def counterId : List Char := "0xad41ad8e6776a19173668f043fc081".toList

def upperCounterId : List Char := "0xAD41AD8E6776A19173668F043FC081".toList

theorem parseResourceId_same_counter :
    parseResourceId (bip350 none) (" ".toList ++ counterId) = parseResourceId (bip350 none) counterId := by
  refine (parseResourceId_same_iff (bip350 none) none (bip350_follows none) (.inl ⟨?_, rfl⟩) (.inl ⟨?_, ?_⟩)).mpr
    (.inl ⟨?_, ?_⟩) <;> decide

theorem parseResourceId_upper : ¬ ∀ (bech32m : Bech32mCodec) (limit : Option Nat), bech32m.Follows limit →
    ∀ value other accountId, Names bech32m value accountId → Names bech32m other accountId →
      parseResourceId bech32m value = parseResourceId bech32m other := by
  intro same
  have parsed := same (bip350 none) none (bip350_follows none) counterId upperCounterId counterId
    (.inl ⟨by decide, by decide⟩) (.inl ⟨by decide, by decide⟩)
  rw [parseResourceId_hex _ (by decide), parseResourceId_hex _ (by decide)] at parsed
  exact absurd parsed (by decide)

theorem routingPattern_iff {suffix : List Char} : routingPattern suffix = true ↔
    suffix = [] ∨ ∃ routing, suffix = '_' :: routing ∧ ∀ char ∈ routing, isLineTerminator char = false := by
  cases suffix with
  | nil => simp [routingPattern]
  | cons first routing => simp [routingPattern]

structure Shaped (text letters data suffix : List Char) : Prop where
  text : text = letters ++ '1' :: (data ++ suffix)
  nonempty : letters ≠ []
  letter : ∀ char ∈ letters, letterClass char = true
  least : 6 ≤ data.length
  datum : ∀ char ∈ data, dataClass char = true
  routing : routingPattern suffix = true

theorem takeWhile_data {data suffix : List Char} (all : ∀ char ∈ data, dataClass char = true)
    (routing : routingPattern suffix = true) :
    (data ++ suffix).takeWhile dataClass = data ∧ (data ++ suffix).dropWhile dataClass = suffix := by
  rw [List.takeWhile_append_of_pos all, List.dropWhile_append_of_pos all]
  rcases routingPattern_iff.mp routing with rfl | ⟨rest, rfl, -⟩
  · simp
  · have underscore : ¬ dataClass '_' = true := by decide
    rw [List.takeWhile_cons_of_neg underscore, List.dropWhile_cons_of_neg underscore, List.append_nil]
    exact ⟨rfl, rfl⟩

theorem addressPattern_iff {text : List Char} :
    addressPattern text = true ↔ ∃ letters data suffix, Shaped text letters data suffix := by
  have one : ¬ letterClass '1' = true := by decide
  constructor
  · intro pattern
    unfold addressPattern at pattern
    split at pattern
    next rest split =>
      simp only [Bool.and_eq_true, decide_eq_true_eq] at pattern
      obtain ⟨⟨nonempty, least⟩, routing⟩ := pattern
      refine ⟨text.takeWhile letterClass, rest.takeWhile dataClass, rest.dropWhile dataClass, ⟨?_, nonempty,
        fun char member => List.mem_takeWhile_imp member, least, fun char member => List.mem_takeWhile_imp member,
        routing⟩⟩
      rw [List.takeWhile_append_dropWhile, ← split, List.takeWhile_append_dropWhile]
    next => cases pattern
  · rintro ⟨letters, data, suffix, shaped⟩
    obtain ⟨taken, dropped⟩ := takeWhile_data shaped.datum shaped.routing
    have start : text.takeWhile letterClass = letters := by
      rw [shaped.text, List.takeWhile_append_of_pos shaped.letter, List.takeWhile_cons_of_neg one, List.append_nil]
    have rest : text.dropWhile letterClass = '1' :: (data ++ suffix) := by
      rw [shaped.text, List.dropWhile_append_of_pos shaped.letter, List.dropWhile_cons_of_neg one]
    unfold addressPattern
    simp only [rest, start, taken, dropped, shaped.routing]
    simp [shaped.nonempty, shaped.least]

theorem class_char {char : Char} (known : letterClass char = true ∨ char = '1' ∨ dataClass char = true) :
    Bech32m.printable char = true ∧ char.toLower = char ∧ char ≠ '_' := by
  have all : ∀ char : Char, char.toNat < 127 → letterClass char = true ∨ char = '1' ∨ dataClass char = true →
      Bech32m.printable char = true ∧ char.toLower = char ∧ char ≠ '_' := forall_ascii_of_all (by decide)
  have bound : char.toNat < 127 := by
    have code {last : Char} (below : char ≤ last) : char.toNat ≤ last.toNat := UInt32.le_iff_toNat_le.mp below
    rcases known with letter | rfl | datum
    · simp only [letterClass, Bool.and_eq_true, decide_eq_true_eq] at letter
      exact (code letter.2).trans_lt (by decide)
    · decide
    · simp only [dataClass, Bool.or_eq_true, Bool.and_eq_true, decide_eq_true_eq, beq_iff_eq] at datum
      rcases datum with ((((rfl | digit) | rfl) | early) | middle) | late
      · decide
      · exact (code digit.2).trans_lt (by decide)
      · decide
      · exact (code early.2).trans_lt (by decide)
      · exact (code middle.2).trans_lt (by decide)
      · exact (code late.2).trans_lt (by decide)
  exact all char bound known

theorem shaped_char {text letters data suffix : List Char} (shaped : Shaped text letters data suffix) :
    ∀ char ∈ letters ++ '1' :: data, Bech32m.printable char = true ∧ char.toLower = char ∧ char ≠ '_' := by
  intro char member
  rw [List.mem_append, List.mem_cons] at member
  rcases member with letter | one | datum
  · exact class_char (.inl (shaped.letter char letter))
  · exact class_char (.inr (.inl one))
  · exact class_char (.inr (.inr (shaped.datum char datum)))

theorem shaped_text {text letters data suffix : List Char} (shaped : Shaped text letters data suffix) :
    text = letters ++ '1' :: data ++ suffix := by
  rw [shaped.text]
  simp

theorem encodedId_shaped {text letters data suffix : List Char} (shaped : Shaped text letters data suffix) :
    encodedId text = letters ++ '1' :: data := by
  have chars := shaped_char shaped
  have printable : (letters ++ '1' :: data).all Bech32m.printable = true :=
    List.all_eq_true.mpr fun char member => (chars char member).1
  have plain : '_' ∉ letters ++ '1' :: data := fun member => (chars '_' member).2.2 rfl
  have routing : suffix = [] ∨ ∃ rest, suffix = '_' :: rest := by
    rcases routingPattern_iff.mp shaped.routing with rfl | ⟨rest, rfl, -⟩
    · exact .inl rfl
    · exact .inr ⟨rest, rfl⟩
  have around : encodedId ([] ++ (letters ++ '1' :: data ++ suffix) ++ []) = letters ++ '1' :: data :=
    encodedId_around (by decide) (by decide) (by simp) printable plain routing
  rw [shaped_text shaped]
  simpa using around

theorem not_hexPattern_shaped {text letters data suffix : List Char} (shaped : Shaped text letters data suffix)
    (count : Nat) : hexPattern count (trim text) = false := by
  have solid : ∀ char ∈ letters ++ '1' :: data, isWhiteSpace char = false :=
    solid_of_printable (List.all_eq_true.mpr fun char member => (shaped_char shaped char member).1)
  rw [Bool.eq_false_iff]
  intro pattern
  obtain ⟨digits, hex, -⟩ := hexPattern_iff.mp pattern
  obtain ⟨first, others, rfl⟩ := List.exists_cons_of_ne_nil shaped.nonempty
  rw [shaped_text shaped, trim_append (by simp) solid] at hex
  obtain rfl : first = '0' := (List.cons.inj hex).1
  exact absurd (shaped.letter '0' (List.mem_cons_self ..)) (by decide)

theorem trim_hexPattern {count : Nat} {text : List Char} (pattern : hexPattern count text = true) :
    trim text = text := by
  obtain ⟨digits, rfl, -, all⟩ := hexPattern_iff.mp pattern
  have solid : ∀ char ∈ hexDigits ++ upperHexDigits, isWhiteSpace char = false := forall_mem_of_all (by decide)
  have start : ∀ char ∈ "0x".toList, isWhiteSpace char = false := forall_mem_of_all (by decide)
  refine trim_eq_self fun char member => ?_
  exact (List.mem_append.mp member).elim (start char) fun digit => solid char (all char digit)

theorem served_letters (network : NetworkId) :
    network.value ≠ [] ∧ ∀ char ∈ network.value, letterClass char = true := by
  cases network <;> exact ⟨by decide, forall_mem_of_all (by decide)⟩

theorem pattern_iff_plainlyTyped (bech32m : Bech32mCodec) (limit : Option Nat) (follows : bech32m.Follows limit)
    {value : List Char} {network : NetworkId} (parsed : parseResourceId bech32m value ≠ none)
    (valid : resourceIdError bech32m value network = none) :
    RESOURCE_ID_PATTERN value = true ↔ PlainlyTyped value := by
  constructor
  · intro pattern
    rw [RESOURCE_ID_PATTERN, Bool.or_eq_true, Bool.or_eq_true] at pattern
    rcases pattern with (account | note) | address
    · have whole := trim_hexPattern account
      rw [PlainlyTyped, whole, if_pos (.inl account)]
    · have whole := trim_hexPattern note
      rw [PlainlyTyped, whole, if_pos (.inr note)]
    · obtain ⟨letters, data, suffix, shaped⟩ := addressPattern_iff.mp address
      have noHex : ¬ (ACCOUNT_ID_REGEX (trim value) = true ∨ NOTE_ID_REGEX (trim value) = true) := by
        rw [ACCOUNT_ID_REGEX, NOTE_ID_REGEX, not_hexPattern_shaped shaped, not_hexPattern_shaped shaped]
        decide
      rw [PlainlyTyped, if_neg noHex, encodedId_shaped shaped]
      refine ⟨?_, suffix, shaped_text shaped, routingPattern_iff.mp shaped.routing⟩
      exact (List.map_congr_left fun char member => (shaped_char shaped char member).2.1).trans (List.map_id _)
  · intro plainly
    rw [RESOURCE_ID_PATTERN, Bool.or_eq_true, Bool.or_eq_true]
    unfold PlainlyTyped at plainly
    split at plainly
    next hex =>
      rw [plainly] at hex
      exact .inl hex
    next noHex =>
      obtain ⟨lower, suffix, typed, routing⟩ := plainly
      obtain ⟨noAccount, noNote⟩ := not_or.mp noHex
      obtain ⟨address, decoded⟩ : ∃ address, decodeAddress bech32m value = some address := by
        simp only [parseResourceId, noAccount, noNote, if_false, Bool.false_eq_true, decodeAddress_trim] at parsed
        exact Option.ne_none_iff_exists'.mp fun missing => parsed (by rw [missing]; rfl)
      obtain ⟨id, -, decodes⟩ := decodeAddress_decodes follows decoded
      have canonical := decodes.lower
      rw [lower] at canonical
      have here : address.networkId = network.value := by
        rcases (resourceIdError_iff bech32m value network).mp valid with blank | ⟨-, same⟩
        next =>
          have empty : encodedId value = [] := by
            rw [encodedId, (trim_eq_nil_iff value).mpr blank]
            rfl
          have length := congrArg List.length canonical
          rw [empty, length_canonicalAddress _ decodes.length, List.length_nil] at length
          omega
        next => exact same address decoded
      rw [here] at canonical
      obtain ⟨nonempty, letters⟩ := served_letters network
      have data : ∀ char ∈ Bech32m.charset.letters, dataClass char = true := forall_mem_of_all (by decide)
      let words := Bits.encode 5 (ACCOUNT_ID_ADDRESS_TYPE :: id)
      refine .inr (addressPattern_iff.mpr ⟨network.value,
        Bech32m.charset.spell (words ++ Bech32m.checksum network.value words), suffix,
        ⟨?_, nonempty, letters, ?_, ?_, routingPattern_iff.mpr routing⟩⟩)
      · rw [typed, canonical, canonicalAddress, Bech32m.string, List.append_assoc, List.cons_append]
      · rw [length_spell, List.length_append, length_words decodes.length]
        omega
      · intro char member
        obtain ⟨word, -, rfl⟩ := List.mem_map.mp member
        exact data _ (Bech32m.charset.letter_mem word)

theorem pattern_counterId : RESOURCE_ID_PATTERN counterId = true ↔ PlainlyTyped counterId :=
  pattern_iff_plainlyTyped (bip350 none) none (bip350_follows none)
    (by rw [parseResourceId_hex _ (by decide)]; simp) (resourceIdError_hex _ (bip350_follows none) .mtst (by decide))

theorem pattern_space : ¬ ∀ (bech32m : Bech32mCodec) (limit : Option Nat), bech32m.Follows limit →
    ∀ value network, parseResourceId bech32m value ≠ none → resourceIdError bech32m value network = none →
      RESOURCE_ID_PATTERN value = true := by
  intro matched
  have account : ACCOUNT_ID_REGEX (trim (" ".toList ++ counterId)) = true := by decide
  have pattern := matched (bip350 none) none (bip350_follows none) (" ".toList ++ counterId) .mtst
    (by rw [parseResourceId_hex _ account]; simp) (resourceIdError_hex _ (bip350_follows none) .mtst (.inl account))
  exact absurd pattern (by decide)

end SourceVerification.ResourceIds
