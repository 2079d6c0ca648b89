import SourceVerification.Shared.Bech32m
import SourceVerification.Shared.Strings
import SourceVerification.Words

set_option autoImplicit false

namespace SourceVerification.ResourceIds

open Alphabet Strings

/-- What is called of `@scure/base`, which throws where there is no result. -/
structure Bech32mCodec where
  decodeToBytes : List Char → Option (List Char × List (BitVec 8))
  encodeFromBytes : List Char → List (BitVec 8) → Except String (List Char)

/-- BIP-350, with the longest string that it decodes. -/
structure Bech32mCodec.Follows (bech32m : Bech32mCodec) (limit : Option Nat) : Prop where
  decodes : ∀ text, bech32m.decodeToBytes text = Bech32m.decodeToBytes limit text
  encodes : ∀ hrp bytes, (bech32m.encodeFromBytes hrp bytes).toOption = Bech32m.encodeFromBytes (some 90) hrp bytes

-- `/^0x[0-9a-fA-F]{count}$/`
def hexPattern (count : Nat) : List Char → Bool
  | '0' :: 'x' :: digits => digits.length == count && digits.all (hexDigits ++ upperHexDigits).contains
  | _ => false

def ACCOUNT_ID_REGEX : List Char → Bool := hexPattern 30

def NOTE_ID_REGEX : List Char → Bool := hexPattern 64

def ACCOUNT_ID_ADDRESS_TYPE : BitVec 8 := 232

def ACCOUNT_ADDRESS_LENGTH : Nat := 16

-- `value.trim().split("_")[0]`
def encodedId (value : List Char) : List Char :=
  (trim value).takeWhile (· ≠ '_')

structure Address where
  networkId : List Char
  accountId : List Char
deriving DecidableEq

inductive NetworkId
  | mm
  | mtst
  | mdev
deriving DecidableEq

def NetworkId.value : NetworkId → List Char
  | .mm => "mm".toList
  | .mtst => "mtst".toList
  | .mdev => "mdev".toList

def NetworkId.label : NetworkId → String
  | .mm => "Mainnet"
  | .mtst => "Testnet"
  | .mdev => "Devnet"

def networks : List NetworkId := [.mm, .mtst, .mdev]

def networkOf (value : List Char) : Option NetworkId :=
  networks.find? (·.value = value)

structure ResourceIdError where
  message : String
  isWrongNetwork : Bool
deriving DecidableEq

inductive ResourceId
  | account (accountId : List Char)
  | note (noteId : List Char)
deriving DecidableEq

def idOf : ResourceId → List Char
  | .account accountId => accountId
  | .note noteId => noteId

section

variable (bech32m : Bech32mCodec)

def decodeAddress (value : List Char) : Option Address :=
  match bech32m.decodeToBytes (encodedId value) with
  | none => none
  | some (hrp, bytes) =>
    if bytes.length ≠ ACCOUNT_ADDRESS_LENGTH ∨ bytes.head? ≠ some ACCOUNT_ID_ADDRESS_TYPE then none
    else some ⟨hrp, "0x".toList ++ encodeHex (bytes.drop 1)⟩

/-- `none` when the value isn't a hex account ID. -/
def encodeAddress (networkId accountId : List Char) : Except String (Option (List Char)) :=
  if ACCOUNT_ID_REGEX accountId then
    match decodeHex ((accountId.drop 2).map Char.toLower) with
    | none => .error "Invalid hex"
    | some bytes => (bech32m.encodeFromBytes networkId (ACCOUNT_ID_ADDRESS_TYPE :: bytes)).map some
  else .ok none

def addressNetwork (value : List Char) (network : NetworkId) : Option NetworkId :=
  match decodeAddress bech32m value with
  | none => none
  | some address => (networkOf address.networkId).filter (· ≠ network)

def parseResourceId (value : List Char) : Option ResourceId :=
  let trimmed := trim value
  if NOTE_ID_REGEX trimmed then some (.note trimmed)
  else if ACCOUNT_ID_REGEX trimmed then some (.account trimmed)
  else (decodeAddress bech32m trimmed).map fun address => .account address.accountId

def wrongNetwork (networkId : List Char) : ResourceIdError where
  message :=
    match networkOf networkId with
    | some network => "This is a " ++ network.label ++ " address."
    | none => "This address is for another network (" ++ String.ofList networkId ++ ")."
  isWrongNetwork := true

def invalid : ResourceIdError where
  message := "Not a valid account ID, account address or note ID."
  isWrongNetwork := false

def resourceIdError (value : List Char) (network : NetworkId) : Option ResourceIdError :=
  if trim value = [] then none
  else
    match (decodeAddress bech32m value).filter (·.networkId ≠ network.value) with
    | some address => some (wrongNetwork address.networkId)
    | none => if (parseResourceId bech32m value).isSome then none else some invalid

end

def canonicalAddress (networkId : List Char) (id : List (BitVec 8)) : List Char :=
  Bech32m.string networkId (Bits.encode 5 (ACCOUNT_ID_ADDRESS_TYPE :: id))

def canonicalId (id : List (BitVec 8)) : List Char :=
  "0x".toList ++ encodeHex id

section

variable {bech32m : Bech32mCodec} {limit : Option Nat} (follows : bech32m.Follows limit)

theorem hexPattern_iff {count : Nat} {text : List Char} : hexPattern count text = true ↔
    ∃ digits, text = "0x".toList ++ digits ∧ digits.length = count ∧ ∀ char ∈ digits, char ∈ hexDigits ++ upperHexDigits := by
  unfold hexPattern
  split
  next digits =>
    simp only [Bool.and_eq_true, beq_iff_eq, List.all_eq_true, List.contains_iff_mem]
    constructor
    · rintro ⟨length, all⟩
      exact ⟨digits, rfl, length, all⟩
    · rintro ⟨others, same, length, all⟩
      obtain rfl : digits = others := by simpa using same
      exact ⟨length, all⟩
  next other =>
    refine iff_of_false (by decide) ?_
    rintro ⟨digits, rfl, -⟩
    exact other digits rfl

theorem toLower_hexDigits : ∀ char ∈ hexDigits ++ upperHexDigits,
    char.toLower.toLower = char.toLower ∧ char.toLower.toLower ∈ hex.letters :=
  forall_mem_of_all (by decide)

theorem accountId_bytes {accountId : List Char} (pattern : ACCOUNT_ID_REGEX accountId = true) :
    ∃ id, decodeHex ((accountId.drop 2).map Char.toLower) = some id ∧ id.length = 15 ∧
      canonicalId id = accountId.map Char.toLower := by
  obtain ⟨digits, rfl, length, all⟩ := hexPattern_iff.mp pattern
  have rest : ("0x".toList ++ digits).drop 2 = digits := rfl
  have letters : ∀ char ∈ digits.map Char.toLower, char.toLower ∈ hex.letters := by
    intro char member
    obtain ⟨digit, inside, rfl⟩ := List.mem_map.mp member
    exact (toLower_hexDigits digit (all digit inside)).2
  have even : (digits.map Char.toLower).length = 2 * 15 := by rw [List.length_map, length]
  obtain ⟨id, decoded, count⟩ := decodeHex_isSome letters even
  refine ⟨id, by rw [rest, decoded], count, ?_⟩
  have twice : (digits.map Char.toLower).map Char.toLower = digits.map Char.toLower := by
    rw [List.map_map]
    exact List.map_congr_left fun digit member => (toLower_hexDigits digit (all digit member)).1
  rw [canonicalId, encodeHex_decodeHex decoded, twice, List.map_append]
  rfl

theorem length_words {id : List (BitVec 8)} (length : id.length = 15) :
    (Bits.encode 5 (ACCOUNT_ID_ADDRESS_TYPE :: id)).length = 26 := by
  rw [Bits.length_encode, List.length_cons, length]

theorem length_canonicalAddress (networkId : List Char) {id : List (BitVec 8)} (length : id.length = 15) :
    (canonicalAddress networkId id).length = networkId.length + 33 := by
  rw [canonicalAddress, Bech32m.length_string, length_words length]

theorem canonicalAddress_plain {networkId : List Char} (plain : '_' ∉ networkId) (id : List (BitVec 8)) :
    '_' ∉ canonicalAddress networkId id := by
  have other : '_' ∉ Bech32m.charset.letters := by decide
  rw [canonicalAddress, Bech32m.string, List.mem_append, List.mem_cons]
  rintro (front | separator | data)
  · exact plain front
  · exact absurd separator (by decide)
  · obtain ⟨word, -, same⟩ := List.mem_map.mp data
    exact other (same ▸ Bech32m.charset.letter_mem word)

theorem canonicalId_pattern {id : List (BitVec 8)} (length : id.length = 15) :
    ACCOUNT_ID_REGEX (canonicalId id) = true := by
  have digits : ∀ char ∈ hex.letters, char ∈ hexDigits ++ upperHexDigits := forall_mem_of_all (by decide)
  refine hexPattern_iff.mpr ⟨encodeHex id, rfl, by rw [length_encodeHex, length], fun char member => ?_⟩
  obtain ⟨word, -, rfl⟩ := List.mem_map.mp member
  exact digits _ (hex.letter_mem word)

theorem canonicalId_lower (id : List (BitVec 8)) : (canonicalId id).map Char.toLower = canonicalId id := by
  rw [canonicalId, List.map_append, toLower_encodeHex]
  rfl

theorem canonicalId_injective {id other : List (BitVec 8)} (same : canonicalId id = canonicalId other) : id = other := by
  have hexes : encodeHex id = encodeHex other := List.append_cancel_left same
  have decoded := decodeHex_encodeHex id
  rw [hexes, decodeHex_encodeHex] at decoded
  exact (Option.some.inj decoded).symm

theorem solid_of_printable {text : List Char} (printable : text.all Bech32m.printable = true) :
    ∀ char ∈ text, isWhiteSpace char = false := by
  intro char member
  have ascii := List.all_eq_true.mp printable char member
  simp only [Bech32m.printable, Bool.and_eq_true, decide_eq_true_eq] at ascii
  simp [isWhiteSpace]
  omega

theorem encodedId_around {before after address suffix : List Char} (left : Blank before) (right : Blank after)
    (nonempty : address ≠ []) (printable : address.all Bech32m.printable = true) (plain : '_' ∉ address)
    (routing : suffix = [] ∨ ∃ rest, suffix = '_' :: rest) :
    encodedId (before ++ (address ++ suffix) ++ after) = address := by
  have cut : ∀ char ∈ address, decide (char ≠ '_') = true := by
    intro char member
    refine decide_eq_true fun same => plain ?_
    exact same ▸ member
  rw [encodedId, trim_around _ left right, trim_append nonempty (solid_of_printable printable),
    List.takeWhile_append_of_pos cut]
  rcases routing with rfl | ⟨rest, rfl⟩
  · simp
  · cases kept : ('_' :: rest).rdropWhile isWhiteSpace with
    | nil => simp
    | cons first others =>
      have start : first :: others <+: '_' :: rest := kept ▸ List.rdropWhile_prefix _ _
      obtain rfl := (List.cons_prefix_cons.mp start).1
      simp

include follows

theorem encodeAddress_eq {networkId accountId : List Char} {id : List (BitVec 8)} (lowercase : Bech32m.Lowercase networkId)
    (fits : networkId.length + 33 ≤ 90) (pattern : ACCOUNT_ID_REGEX accountId = true)
    (same : canonicalId id = accountId.map Char.toLower) :
    encodeAddress bech32m networkId accountId = .ok (some (canonicalAddress networkId id)) := by
  obtain ⟨bytes, decoded, length, canonical⟩ := accountId_bytes pattern
  obtain rfl := canonicalId_injective (canonical.trans same.symm)
  have encoded : Bech32m.encodeFromBytes (some 90) networkId (ACCOUNT_ID_ADDRESS_TYPE :: bytes) =
      some (canonicalAddress networkId bytes) := by
    refine Bech32m.encode_eq lowercase fun most given => ?_
    obtain rfl := Option.some.inj given
    rw [length_words length]
    omega
  have result := follows.encodes networkId (ACCOUNT_ID_ADDRESS_TYPE :: bytes)
  rw [encoded] at result
  rw [encodeAddress, if_pos pattern]
  simp only [decoded]
  cases written : bech32m.encodeFromBytes networkId (ACCOUNT_ID_ADDRESS_TYPE :: bytes) with
  | error error =>
    rw [written] at result
    cases result
  | ok text =>
    rw [written] at result
    exact congrArg (fun text => Except.ok (some text)) (Option.some.inj result)

theorem encodeAddress_long {networkId accountId : List Char} (long : 90 < networkId.length + 33)
    (pattern : ACCOUNT_ID_REGEX accountId = true) : ∃ message, encodeAddress bech32m networkId accountId = .error message := by
  obtain ⟨bytes, decoded, length, -⟩ := accountId_bytes pattern
  have refused : Bech32m.encodeFromBytes (some 90) networkId (ACCOUNT_ID_ADDRESS_TYPE :: bytes) = none := by
    rw [Bech32m.encodeFromBytes, Bech32m.encode, if_pos]
    refine .inr (.inr ((Option.any_eq_true _ _).mpr ⟨90, rfl, decide_eq_true ?_⟩))
    rw [length_words length]
    omega
  have result := follows.encodes networkId (ACCOUNT_ID_ADDRESS_TYPE :: bytes)
  rw [refused] at result
  rw [encodeAddress, if_pos pattern]
  simp only [decoded]
  cases written : bech32m.encodeFromBytes networkId (ACCOUNT_ID_ADDRESS_TYPE :: bytes) with
  | error message => exact ⟨message, rfl⟩
  | ok text =>
    rw [written] at result
    cases result

theorem decodeAddress_eq_some_iff {value networkId accountId : List Char} :
    decodeAddress bech32m value = some ⟨networkId, accountId⟩ ↔ ∃ id, id.length = 15 ∧ accountId = canonicalId id ∧
      Bech32m.decodeToBytes limit (encodedId value) = some (networkId, ACCOUNT_ID_ADDRESS_TYPE :: id) := by
  rw [decodeAddress, follows.decodes]
  cases Bech32m.decodeToBytes limit (encodedId value) with
  | none => simp
  | some read =>
    obtain ⟨hrp, bytes⟩ := read
    constructor
    · intro decoded
      dsimp only at decoded
      split_ifs at decoded with other
      push Not at other
      obtain ⟨length, first⟩ := other
      obtain ⟨id, rfl⟩ : ∃ id, bytes = ACCOUNT_ID_ADDRESS_TYPE :: id := by
        cases bytes with
        | nil => cases first
        | cons byte id => exact ⟨id, congrArg (· :: id) (Option.some.inj first)⟩
      obtain ⟨rfl, rfl⟩ := Address.mk.inj (Option.some.inj decoded)
      exact ⟨id, by simpa [ACCOUNT_ADDRESS_LENGTH] using length, rfl, rfl⟩
    · rintro ⟨id, length, rfl, same⟩
      obtain ⟨rfl, rfl⟩ := Prod.mk.inj (Option.some.inj same)
      dsimp only
      rw [if_neg]
      · rfl
      · simp [ACCOUNT_ADDRESS_LENGTH, length]

theorem decodeAddress_of_encodedId {value networkId : List Char} {id : List (BitVec 8)} (length : id.length = 15)
    (lowercase : Bech32m.Lowercase networkId) (fits : ∀ most ∈ limit, networkId.length + 33 ≤ most)
    (written : encodedId value = canonicalAddress networkId id) :
    decodeAddress bech32m value = some ⟨networkId, canonicalId id⟩ := by
  refine (decodeAddress_eq_some_iff follows).mpr ⟨id, length, rfl, Bech32m.decodeToBytes_of_decode ?_⟩
  rw [written]
  refine Bech32m.decode_string lowercase fun most given => ?_
  rw [length_words length]
  exact fits most given

structure Decodes (limit : Option Nat) (value networkId : List Char) (id : List (BitVec 8)) : Prop where
  length : id.length = 15
  lowercase : Bech32m.Lowercase networkId
  fits : ∀ most ∈ limit, networkId.length + 33 ≤ most
  printable : (encodedId value).all Bech32m.printable = true
  lower : (encodedId value).map Char.toLower = canonicalAddress networkId id
  cased : encodedId value = (encodedId value).map Char.toLower ∨ encodedId value = (encodedId value).map Char.toUpper

theorem decodeAddress_decodes {value networkId accountId : List Char}
    (decoded : decodeAddress bech32m value = some ⟨networkId, accountId⟩) :
    ∃ id, accountId = canonicalId id ∧ Decodes limit value networkId id := by
  obtain ⟨id, length, rfl, read⟩ := (decodeAddress_eq_some_iff follows).mp decoded
  obtain ⟨lowercase, lower, fits, printable, cased⟩ :=
    Bech32m.decode_eq_some (Bech32m.decodeToBytes_eq_some read)
  rw [length_words length] at fits
  exact ⟨id, rfl, length, lowercase, fits, printable, lower, cased⟩

end

theorem decodeAddress_encodeAddress (bech32m : Bech32mCodec) (limit : Option Nat) (follows : bech32m.Follows limit) :
    (∀ networkId accountId, Bech32m.Lowercase networkId → '_' ∉ networkId →
      networkId.length + 1 + 26 + 6 ≤ 90 → (∀ most ∈ limit, networkId.length + 1 + 26 + 6 ≤ most) →
      ACCOUNT_ID_REGEX accountId = true →
      ∃ address, encodeAddress bech32m networkId accountId = .ok (some address) ∧
        ∀ before after suffix, Blank before → Blank after → (suffix = [] ∨ ∃ rest, suffix = '_' :: rest) →
          decodeAddress bech32m (before ++ (address ++ suffix) ++ after) =
            some ⟨networkId, accountId.map Char.toLower⟩) ∧
    ∀ value networkId accountId, decodeAddress bech32m value = some ⟨networkId, accountId⟩ →
      (limit = some 90 ∨ networkId.length + 1 + 26 + 6 ≤ 90 →
        encodeAddress bech32m networkId accountId =
          .ok (some (((trim value).takeWhile (· ≠ '_')).map Char.toLower))) ∧
      (90 < networkId.length + 1 + 26 + 6 → ∃ message, encodeAddress bech32m networkId accountId = .error message) := by
  constructor
  · intro networkId accountId lowercase plain fits within pattern
    obtain ⟨id, -, length, same⟩ := accountId_bytes pattern
    refine ⟨_, encodeAddress_eq follows lowercase (by omega) pattern same, ?_⟩
    intro before after suffix left right routing
    have printable : (canonicalAddress networkId id).all Bech32m.printable = true :=
      Bech32m.string_printable lowercase
    have nonempty : canonicalAddress networkId id ≠ [] := by
      rw [← List.length_pos_iff, length_canonicalAddress networkId length]
      omega
    have cut := encodedId_around left right nonempty printable (canonicalAddress_plain plain id) routing
    rw [← same]
    exact decodeAddress_of_encodedId follows length lowercase within cut
  · intro value networkId accountId decoded
    obtain ⟨id, rfl, decodes⟩ := decodeAddress_decodes follows decoded
    constructor
    · intro short
      have fits : networkId.length + 33 ≤ 90 := by
        rcases short with rfl | short
        · exact decodes.fits 90 rfl
        · exact short
      have encoded := encodeAddress_eq follows decodes.lowercase fits (canonicalId_pattern decodes.length)
        (canonicalId_lower id).symm
      rw [encoded, ← decodes.lower, encodedId]
    · intro long
      exact encodeAddress_long follows long (canonicalId_pattern decodes.length)

def bip350 (limit : Option Nat) : Bech32mCodec where
  decodeToBytes := Bech32m.decodeToBytes limit
  encodeFromBytes hrp bytes :=
    match Bech32m.encodeFromBytes (some 90) hrp bytes with
    | some text => .ok text
    | none => .error "Invalid prefix or length"

theorem bip350_follows (limit : Option Nat) : (bip350 limit).Follows limit where
  decodes _ := rfl
  encodes hrp bytes := by
    cases encoded : Bech32m.encodeFromBytes (some 90) hrp bytes with
    | none => simp [bip350, encoded, Except.toOption]
    | some text => simp [bip350, encoded, Except.toOption]

theorem decodeAddress_encodeAddress_testnet : ∃ address,
    encodeAddress (bip350 none) "mtst".toList "0xAD41ad8e6776a19173668f043fc081".toList = .ok (some address) ∧
      decodeAddress (bip350 none) (" ".toList ++ (address ++ "_qr".toList) ++ "\t".toList) =
        some ⟨"mtst".toList, "0xad41ad8e6776a19173668f043fc081".toList⟩ := by
  obtain ⟨address, encoded, decoded⟩ := (decodeAddress_encodeAddress (bip350 none) none (bip350_follows _)).1
    "mtst".toList "0xAD41ad8e6776a19173668f043fc081".toList ⟨by decide, by decide, by decide⟩ (by decide) (by decide)
    (by simp) (by decide)
  refine ⟨address, encoded, ?_⟩
  have lower : "0xAD41ad8e6776a19173668f043fc081".toList.map Char.toLower =
      "0xad41ad8e6776a19173668f043fc081".toList := by decide
  rw [← lower]
  exact decoded _ _ _ (by decide) (by decide) (.inr ⟨"qr".toList, rfl⟩)

example : encodeAddress (bip350 (some 90)) "mtst".toList "0xad41ad8e6776a19173668f043fc081".toList =
    .ok (some "mtst1azk5rtvwvam2rytnv68sg07qsy44y4ed".toList) := by decide +kernel

end SourceVerification.ResourceIds
