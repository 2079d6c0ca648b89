import Mathlib.Data.List.TakeWhile
import SourceVerification.Shared.Alphabets
import SourceVerification.Shared.Strings

set_option autoImplicit false

namespace Urls

open Alphabet

def utf8 (text : List Char) : List UInt8 :=
  text.flatMap String.utf8EncodeChar

def percentEncodeByte (byte : UInt8) : List Char :=
  '%' :: (encodeHex [byte.toBitVec]).map Char.toUpper

def pathSet (char : Char) : Bool :=
  char.toNat < 0x20 || 0x7E < char.toNat || " \"#<>?^`\x7b\x7d".toList.contains char

def percentEncode (char : Char) : List Char :=
  if pathSet char then (String.utf8EncodeChar char).flatMap percentEncodeByte else [char]

def encode (segment : List Char) : List Char :=
  segment.flatMap percentEncode

def percentDecode : List Char → Option (List UInt8)
  | [] => some []
  | char :: rest =>
    if char = '%' then
      match rest with
      | high :: low :: others =>
        match decodeHex [high, low], percentDecode others with
        | some [byte], some bytes => some (⟨byte⟩ :: bytes)
        | _, _ => none
      | _ => none
    else (percentDecode rest).map (String.utf8EncodeChar char ++ ·)

-- `none` is a `URIError`.
def decodeURIComponent (text : List Char) : Option (List Char) :=
  (percentDecode text).bind fun bytes => bytes.toByteArray.utf8Decode?.map Array.toList

def isControlOrSpace (char : Char) : Bool := char.toNat ≤ 0x20

def isTabOrNewline (char : Char) : Bool := ['\t', '\n', '\r'].contains char

-- Of an HTTP URL, a backslash is a slash.
def isSlash (char : Char) : Bool := char = '/' || char = '\\'

def endsPath (char : Char) : Bool := char = '?' || char = '#'

def isSingleDot (segment : List Char) : Bool :=
  [".".toList, "%2e".toList].contains (segment.map Char.toLower)

def isDoubleDot (segment : List Char) : Bool :=
  ["..".toList, ".%2e".toList, "%2e.".toList, "%2e%2e".toList].contains (segment.map Char.toLower)

def endSegment (path : List (List Char)) (segment : List Char) (slash : Bool) : List (List Char) :=
  if isDoubleDot segment then path.dropLast ++ (if slash then [] else [[]])
  else if isSingleDot segment then path ++ (if slash then [] else [[]])
  else path ++ [segment]

def pathState (path : List (List Char)) (buffer : List Char) : List Char → List (List Char)
  | [] => endSegment path buffer false
  | char :: rest =>
    if isSlash char then pathState (endSegment path buffer true) [] rest
    else if endsPath char then endSegment path buffer false
    else pathState path (buffer ++ percentEncode char) rest

def pathStartState (text : List Char) : List (List Char) :=
  if (text.head?.map isSlash).getD false then pathState [] [] text.tail else pathState [] [] text

inductive Scheme
  | http
  | https
deriving DecidableEq

def Scheme.text : Scheme → List Char
  | .http => "http://".toList
  | .https => "https://".toList

structure Url where
  scheme : Scheme
  host : List Char
  path : List (List Char)
deriving DecidableEq

def cleanEnd (text : List Char) : List Char :=
  (text.rdropWhile isControlOrSpace).filter fun char => !isTabOrNewline char

def clean (input : List Char) : List Char :=
  cleanEnd (input.dropWhile isControlOrSpace)

def inHost (char : Char) : Bool := !isSlash char && !endsPath char

def authorityState (scheme : Scheme) (text : List Char) : Url where
  scheme
  host := (text.dropWhile isSlash).takeWhile inHost
  path := pathStartState ((text.dropWhile isSlash).dropWhile inHost)

def parse (input : List Char) : Option Url :=
  let text := clean input
  if Scheme.http.text.isPrefixOf text then some (authorityState .http (text.drop 7))
  else if Scheme.https.text.isPrefixOf text then some (authorityState .https (text.drop 8))
  else none

def Url.pathname (url : Url) : List Char :=
  url.path.flatMap ('/' :: ·)

structure Origin where
  scheme : Scheme
  host : List Char
  nonempty : host ≠ []
  plain : ∀ char ∈ host, 0x20 < char.toNat ∧ inHost char = true

def Origin.text (origin : Origin) : List Char :=
  origin.scheme.text ++ origin.host

theorem utf8_cons (char : Char) (rest : List Char) : utf8 (char :: rest) = String.utf8EncodeChar char ++ utf8 rest :=
  List.flatMap_cons ..

theorem utf8_append (text rest : List Char) : utf8 (text ++ rest) = utf8 text ++ utf8 rest :=
  List.flatMap_append ..

theorem encode_cons (char : Char) (rest : List Char) : encode (char :: rest) = percentEncode char ++ encode rest :=
  List.flatMap_cons ..

theorem encode_append (text rest : List Char) : encode (text ++ rest) = encode text ++ encode rest :=
  List.flatMap_append ..

theorem encode_eq_self {text : List Char} (plain : ∀ char ∈ text, pathSet char = false) : encode text = text := by
  induction text with
  | nil => rfl
  | cons char rest ih =>
    rw [encode_cons, percentEncode, plain char (List.mem_cons_self ..),
      ih fun other member => plain other (List.mem_cons_of_mem _ member)]
    rfl

theorem length_utf8_pos (char : Char) : 0 < (String.utf8EncodeChar char).length := by
  rw [String.length_utf8EncodeChar]
  exact char.utf8Size_pos

theorem length_le_utf8 (text : List Char) : text.length ≤ (utf8 text).length := by
  induction text with
  | nil => rfl
  | cons char rest ih =>
    have positive := length_utf8_pos char
    rw [utf8_cons, List.length_append, List.length_cons]
    omega

theorem length_filter_le (kept : Char → Bool) (text : List Char) :
    (utf8 (text.filter kept)).length ≤ (utf8 text).length := by
  induction text with
  | nil => rfl
  | cons char rest ih =>
    rw [List.filter_cons]
    split
    next =>
      simp only [utf8_cons, List.length_append]
      omega
    next =>
      simp only [utf8_cons, List.length_append]
      omega

theorem kept_of_length {text : List Char} {kept : Char → Bool}
    (same : (utf8 text).length ≤ (utf8 (text.filter kept)).length) : ∀ char ∈ text, kept char = true := by
  induction text with
  | nil => simp
  | cons char rest ih =>
    have positive := length_utf8_pos char
    have tail := length_filter_le kept rest
    rw [List.filter_cons] at same
    split at same
    next keep =>
      simp only [utf8_cons, List.length_append] at same
      exact List.forall_mem_cons.mpr ⟨keep, ih (by omega)⟩
    next drop =>
      simp only [utf8_cons, List.length_append] at same
      omega

theorem decodeHex_pair (byte : BitVec 8) : decodeHex ((encodeHex [byte]).map Char.toUpper) = some [byte] := by
  have cases : ∀ letter ∈ hex.letters, letter.toUpper.toLower = letter := forall_mem_of_all (by decide)
  have lower : ((encodeHex [byte]).map Char.toUpper).map Char.toLower = encodeHex [byte] := by
    rw [encodeHex, spell, List.map_map, List.map_map]
    exact List.map_congr_left fun word _ => cases _ (hex.letter_mem word)
  rw [decodeHex, lower, encodeHex, read_spell]
  exact Bits.decode_encode (by decide) (by decide) [byte]

theorem percentDecode_bytes (bytes : List UInt8) (rest : List Char) :
    percentDecode (bytes.flatMap percentEncodeByte ++ rest) = (percentDecode rest).map (bytes ++ ·) := by
  induction bytes with
  | nil => simp
  | cons byte others ih =>
    obtain ⟨high, low, pair⟩ : ∃ high low, (encodeHex [byte.toBitVec]).map Char.toUpper = [high, low] :=
      List.length_eq_two.mp (by rw [List.length_map, length_encodeHex]; rfl)
    have decoded := decodeHex_pair byte.toBitVec
    rw [pair] at decoded
    rw [List.flatMap_cons, percentEncodeByte, pair]
    simp only [List.cons_append, List.nil_append, percentDecode, if_true, decoded, ih]
    cases percentDecode rest with
    | none => rfl
    | some more => rfl

theorem percentDecode_of_ne {char : Char} (unescaped : char ≠ '%') (rest : List Char) :
    percentDecode (char :: rest) = (percentDecode rest).map (String.utf8EncodeChar char ++ ·) := by
  conv_lhs => unfold percentDecode
  rw [if_neg unescaped]

theorem percentDecode_percentEncode {char : Char} (unescaped : char ≠ '%') (rest : List Char) :
    percentDecode (percentEncode char ++ rest) = (percentDecode rest).map (String.utf8EncodeChar char ++ ·) := by
  rw [percentEncode]
  split
  next => exact percentDecode_bytes _ rest
  next => exact percentDecode_of_ne unescaped rest

theorem percentDecode_encode {text : List Char} (unescaped : '%' ∉ text) :
    percentDecode (encode text) = some (utf8 text) := by
  induction text with
  | nil => rfl
  | cons char rest ih =>
    rw [List.mem_cons, not_or] at unescaped
    rw [encode_cons, percentDecode_percentEncode (Ne.symm unescaped.1), ih unescaped.2]
    rfl

theorem decodeURIComponent_encode {text : List Char} (unescaped : '%' ∉ text) :
    decodeURIComponent (encode text) = some text := by
  have decoded : (utf8 text).toByteArray.utf8Decode? = some text.toArray := List.utf8Decode?_utf8Encode
  rw [decodeURIComponent, percentDecode_encode unescaped, Option.bind_some, decoded]
  rfl

theorem encode_digit {text rest : List Char} {digit : Char} (hexadecimal : digit.toLower ∈ hex.letters)
    (escaped : encode text = digit :: rest) : ∃ others, text = digit :: others ∧ rest = encode others := by
  cases text with
  | nil => cases escaped
  | cons char others =>
    rw [encode_cons, percentEncode] at escaped
    split at escaped
    next =>
      obtain ⟨byte, more, bytes⟩ := List.exists_cons_of_ne_nil (List.length_pos_iff.mp (length_utf8_pos char))
      rw [bytes, List.flatMap_cons, percentEncodeByte] at escaped
      obtain rfl : '%' = digit := (List.cons.inj escaped).1
      exact absurd hexadecimal (by decide)
    next =>
      obtain ⟨rfl, rfl⟩ := List.cons.inj escaped
      exact ⟨others, rfl, rfl⟩

theorem decodeHex_digits {text : List Char} {bytes : List (BitVec 8)} (decoded : decodeHex text = some bytes) :
    ∀ char ∈ text, char.toLower ∈ hex.letters := by
  intro char member
  have lowered : char.toLower ∈ encodeHex bytes := encodeHex_decodeHex decoded ▸ List.mem_map_of_mem member
  obtain ⟨word, -, same⟩ := List.mem_map.mp lowered
  exact same ▸ hex.letter_mem word

theorem length_percentDecode {text : List Char} {bytes : List UInt8} (decoded : percentDecode (encode text) = some bytes) :
    bytes.length ≤ (utf8 text).length ∧ ('%' ∈ text → bytes.length < (utf8 text).length) := by
  induction length : text.length using Nat.strong_induction_on generalizing text bytes with
  | _ size ih =>
    cases text with
    | nil =>
      obtain rfl := Option.some.inj decoded
      simp
    | cons char rest =>
      rw [encode_cons] at decoded
      by_cases percent : char = '%'
      next =>
        subst percent
        have escape : percentEncode '%' = ['%'] := by decide
        rw [escape, List.cons_append, List.nil_append] at decoded
        unfold percentDecode at decoded
        rw [if_pos rfl] at decoded
        split at decoded
        next high low others escaped =>
          split at decoded
          next byte more pair following =>
            obtain rfl := Option.some.inj decoded
            have digits := decodeHex_digits pair
            obtain ⟨typed, rfl, shape⟩ := encode_digit (digits high (by simp)) escaped
            obtain ⟨remaining, rfl, rfl⟩ := encode_digit (digits low (by simp)) shape.symm
            have shorter := (ih remaining.length (by simp only [List.length_cons] at length; omega) following rfl).1
            have first := length_utf8_pos '%'
            have second := length_utf8_pos high
            simp only [utf8_cons, List.length_cons, List.length_append]
            omega
          next => cases decoded
        next => cases decoded
      next =>
        rw [percentDecode_percentEncode percent] at decoded
        obtain ⟨more, following, rfl⟩ := Option.map_eq_some_iff.mp decoded
        obtain ⟨shorter, strictly⟩ := ih rest.length (by simp only [List.length_cons] at length; omega) following rfl
        simp only [utf8_cons, List.length_append, List.mem_cons]
        refine ⟨by omega, fun escaped => ?_⟩
        have := strictly (escaped.resolve_left (Ne.symm percent))
        omega

theorem decodeURIComponent_length {text decoded : List Char} (read : decodeURIComponent (encode text) = some decoded) :
    (utf8 decoded).length ≤ (utf8 text).length ∧
      ((utf8 text).length ≤ (utf8 decoded).length → '%' ∉ text ∧ decoded = text) := by
  obtain ⟨bytes, escaped, characters⟩ := Option.bind_eq_some_iff.mp read
  obtain ⟨array, understood, rfl⟩ := Option.map_eq_some_iff.mp characters
  have same : utf8 array.toList = bytes := by
    have present : bytes.toByteArray.utf8Decode?.isSome := by rw [understood]; rfl
    have encoded : array.toList.utf8Encode = bytes.toByteArray := by
      have whole : (bytes.toByteArray.utf8Decode?.get present).toList.utf8Encode = bytes.toByteArray :=
        ByteArray.utf8Encode_get_utf8Decode?
      simpa only [understood, Option.get_some] using whole
    have arrays : (utf8 array.toList).toByteArray = bytes.toByteArray := encoded
    simpa using congrArg (fun array => array.data.toList) arrays
  obtain ⟨shorter, strictly⟩ := length_percentDecode escaped
  rw [same]
  refine ⟨shorter, fun longer => ?_⟩
  have unescaped : '%' ∉ text := fun percent => absurd (strictly percent) (by omega)
  refine ⟨unescaped, ?_⟩
  rw [decodeURIComponent_encode unescaped] at read
  exact (Option.some.inj read).symm

theorem isControlOrSpace_false {char : Char} (plain : 0x20 < char.toNat) : isControlOrSpace char = false := by
  simpa [isControlOrSpace] using plain

theorem isTabOrNewline_false {char : Char} (plain : 0x20 < char.toNat) : isTabOrNewline char = false := by
  have all : ∀ char ∈ ['\t', '\n', '\r'], char.toNat ≤ 0x20 := forall_mem_of_all (by decide)
  rw [Bool.eq_false_iff]
  intro tab
  exact absurd (all char (by simpa [isTabOrNewline] using tab)) (by omega)

theorem cleanEnd_append {text : List Char} (plain : ∀ char ∈ text, 0x20 < char.toNat)
    (rest : List Char) : cleanEnd (text ++ rest) = text ++ cleanEnd rest := by
  have stripped : (text ++ rest).rdropWhile isControlOrSpace = text ++ rest.rdropWhile isControlOrSpace :=
    Strings.rdropWhile_append_of_neg (fun char member => isControlOrSpace_false (plain char member)) rest
  have kept : text.filter (fun char => !isTabOrNewline char) = text := by
    refine List.filter_eq_self.mpr fun char member => ?_
    simp [isTabOrNewline_false (plain char member)]
  rw [cleanEnd, stripped, List.filter_append, kept, cleanEnd]

theorem cleanEnd_eq_self {text : List Char} (tabs : ∀ char ∈ text, isTabOrNewline char = false)
    (visible : ∀ last ∈ text.getLast?, isControlOrSpace last = false) : cleanEnd text = text := by
  have whole : text.rdropWhile isControlOrSpace = text := by
    refine List.rdropWhile_eq_self_iff.mpr fun present => ?_
    simp [visible _ (List.getLast?_eq_some_getLast present)]
  rw [cleanEnd, whole, List.filter_eq_self]
  intro char member
  simp [tabs char member]

theorem length_cleanEnd (text : List Char) : (utf8 (cleanEnd text)).length ≤ (utf8 text).length ∧
    ((utf8 text).length ≤ (utf8 (cleanEnd text)).length → (∀ char ∈ text, isTabOrNewline char = false) ∧
      ∀ last ∈ text.getLast?, isControlOrSpace last = false) := by
  have both := List.rdropWhile_append_rtakeWhile (p := isControlOrSpace) (l := text)
  have lengths := congrArg (fun whole => (utf8 whole).length) both
  simp only [utf8_append, List.length_append] at lengths
  have filtered := length_filter_le (fun char => !isTabOrNewline char) (text.rdropWhile isControlOrSpace)
  rw [cleanEnd]
  refine ⟨by omega, fun long => ?_⟩
  have nothing := length_le_utf8 (text.rtakeWhile isControlOrSpace)
  have none : text.rtakeWhile isControlOrSpace = [] := List.length_eq_zero_iff.mp (by omega)
  rw [none, List.append_nil] at both
  rw [both] at long
  refine ⟨fun char member => by simpa using kept_of_length long char member, fun last member => ?_⟩
  have present : text ≠ [] := List.ne_nil_of_mem (List.mem_of_getLast? member)
  rw [List.getLast?_eq_some_getLast present] at member
  obtain rfl := Option.some.inj member
  simpa using List.rtakeWhile_eq_nil_iff.mp none present

theorem Origin.text_plain (origin : Origin) : ∀ char ∈ origin.text, 0x20 < char.toNat := by
  intro char member
  rcases List.mem_append.mp member with scheme | host
  · have both : ∀ scheme : Scheme, ∀ char ∈ scheme.text, 0x20 < char.toNat := by
      intro scheme
      cases scheme <;> exact forall_mem_of_all (by decide)
    exact both _ char scheme
  · exact (origin.plain char host).1

theorem authorityState_origin (origin : Origin) (rest : List Char) :
    authorityState origin.scheme (origin.host ++ '/' :: rest) = ⟨origin.scheme, origin.host, pathState [] [] rest⟩ := by
  obtain ⟨first, others, host⟩ := List.exists_cons_of_ne_nil origin.nonempty
  have inside : ∀ char ∈ origin.host, inHost char = true := fun char member => (origin.plain char member).2
  have start : ¬ isSlash first = true := by
    have plain := inside first (host ▸ List.mem_cons_self ..)
    simp only [inHost, Bool.and_eq_true, Bool.not_eq_true'] at plain
    simp [plain.1]
  have slash : ¬ inHost '/' = true := by decide
  have noSlashes : (origin.host ++ '/' :: rest).dropWhile isSlash = origin.host ++ '/' :: rest := by
    rw [host, List.cons_append, List.dropWhile_cons_of_neg start]
  rw [authorityState, noSlashes, List.takeWhile_append_of_pos inside, List.dropWhile_append_of_pos inside,
    List.takeWhile_cons_of_neg slash, List.dropWhile_cons_of_neg slash, List.append_nil]
  rfl

theorem parse_origin (origin : Origin) (rest : List Char) :
    parse (origin.text ++ '/' :: rest) = some ⟨origin.scheme, origin.host, pathState [] [] (cleanEnd rest)⟩ := by
  have cleaned : clean (origin.text ++ '/' :: rest) = origin.scheme.text ++ (origin.host ++ '/' :: cleanEnd rest) := by
    have plain : ∀ char ∈ origin.text ++ ['/'], 0x20 < char.toNat := by
      intro char member
      rcases List.mem_append.mp member with inside | slash
      · exact origin.text_plain char inside
      · obtain rfl := List.mem_singleton.mp slash
        decide
    have shape : origin.text ++ '/' :: rest = origin.text ++ ['/'] ++ rest := by simp
    have start : (origin.text ++ ['/'] ++ rest).dropWhile isControlOrSpace = origin.text ++ ['/'] ++ rest := by
      obtain ⟨first, others, text⟩ : ∃ first others, origin.text ++ ['/'] = first :: others :=
        List.exists_cons_of_ne_nil (by simp)
      have visible := isControlOrSpace_false (plain first (text ▸ List.mem_cons_self ..))
      rw [text, List.cons_append, List.dropWhile_cons_of_neg (by simp [visible])]
    rw [clean, shape, start, cleanEnd_append plain, Origin.text]
    simp
  have read := authorityState_origin origin (cleanEnd rest)
  rw [parse, cleaned]
  cases scheme : origin.scheme with
  | http =>
    rw [scheme] at read
    exact congrArg some read
  | https =>
    rw [scheme] at read
    exact congrArg some read

structure Typed (segment : List Char) : Prop where
  inside : ∀ char ∈ segment, inHost char = true
  not_singleDot : isSingleDot (encode segment) = false
  not_doubleDot : isDoubleDot (encode segment) = false

theorem encode_eq_nil_iff {text : List Char} : encode text = [] ↔ text = [] := by
  constructor
  · intro empty
    cases text with
    | nil => rfl
    | cons char rest =>
      rw [encode_cons, percentEncode] at empty
      split at empty
      next =>
        obtain ⟨byte, more, bytes⟩ := List.exists_cons_of_ne_nil (List.length_pos_iff.mp (length_utf8_pos char))
        rw [bytes] at empty
        cases empty
      next => cases empty
  · rintro rfl
    rfl

theorem encode_plain {text : List Char} (plain : '%' ∉ encode text) : encode text = text := by
  refine encode_eq_self fun char member => ?_
  rw [Bool.eq_false_iff]
  intro escaped
  obtain ⟨byte, more, bytes⟩ := List.exists_cons_of_ne_nil (List.length_pos_iff.mp (length_utf8_pos char))
  refine plain (List.mem_flatMap.mpr ⟨char, member, ?_⟩)
  rw [percentEncode, if_pos escaped, bytes]
  exact List.mem_cons_self ..

theorem eq_of_toLower {char lower : Char} (same : char.toLower = lower) :
    char = lower ∨ char.toNat + 32 = lower.toNat ∧ 65 ≤ char.toNat := by
  subst same
  by_cases upper : char.val ≥ 'A'.val ∧ char.val ≤ 'Z'.val
  next =>
    have least : 65 ≤ char.toNat := UInt32.le_iff_toNat_le.mp upper.1
    have most : char.toNat ≤ 90 := UInt32.le_iff_toNat_le.mp upper.2
    have value : char.toLower.val = char.val + 32 :=
      congrArg Char.val (dif_pos upper)
    have sum : char.toLower.toNat = (char.toNat + 32) % 2 ^ 32 := by
      rw [Char.toNat, value, UInt32.toNat_add]
      rfl
    exact .inr ⟨by omega, least⟩
  next =>
    have unchanged : char.toLower = char := dif_neg upper
    exact .inl unchanged.symm

-- The texts that are this one in lowercase, when it has no letter but `e`.
def spellings : List Char → List (List Char)
  | [] => [[]]
  | char :: rest => (spellings rest).flatMap fun text => if char = 'e' then ['e' :: text, 'E' :: text] else [char :: text]

theorem mem_spellings {text lower : List Char} (same : text.map Char.toLower = lower)
    (known : ∀ char ∈ lower, char ∈ ".%2e".toList) : text ∈ spellings lower := by
  have others : ∀ char ∈ ".%2e".toList, char ≠ 'e' → char.toNat < 97 := forall_mem_of_all (by decide)
  induction lower generalizing text with
  | nil => simpa [spellings] using same
  | cons char rest ih =>
    cases text with
    | nil => cases same
    | cons first more =>
      obtain ⟨head, tail⟩ := List.cons.inj same
      obtain ⟨here, later⟩ := List.forall_mem_cons.mp known
      refine List.mem_flatMap.mpr ⟨more, ih tail later, ?_⟩
      rcases eq_of_toLower head with rfl | ⟨shifted, least⟩
      · split
        next letter => simp [letter]
        next => simp
      · have letter : char = 'e' := by
          by_contra other
          have small := others char here other
          omega
        subst letter
        obtain rfl : first = 'E' := by
          rw [← Char.ofNat_toNat first]
          have code : first.toNat = 69 := by
            have lower : 'e'.toNat = 101 := rfl
            omega
          rw [code]
        simp

theorem decode_dots {segment : List Char} : (isSingleDot segment = true → decodeURIComponent segment = some ".".toList) ∧
    (isDoubleDot segment = true → decodeURIComponent segment = some "..".toList) := by
  have singles : ∀ lower ∈ [".".toList, "%2e".toList], lower.all (fun char => char ∈ ".%2e".toList) = true ∧
      ∀ text ∈ spellings lower, decodeURIComponent text = some ".".toList := by decide +kernel
  have doubles : ∀ lower ∈ ["..".toList, ".%2e".toList, "%2e.".toList, "%2e%2e".toList],
      lower.all (fun char => char ∈ ".%2e".toList) = true ∧
        ∀ text ∈ spellings lower, decodeURIComponent text = some "..".toList := by decide +kernel
  constructor
  · intro single
    obtain ⟨known, read⟩ := singles _ (List.contains_iff_mem.mp single)
    exact read segment (mem_spellings rfl (forall_mem_of_all known))
  · intro double
    obtain ⟨known, read⟩ := doubles _ (List.contains_iff_mem.mp double)
    exact read segment (mem_spellings rfl (forall_mem_of_all known))

theorem typed_of {segment : List Char} (inside : ∀ char ∈ segment, inHost char = true) (unescaped : '%' ∉ segment)
    (single : segment ≠ ".".toList) (double : segment ≠ "..".toList) : Typed segment where
  inside := inside
  not_singleDot := by
    rw [Bool.eq_false_iff]
    intro dot
    exact single (Option.some.inj ((decodeURIComponent_encode unescaped).symm.trans (decode_dots.1 dot)))
  not_doubleDot := by
    rw [Bool.eq_false_iff]
    intro dots
    exact double (Option.some.inj ((decodeURIComponent_encode unescaped).symm.trans (decode_dots.2 dots)))

theorem Typed.ne {segment : List Char} (typed : Typed segment) : segment ≠ ".".toList ∧ segment ≠ "..".toList := by
  have single : isSingleDot (encode ".".toList) = true := by decide
  have double : isDoubleDot (encode "..".toList) = true := by decide
  constructor
  · rintro rfl
    rw [typed.not_singleDot] at single
    cases single
  · rintro rfl
    rw [typed.not_doubleDot] at double
    cases double

theorem typed_nil : Typed [] where
  inside := by simp
  not_singleDot := by decide
  not_doubleDot := by decide

theorem endSegment_typed_eq {segment : List Char} (typed : Typed segment) (path : List (List Char)) (slash : Bool) :
    endSegment path (encode segment) slash = path ++ [encode segment] := by
  rw [endSegment, typed.not_doubleDot, typed.not_singleDot]
  rfl

theorem pathState_append {segment : List Char} (inside : ∀ char ∈ segment, inHost char = true)
    (path : List (List Char)) (buffer rest : List Char) :
    pathState path buffer (segment ++ rest) = pathState path (buffer ++ encode segment) rest := by
  induction segment generalizing buffer with
  | nil => rw [encode, List.flatMap_nil, List.append_nil, List.nil_append]
  | cons char others ih =>
    have first := inside char (List.mem_cons_self ..)
    simp only [inHost, Bool.and_eq_true, Bool.not_eq_true'] at first
    rw [List.cons_append, pathState, if_neg (by simp [first.1]), if_neg (by simp [first.2]),
      ih fun other member => inside other (List.mem_cons_of_mem _ member), encode_cons, List.append_assoc]

theorem pathState_segment {segment : List Char} (typed : Typed segment) (path : List (List Char)) (rest : List Char) :
    pathState path [] (segment ++ '/' :: rest) = pathState (path ++ [encode segment]) [] rest := by
  have slash : isSlash '/' = true := rfl
  rw [pathState_append typed.inside, List.nil_append, pathState, if_pos slash, endSegment_typed_eq typed]

theorem pathState_last {segment : List Char} (typed : Typed segment) (path : List (List Char)) :
    pathState path [] segment = path ++ [encode segment] := by
  have read := pathState_append typed.inside path [] []
  rw [List.append_nil, List.nil_append] at read
  rw [read, pathState, endSegment_typed_eq typed]

def weight (segments : List (List Char)) : Nat :=
  (segments.map fun segment => (utf8 segment).length + 1).sum

theorem weight_append (segments others : List (List Char)) :
    weight (segments ++ others) = weight segments + weight others := by
  rw [weight, List.map_append, List.sum_append, weight, weight]

theorem weight_dropLast (segments : List (List Char)) : weight segments.dropLast ≤ weight segments := by
  by_cases empty : segments = []
  next => simp [empty]
  next =>
    have whole := weight_append segments.dropLast [segments.getLast empty]
    rw [List.dropLast_append_getLast] at whole
    omega

theorem last_typed {segments : List (List Char)} (all : ∀ one ∈ segments, Typed one) (slash : Bool) : ∃ result,
    segments.map encode ++ (if slash then [] else [[]]) = result.map encode ∧ (∀ one ∈ result, Typed one) ∧
      weight result ≤ weight segments + 1 := by
  cases slash with
  | true => exact ⟨segments, by simp, all, by omega⟩
  | false =>
    have empty : weight [[]] = 1 := rfl
    refine ⟨segments ++ [[]], by simp [encode], fun one member => ?_, by rw [weight_append, empty]⟩
    rcases List.mem_append.mp member with before | last
    · exact all one before
    · exact List.mem_singleton.mp last ▸ typed_nil

theorem endSegment_typed {segments : List (List Char)} {segment : List Char} (all : ∀ one ∈ segments, Typed one)
    (inside : ∀ char ∈ segment, inHost char = true) (slash : Bool) : ∃ result,
      endSegment (segments.map encode) (encode segment) slash = result.map encode ∧ (∀ one ∈ result, Typed one) ∧
        weight result ≤ weight segments + (utf8 segment).length + 1 := by
  rw [endSegment]
  split
  next =>
    have before : ∀ one ∈ segments.dropLast, Typed one :=
      fun one member => all one ((List.dropLast_subset segments) member)
    obtain ⟨result, same, typed, light⟩ := last_typed before slash
    have shorter := weight_dropLast segments
    exact ⟨result, by rw [← List.map_dropLast, same], typed, by omega⟩
  next doubleDot =>
    split
    next =>
      obtain ⟨result, same, typed, light⟩ := last_typed all slash
      exact ⟨result, same, typed, by omega⟩
    next singleDot =>
      refine ⟨segments ++ [segment], by simp, fun one member => ?_, ?_⟩
      · rcases List.mem_append.mp member with before | last
        · exact all one before
        · obtain rfl := List.mem_singleton.mp last
          exact ⟨inside, by simpa using singleDot, by simpa using doubleDot⟩
      · rw [weight_append]
        simp [weight]
        omega

theorem pathState_typed {segments : List (List Char)} {segment : List Char} (all : ∀ one ∈ segments, Typed one)
    (inside : ∀ char ∈ segment, inHost char = true) (text : List Char) : ∃ result,
      pathState (segments.map encode) (encode segment) text = result.map encode ∧ (∀ one ∈ result, Typed one) ∧
        weight result ≤ weight segments + (utf8 segment).length + (utf8 text).length + 1 := by
  induction text generalizing segments segment with
  | nil => exact endSegment_typed all inside false
  | cons char rest ih =>
    have positive := length_utf8_pos char
    rw [pathState, utf8_cons, List.length_append]
    by_cases slash : isSlash char = true
    next =>
      rw [if_pos slash]
      obtain ⟨next, ended, typed, light⟩ := endSegment_typed all inside true
      have nothing : ∀ char ∈ ([] : List Char), inHost char = true := by simp
      obtain ⟨result, final, known, weighed⟩ := ih typed nothing
      refine ⟨result, by rw [ended]; exact final, known, ?_⟩
      have none : (utf8 []).length = 0 := rfl
      omega
    next =>
      rw [if_neg slash]
      by_cases ends : endsPath char = true
      next =>
        rw [if_pos ends]
        obtain ⟨result, ended, typed, light⟩ := endSegment_typed all inside false
        exact ⟨result, ended, typed, by omega⟩
      next =>
        rw [if_neg ends]
        have further : ∀ other ∈ segment ++ [char], inHost other = true := by
          intro other member
          rcases List.mem_append.mp member with before | last
          · exact inside other before
          · obtain rfl := List.mem_singleton.mp last
            simp [inHost, slash, ends]
        obtain ⟨result, final, known, weighed⟩ := ih all further
        have single : encode [char] = percentEncode char := List.append_nil _
        rw [encode_append, single] at final
        refine ⟨result, final, known, ?_⟩
        rw [utf8_append, List.length_append, utf8_cons, List.length_append] at weighed
        have none : (utf8 []).length = 0 := rfl
        omega

theorem encode_slash {segment : List Char} (inside : ∀ char ∈ segment, inHost char = true) : '/' ∉ encode segment := by
  intro member
  obtain ⟨char, typed, escaped⟩ := List.mem_flatMap.mp member
  rw [percentEncode] at escaped
  split at escaped
  next =>
    obtain ⟨byte, -, digit⟩ := List.mem_flatMap.mp escaped
    have digits : ∀ letter ∈ hex.letters, letter.toUpper ≠ '/' := forall_mem_of_all (by decide)
    rw [percentEncodeByte, List.mem_cons] at digit
    rcases digit with percent | digit
    · exact absurd percent (by decide)
    · obtain ⟨letter, spelled, same⟩ := List.mem_map.mp digit
      obtain ⟨word, -, rfl⟩ := List.mem_map.mp spelled
      exact digits _ (hex.letter_mem word) same
  next =>
    obtain rfl := List.mem_singleton.mp escaped
    exact absurd (inside '/' typed) (by decide)

theorem Url.splitOn_pathname (url : Url) (plain : ∀ segment ∈ url.path, '/' ∉ segment) :
    url.pathname.splitOn '/' = [] :: url.path := by
  have joined : ∀ path : List (List Char), path.flatMap ('/' :: ·) = ['/'].intercalate ([] :: path) := by
    intro path
    induction path with
    | nil => rfl
    | cons segment rest ih =>
      rw [List.flatMap_cons, ih]
      cases rest with
      | nil => simp
      | cons other rest => simp [List.intercalate_cons_of_ne_nil]
  rw [Url.pathname, joined, List.splitOn_intercalate '/' _ (by simp)]
  intro segment member
  rcases List.mem_cons.mp member with rfl | inside
  · simp
  · exact plain segment inside

end Urls
