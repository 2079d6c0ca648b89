import SourceVerification.Shared.Urls

set_option autoImplicit false

namespace Urls

open Alphabet

-- Its letters and digits, and `-_.!~*'()`.
def unreserved (char : Char) : Bool :=
  char.isAlphanum || "-_.!~*()".toList.contains char || char.toNat = 0x27

def escapeComponent (char : Char) : List Char :=
  if unreserved char then [char] else (String.utf8EncodeChar char).flatMap percentEncodeByte

def encodeURIComponent (text : List Char) : List Char :=
  text.flatMap escapeComponent

def isDots (text : List Char) : Prop :=
  text = ".".toList ∨ text = "..".toList

instance (text : List Char) : Decidable (isDots text) :=
  inferInstanceAs (Decidable (_ ∨ _))

structure Plain (char : Char) : Prop where
  kept : pathSet char = false
  inside : inHost char = true
  visible : isTabOrNewline char = false
  printable : isControlOrSpace char = false

theorem unreserved_toNat {char : Char} (free : unreserved char = true) : char.toNat < 127 := by
  have others : ∀ char ∈ "-_.!~*()".toList, char.toNat < 127 := forall_mem_of_all (by decide)
  simp only [unreserved, Bool.or_eq_true, decide_eq_true_eq] at free
  rcases free with (letter | other) | quote
  · delta Char.isAlphanum Char.isAlpha Char.isUpper Char.isLower Char.isDigit at letter
    simp only [Bool.or_eq_true, Bool.and_eq_true, decide_eq_true_eq, ge_iff_le, UInt32.le_iff_toNat_le] at letter
    have code : char.val.toNat = char.toNat := rfl
    rw [code] at letter
    rcases letter with (⟨_, upper⟩ | ⟨_, lower⟩) | ⟨_, digit⟩
    · exact lt_of_le_of_lt upper (by decide)
    · exact lt_of_le_of_lt lower (by decide)
    · exact lt_of_le_of_lt digit (by decide)
  · exact others char (List.contains_iff_mem.mp other)
  · omega

theorem plain_of_unreserved {char : Char} (free : unreserved char = true) : Plain char ∧ char ≠ '%' := by
  have all : ∀ char : Char, char.toNat < 127 → unreserved char = true →
      (pathSet char = false ∧ inHost char = true ∧ isTabOrNewline char = false ∧
        isControlOrSpace char = false) ∧ char ≠ '%' := forall_ascii_of_all (by decide +kernel)
  obtain ⟨⟨kept, inside, visible, printable⟩, other⟩ := all char (unreserved_toNat free) free
  exact ⟨⟨kept, inside, visible, printable⟩, other⟩

theorem plain_percent : Plain '%' where
  kept := by decide
  inside := by decide
  visible := by decide
  printable := by decide

theorem plain_encodeURIComponent {text : List Char} : ∀ char ∈ encodeURIComponent text, Plain char := by
  have digits : ∀ letter ∈ hex.letters, unreserved letter.toUpper = true := forall_mem_of_all (by decide)
  intro char member
  obtain ⟨typed, -, escaped⟩ := List.mem_flatMap.mp member
  rw [escapeComponent] at escaped
  split at escaped
  next free =>
    obtain rfl := List.mem_singleton.mp escaped
    exact (plain_of_unreserved free).1
  next =>
    obtain ⟨byte, -, digit⟩ := List.mem_flatMap.mp escaped
    rw [percentEncodeByte, List.mem_cons] at digit
    rcases digit with rfl | digit
    · exact plain_percent
    · obtain ⟨letter, spelled, rfl⟩ := List.mem_map.mp digit
      obtain ⟨word, -, rfl⟩ := List.mem_map.mp spelled
      exact (plain_of_unreserved (digits _ (hex.letter_mem word))).1

theorem encode_encodeURIComponent (text : List Char) : encode (encodeURIComponent text) = encodeURIComponent text :=
  encode_eq_self fun char member => (plain_encodeURIComponent char member).kept

theorem percentDecode_encodeURIComponent (text : List Char) :
    percentDecode (encodeURIComponent text) = some (utf8 text) := by
  induction text with
  | nil => rfl
  | cons char rest ih =>
    rw [encodeURIComponent, List.flatMap_cons, escapeComponent]
    rw [encodeURIComponent] at ih
    split
    next free =>
      rw [List.singleton_append, percentDecode_of_ne (plain_of_unreserved free).2, ih]
      rfl
    next =>
      rw [percentDecode_bytes, ih]
      rfl

theorem decodeURIComponent_encodeURIComponent (text : List Char) :
    decodeURIComponent (encodeURIComponent text) = some text := by
  have decoded : (utf8 text).toByteArray.utf8Decode? = some text.toArray := List.utf8Decode?_utf8Encode
  rw [decodeURIComponent, percentDecode_encodeURIComponent, Option.bind_some, decoded]
  rfl

theorem encodeURIComponent_eq_nil_iff {text : List Char} : encodeURIComponent text = [] ↔ text = [] := by
  constructor
  · intro empty
    have read := decodeURIComponent_encodeURIComponent text
    rw [empty] at read
    exact (Option.some.inj read).symm
  · rintro rfl
    rfl

theorem encodeURIComponent_of_unreserved {text : List Char}
    (free : ∀ char ∈ text, unreserved char = true) : encodeURIComponent text = text := by
  have each : ∀ char ∈ text, escapeComponent char = [char] := fun char member => if_pos (free char member)
  rw [encodeURIComponent, List.flatMap_congr each]
  exact List.flatMap_singleton' text

theorem typed_encodeURIComponent {text : List Char} (plain : ¬ isDots text) :
    Typed (encodeURIComponent text) where
  inside char member := (plain_encodeURIComponent char member).inside
  not_singleDot := by
    rw [encode_encodeURIComponent, Bool.eq_false_iff]
    intro dot
    have read := (decodeURIComponent_encodeURIComponent text).symm.trans (decode_dots.1 dot)
    exact plain (.inl (Option.some.inj read))
  not_doubleDot := by
    rw [encode_encodeURIComponent, Bool.eq_false_iff]
    intro dots
    have read := (decodeURIComponent_encodeURIComponent text).symm.trans (decode_dots.2 dots)
    exact plain (.inr (Option.some.inj read))

theorem mem_endSegment {path : List (List Char)} {segment one : List Char} {slash : Bool}
    (member : one ∈ endSegment path segment slash) : one ∈ path ∨ one = [] ∨ one = segment := by
  rw [endSegment] at member
  split at member
  next =>
    rcases List.mem_append.mp member with before | last
    · exact .inl (List.dropLast_subset path before)
    · exact .inr (.inl (by cases slash <;> simp_all))
  next =>
    split at member
    next =>
      rcases List.mem_append.mp member with before | last
      · exact .inl before
      · exact .inr (.inl (by cases slash <;> simp_all))
    next =>
      rcases List.mem_append.mp member with before | last
      · exact .inl before
      · exact .inr (.inr (List.mem_singleton.mp last))

theorem endSegment_component (path : List (List Char)) (text : List Char) (slash : Bool) :
    endSegment path (encodeURIComponent text) slash =
      if text = "..".toList then path.dropLast ++ (if slash then [] else [[]])
      else if text = ".".toList then path ++ (if slash then [] else [[]])
      else path ++ [encodeURIComponent text] := by
  by_cases double : text = "..".toList
  next =>
    subst double
    rfl
  next =>
    by_cases single : text = ".".toList
    next =>
      subst single
      rfl
    next =>
      have typed : Typed (encodeURIComponent text) :=
        typed_encodeURIComponent fun dots => dots.elim single double
      have ended := endSegment_typed_eq typed path slash
      rw [encode_encodeURIComponent] at ended
      rw [ended, if_neg double, if_neg single]

theorem pathState_component (path : List (List Char)) (text rest : List Char) :
    pathState path [] (encodeURIComponent text ++ '/' :: rest) =
      pathState (endSegment path (encodeURIComponent text) true) [] rest := by
  have slash : isSlash '/' = true := rfl
  rw [pathState_append fun char member => (plain_encodeURIComponent char member).inside, List.nil_append,
    encode_encodeURIComponent, pathState, if_pos slash]

theorem pathState_component_last (path : List (List Char)) (text : List Char) :
    pathState path [] (encodeURIComponent text) = endSegment path (encodeURIComponent text) false := by
  have inside : ∀ char ∈ encodeURIComponent text, inHost char = true :=
    fun char member => (plain_encodeURIComponent char member).inside
  have read := pathState_append inside path [] []
  rw [List.append_nil, List.nil_append, encode_encodeURIComponent] at read
  rw [read, pathState]

end Urls
