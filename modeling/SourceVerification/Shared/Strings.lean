import Mathlib.Data.List.DropRight

set_option autoImplicit false

namespace Strings

-- `WhiteSpace` and `LineTerminator`.
def isWhiteSpace (char : Char) : Bool :=
  (9 ≤ char.toNat && char.toNat ≤ 13) || (0x2000 ≤ char.toNat && char.toNat ≤ 0x200A) ||
    [0x20, 0xA0, 0x1680, 0x2028, 0x2029, 0x202F, 0x205F, 0x3000, 0xFEFF].contains char.toNat

def isLineTerminator (char : Char) : Bool :=
  [0x0A, 0x0D, 0x2028, 0x2029].contains char.toNat

def trim (text : List Char) : List Char :=
  (text.dropWhile isWhiteSpace).rdropWhile isWhiteSpace

/-- Nothing but white space. -/
def Blank (text : List Char) : Prop :=
  ∀ char ∈ text, isWhiteSpace char = true

instance (text : List Char) : Decidable (Blank text) :=
  decidable_of_iff (text.all isWhiteSpace = true) List.all_eq_true

section

variable {drop : Char → Bool}

theorem rdropWhile_append_of_pos (text : List Char) {after : List Char} (all : ∀ char ∈ after, drop char = true) :
    (text ++ after).rdropWhile drop = text.rdropWhile drop := by
  have passed : ∀ char ∈ after.reverse, drop char = true :=
    fun char member => all char (List.mem_reverse.mp member)
  rw [List.rdropWhile, List.reverse_append, List.dropWhile_append_of_pos passed, List.rdropWhile]

theorem rdropWhile_append_of_neg {text : List Char} (kept : ∀ char ∈ text, drop char = false) (rest : List Char) :
    (text ++ rest).rdropWhile drop = text ++ rest.rdropWhile drop := by
  have whole : text.rdropWhile drop = text := by
    refine List.rdropWhile_eq_self_iff.mpr fun present => ?_
    simp [kept _ (List.getLast_mem present)]
  induction rest using List.reverseRecOn with
  | nil => simp [whole]
  | append_singleton rest char ih =>
    rw [← List.append_assoc, List.rdropWhile_concat, List.rdropWhile_concat]
    split
    next => exact ih
    next => rw [List.append_assoc]

end

theorem trim_around {before after : List Char} (text : List Char) (left : Blank before) (right : Blank after) :
    trim (before ++ text ++ after) = trim text := by
  rw [List.append_assoc, trim, List.dropWhile_append_of_pos left]
  by_cases blank : Blank text
  next =>
    have all : Blank (text ++ after) :=
      fun char member => (List.mem_append.mp member).elim (blank char) (right char)
    rw [List.dropWhile_eq_nil_iff.mpr all, trim, List.dropWhile_eq_nil_iff.mpr blank]
  next =>
    have kept : (text ++ after).dropWhile isWhiteSpace = text.dropWhile isWhiteSpace ++ after := by
      rw [List.dropWhile_append, if_neg]
      simpa [Blank] using blank
    rw [kept, rdropWhile_append_of_pos _ right, trim]

theorem exists_around (text : List Char) :
    ∃ before after, text = before ++ trim text ++ after ∧ Blank before ∧ Blank after := by
  refine ⟨text.takeWhile isWhiteSpace, (text.dropWhile isWhiteSpace).rtakeWhile isWhiteSpace, ?_,
    fun char member => List.mem_takeWhile_imp member, fun char member => ?_⟩
  · rw [List.append_assoc, trim, List.rdropWhile_append_rtakeWhile, List.takeWhile_append_dropWhile]
  · exact List.mem_rtakeWhile_imp member

theorem trim_trim (text : List Char) : trim (trim text) = trim text := by
  obtain ⟨before, after, same, left, right⟩ := exists_around text
  conv_rhs => rw [same, trim_around _ left right]

theorem trim_append {text : List Char} (nonempty : text ≠ []) (solid : ∀ char ∈ text, isWhiteSpace char = false)
    (rest : List Char) : trim (text ++ rest) = text ++ rest.rdropWhile isWhiteSpace := by
  have start : (text ++ rest).dropWhile isWhiteSpace = text ++ rest := by
    obtain ⟨char, others, rfl⟩ := List.exists_cons_of_ne_nil nonempty
    have first := solid char (List.mem_cons_self ..)
    rw [List.cons_append, List.dropWhile_cons_of_neg (by simp [first])]
  rw [trim, start, rdropWhile_append_of_neg solid]

theorem trim_eq_self {text : List Char} (solid : ∀ char ∈ text, isWhiteSpace char = false) : trim text = text := by
  by_cases empty : text = []
  next =>
    subst empty
    rfl
  next => simpa using trim_append empty solid []

end Strings
