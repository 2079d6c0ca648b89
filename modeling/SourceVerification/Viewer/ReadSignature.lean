import Mathlib.Data.List.DropRight
import SourceVerification.Viewer.MaskSource

set_option autoImplicit false

namespace SourceVerification.Viewer

def parenOpen : UInt16 := 0x28
def parenClose : UInt16 := 0x29
def comma : UInt16 := 0x2C
def dash : UInt16 := 0x2D
def semicolon : UInt16 := 0x3B
def less : UInt16 := 0x3C
def greater : UInt16 := 0x3E
def squareOpen : UInt16 := 0x5B
def squareClose : UInt16 := 0x5D
def braceOpen : UInt16 := 0x7B

-- `.replace(/\s+/g, " ")`, inside a run or not.
def collapse (inside : Bool) : Text → Text
  | [] => []
  | unit :: rest =>
    if isSpace unit then if inside then collapse true rest else space :: collapse true rest
    else unit :: collapse false rest

-- `.replace(/\(\s+/g, "(")`, behind a parenthesis or not.
def dropAfterOpen (behind : Bool) : Text → Text
  | [] => []
  | unit :: rest =>
    if behind && isSpace unit then dropAfterOpen true rest
    else unit :: dropAfterOpen (unit = parenOpen) rest

def closesNext (text : Text) : Bool :=
  (text.dropWhile isSpace).head? = some parenClose

def dropWhereCloses (drops : UInt16 → Bool) : Text → Text
  | [] => []
  | unit :: rest =>
    if drops unit && closesNext rest then dropWhereCloses drops rest else unit :: dropWhereCloses drops rest

-- `.replace(/,?\s*\)/g, ")")`
def dropBeforeClose : Text → Text :=
  dropWhereCloses fun unit => unit = comma || isSpace unit

def trim (text : Text) : Text :=
  (text.dropWhile isSpace).rdropWhile isSpace

def oneLine (text : Text) : Text :=
  trim (dropBeforeClose (dropAfterOpen false (collapse false text)))

def signatureEnd (masked : Text) (depth : Int) (index : Nat) : Option Nat :=
  if inside : index < masked.length then
    if masked[index] = parenOpen ∨ masked[index] = squareOpen ∨ masked[index] = less then
      signatureEnd masked (depth + 1) (index + 1)
    else if masked[index] = parenClose ∨ masked[index] = squareClose then
      signatureEnd masked (depth - 1) (index + 1)
    else if masked[index] = greater ∧ masked[index - 1]? ≠ some dash then
      signatureEnd masked (depth - 1) (index + 1)
    else if depth = 0 ∧ (masked[index] = semicolon ∨ masked[index] = braceOpen) then some index
    else signatureEnd masked depth (index + 1)
  else none
termination_by masked.length - index

def readSignature (masked : Text) (start : Nat) : Option Text :=
  (signatureEnd masked 0 start).map fun index => oneLine (slice masked start index) ++ [semicolon]

def isDelimiter (unit : UInt16) : Bool :=
  unit = parenOpen || unit = parenClose || unit = comma || unit = semicolon

def flush (current : Text) : List Text :=
  if current = [] then [] else [current]

def tokensFrom (current : Text) : Text → List Text
  | [] => flush current
  | unit :: rest =>
    if isSpace unit then flush current ++ tokensFrom [] rest
    else if isDelimiter unit then flush current ++ [unit] :: tokensFrom [] rest
    else tokensFrom (current ++ [unit]) rest

def tokens (text : Text) : List Text :=
  tokensFrom [] text

def dropCommas : List Text → List Text
  | [] => []
  | token :: rest =>
    if token = [comma] ∧ rest.head? = some [parenClose] then dropCommas rest else token :: dropCommas rest

@[simp] theorem flush_nil : flush [] = [] := rfl

theorem tokensFrom_space {unit : UInt16} (blanks : isSpace unit = true) (current rest : Text) :
    tokensFrom current (unit :: rest) = flush current ++ tokensFrom [] rest := by
  rw [tokensFrom, if_pos blanks]

theorem tokensFrom_delimiter {unit : UInt16} (solid : isSpace unit = false) (delimits : isDelimiter unit = true)
    (current rest : Text) :
    tokensFrom current (unit :: rest) = flush current ++ [unit] :: tokensFrom [] rest := by
  rw [tokensFrom, solid, delimits]
  rfl

theorem tokensFrom_other {unit : UInt16} (solid : isSpace unit = false) (other : isDelimiter unit = false)
    (current rest : Text) : tokensFrom current (unit :: rest) = tokensFrom (current ++ [unit]) rest := by
  rw [tokensFrom, solid, other]
  rfl

theorem tokensFrom_collapse (text current : Text) {inside : Bool} (done : inside = true → current = []) :
    tokensFrom current (collapse inside text) = tokensFrom current text := by
  induction text generalizing current inside with
  | nil => rfl
  | cons unit rest ih =>
    by_cases blanks : isSpace unit = true
    next =>
      have later : tokensFrom [] (collapse true rest) = tokensFrom [] rest := ih [] fun _ => rfl
      rw [collapse, if_pos blanks, tokensFrom_space blanks]
      split
      next again => rw [done again, later, flush_nil, List.nil_append]
      next => rw [tokensFrom_space (by decide), later]
    next =>
      have later (current : Text) : tokensFrom current (collapse false rest) = tokensFrom current rest :=
        ih current (by simp)
      rw [collapse, if_neg blanks]
      simp only [tokensFrom, later]

theorem tokensFrom_dropAfterOpen (text current : Text) {behind : Bool} (done : behind = true → current = []) :
    tokensFrom current (dropAfterOpen behind text) = tokensFrom current text := by
  induction text generalizing current behind with
  | nil => rfl
  | cons unit rest ih =>
    rw [dropAfterOpen]
    split
    next dropped =>
      rw [Bool.and_eq_true] at dropped
      have later : tokensFrom [] (dropAfterOpen true rest) = tokensFrom [] rest := ih [] fun _ => rfl
      rw [done dropped.1, later, tokensFrom_space dropped.2, flush_nil, List.nil_append]
    next =>
      have apart : tokensFrom [] (dropAfterOpen (unit = parenOpen) rest) = tokensFrom [] rest := ih [] fun _ => rfl
      by_cases blanks : isSpace unit = true
      next => rw [tokensFrom_space blanks, tokensFrom_space blanks, apart]
      next =>
        have solid : isSpace unit = false := by simpa using blanks
        by_cases delimits : isDelimiter unit = true
        next => rw [tokensFrom_delimiter solid delimits, tokensFrom_delimiter solid delimits, apart]
        next =>
          have other : isDelimiter unit = false := by simpa using delimits
          rw [tokensFrom_other solid other, tokensFrom_other solid other]
          refine ih _ fun opens => absurd other ?_
          rw [of_decide_eq_true opens]
          decide

theorem tokensFrom_head (text : Text) {current : Text} (filled : current ≠ []) :
    ∃ more rest, tokensFrom current text = (current ++ more) :: rest := by
  induction text generalizing current with
  | nil => exact ⟨[], [], by simp [tokensFrom, flush, filled]⟩
  | cons unit rest ih =>
    rw [tokensFrom]
    split
    next => exact ⟨[], tokensFrom [] rest, by simp [flush, filled]⟩
    next =>
      split
      next => exact ⟨[], [unit] :: tokensFrom [] rest, by simp [flush, filled]⟩
      next =>
        have longer : current ++ [unit] ≠ [] := by simp
        obtain ⟨more, others, same⟩ := ih longer
        exact ⟨unit :: more, others, by simp [same]⟩

theorem closesNext_cons {unit : UInt16} (rest : Text) :
    closesNext (unit :: rest) = if isSpace unit then closesNext rest else decide (unit = parenClose) := by
  by_cases blanks : isSpace unit = true
  next => simp [closesNext, blanks]
  next => simp [closesNext, blanks]

theorem closesNext_iff (text : Text) : closesNext text = true ↔ (tokens text).head? = some [parenClose] := by
  induction text with
  | nil => simp [closesNext, tokens, tokensFrom]
  | cons unit rest ih =>
    rw [closesNext_cons]
    by_cases blanks : isSpace unit = true
    next => rw [if_pos blanks, ih, tokens, tokens, tokensFrom_space blanks, flush_nil, List.nil_append]
    next =>
      have solid : isSpace unit = false := by simpa using blanks
      rw [if_neg blanks, tokens]
      by_cases delimits : isDelimiter unit = true
      next => simp [tokensFrom_delimiter solid delimits]
      next =>
        have other : isDelimiter unit = false := by simpa using delimits
        have apart : unit ≠ parenClose := by
          rintro rfl
          exact absurd other (by decide)
        obtain ⟨more, others, same⟩ := tokensFrom_head rest (List.cons_ne_nil unit [])
        rw [tokensFrom_other solid other, List.nil_append, same]
        simp [apart]

theorem tokensFrom_closes {drops : UInt16 → Bool} (kept : drops parenClose = false) {text : Text}
    (closes : closesNext text = true) (current : Text) :
    tokensFrom current (dropWhereCloses drops text) = flush current ++ tokensFrom [] (dropWhereCloses drops text) := by
  induction text with
  | nil => simp [closesNext] at closes
  | cons unit rest ih =>
    rw [closesNext_cons] at closes
    rw [dropWhereCloses]
    by_cases blanks : isSpace unit = true
    next =>
      rw [if_pos blanks] at closes
      split
      next => exact ih closes
      next => rw [tokensFrom_space blanks, tokensFrom_space blanks, flush_nil, List.nil_append]
    next =>
      rw [if_neg blanks] at closes
      obtain rfl := of_decide_eq_true closes
      rw [kept, Bool.false_and, if_neg Bool.false_ne_true, tokensFrom_delimiter (by decide) (by decide),
        tokensFrom_delimiter (by decide) (by decide), flush_nil, List.nil_append]

theorem dropCommas_flush {current : Text} (other : comma ∉ current) (rest : List Text) :
    dropCommas (flush current ++ rest) = flush current ++ dropCommas rest := by
  unfold flush
  split
  next => rfl
  next =>
    have apart : current ≠ [comma] := fun same => other (by simp [same])
    simp [dropCommas, apart]

theorem tokensFrom_dropWhereCloses_comma {drops : UInt16 → Bool} (commas : drops comma = true)
    (kept : drops parenClose = false) (current : Text) {rest : Text}
    (apart : tokensFrom [] (dropWhereCloses drops rest) = dropCommas (tokensFrom [] rest)) :
    tokensFrom current (dropWhereCloses drops (comma :: rest)) =
      flush current ++ dropCommas ([comma] :: tokensFrom [] rest) := by
  rw [dropWhereCloses, commas, Bool.true_and]
  split
  next closes =>
    have head := (closesNext_iff rest).mp closes
    rw [tokensFrom_closes kept closes, apart, dropCommas, if_pos ⟨rfl, head⟩]
  next stays =>
    have head := mt (closesNext_iff rest).mpr stays
    rw [tokensFrom_delimiter (by decide) (by decide), apart, dropCommas, if_neg fun both => head both.2]

theorem tokensFrom_dropWhereCloses {drops : UInt16 → Bool} (commas : drops comma = true)
    (others : ∀ unit, drops unit = true → unit = comma ∨ isSpace unit = true) (text : Text) {current : Text}
    (none : comma ∉ current) :
    tokensFrom current (dropWhereCloses drops text) = dropCommas (tokensFrom current text) := by
  have kept : drops parenClose = false := by
    by_contra dropped
    rcases others parenClose (by simpa using dropped) with same | blanks
    next => exact absurd same (by decide)
    next => exact absurd blanks (by decide)
  induction text generalizing current with
  | nil =>
    have flushed := dropCommas_flush none []
    rw [List.append_nil] at flushed
    rw [dropWhereCloses, tokensFrom, flushed, dropCommas, List.append_nil]
  | cons unit rest ih =>
    have apart : tokensFrom [] (dropWhereCloses drops rest) = dropCommas (tokensFrom [] rest) := ih (by simp)
    rw [dropWhereCloses]
    by_cases blanks : isSpace unit = true
    next =>
      rw [tokensFrom_space blanks, dropCommas_flush none]
      split
      next dropped =>
        rw [Bool.and_eq_true] at dropped
        rw [tokensFrom_closes kept dropped.2, apart]
      next => rw [tokensFrom_space blanks, apart]
    next =>
      have solid : isSpace unit = false := by simpa using blanks
      have stays (other : unit ≠ comma) : drops unit = false := by
        by_contra dropped
        rcases others unit (by simpa using dropped) with same | blank
        next => exact other same
        next => exact blanks blank
      by_cases delimits : isDelimiter unit = true
      next =>
        rw [tokensFrom_delimiter solid delimits, dropCommas_flush none]
        by_cases same : unit = comma
        next =>
          have dropped := tokensFrom_dropWhereCloses_comma commas kept current apart
          rw [dropWhereCloses] at dropped
          rw [same, dropped]
        next =>
          have other : [unit] ≠ [comma] := fun equal => same (List.cons.inj equal).1
          rw [stays same, Bool.false_and, if_neg Bool.false_ne_true, tokensFrom_delimiter solid delimits, apart,
            dropCommas, if_neg fun both => other both.1]
      next =>
        have other : isDelimiter unit = false := by simpa using delimits
        have different : unit ≠ comma := by
          rintro rfl
          exact absurd other (by decide)
        rw [stays different, Bool.false_and, if_neg Bool.false_ne_true, tokensFrom_other solid other,
          tokensFrom_other solid other]
        exact ih (by simp [none, Ne.symm different])

theorem tokens_dropWhile (text : Text) : tokens (text.dropWhile isSpace) = tokens text := by
  induction text with
  | nil => rfl
  | cons unit rest ih =>
    by_cases blanks : isSpace unit = true
    next => rw [List.dropWhile_cons_of_pos blanks, ih, tokens, tokens, tokensFrom_space blanks, flush_nil, List.nil_append]
    next => rw [List.dropWhile_cons_of_neg blanks]

theorem tokensFrom_append_space (text current : Text) {unit : UInt16} (blanks : isSpace unit = true) :
    tokensFrom current (text ++ [unit]) = tokensFrom current text := by
  induction text generalizing current with
  | nil => simp [tokensFrom, blanks]
  | cons first rest ih => simp only [List.cons_append, tokensFrom, ih]

theorem tokens_rdropWhile (text : Text) : tokens (text.rdropWhile isSpace) = tokens text := by
  induction text using List.reverseRecOn with
  | nil => rfl
  | append_singleton text unit ih =>
    rw [List.rdropWhile_concat]
    split
    next blanks => rw [ih, tokens, tokens, tokensFrom_append_space text [] blanks]
    next => rfl

theorem tokens_oneLine (text : Text) : tokens (oneLine text) = dropCommas (tokens text) := by
  rw [oneLine, trim, tokens_rdropWhile, tokens_dropWhile, dropBeforeClose, tokens,
    tokensFrom_dropWhereCloses rfl (by simp) _ (by simp), tokensFrom_dropAfterOpen _ _ (by simp),
    tokensFrom_collapse _ _ (by simp), tokens]

theorem tokensFrom_append_delimiter (text current : Text) {unit : UInt16} (solid : isSpace unit = false)
    (delimits : isDelimiter unit = true) :
    tokensFrom current (text ++ [unit]) = tokensFrom current text ++ [[unit]] := by
  induction text generalizing current with
  | nil => simp [tokensFrom, solid, delimits]
  | cons first rest ih =>
    simp only [List.cons_append, tokensFrom, ih]
    split
    next => rw [List.append_assoc]
    next =>
      split
      next => rw [List.append_assoc, List.cons_append]
      next => rfl

theorem flatten_tokensFrom (text current : Text) :
    (tokensFrom current text).flatten = current ++ text.filter fun unit => !isSpace unit := by
  have flushed (current : Text) : (flush current).flatten = current := by
    unfold flush
    split
    next empty => simp [empty]
    next => simp
  induction text generalizing current with
  | nil => simp [tokensFrom, flushed]
  | cons unit rest ih =>
    by_cases blanks : isSpace unit = true
    next => simp [tokensFrom, blanks, flushed, ih]
    next =>
      rw [tokensFrom, if_neg blanks]
      split <;> simp [flushed, ih, blanks]

theorem count_tokens (text : Text) : (tokens text).flatten.count comma = text.count comma := by
  rw [tokens, flatten_tokensFrom, List.nil_append, List.count_filter (by decide)]

end SourceVerification.Viewer
