import SourceVerification.Shared.Scanning

set_option autoImplicit false

namespace SourceVerification.Viewer

open Scanning

abbrev Text := List UInt16

def newline : UInt16 := 0x0A
def space : UInt16 := 0x20
def quote : UInt16 := 0x22
def star : UInt16 := 0x2A
def slash : UInt16 := 0x2F
def backslash : UInt16 := 0x5C

-- `\w`
def isWord (unit : UInt16) : Bool :=
  (0x30 ≤ unit && unit ≤ 0x39) || (0x41 ≤ unit && unit ≤ 0x5A) || unit = 0x5F || (0x61 ≤ unit && unit ≤ 0x7A)

-- `\s`
def isSpace (unit : UInt16) : Bool :=
  (0x09 ≤ unit && unit ≤ 0x0D) || (0x2000 ≤ unit && unit ≤ 0x200A) ||
    [0x20, 0xA0, 0x1680, 0x2028, 0x2029, 0x202F, 0x205F, 0x3000, 0xFEFF].contains unit

def slice (text : Text) (start stop : Nat) : Text :=
  (text.take stop).drop start

def indexOf (text wanted : Text) (start : Nat) : Option Nat :=
  (List.range' start (text.length + 1 - start)).find? fun index => wanted.isPrefixOf (text.drop index)

def blankUnit (unit : UInt16) : UInt16 :=
  if unit = newline then newline else space

-- `.replace(/[^\n]/g, " ")`
def blank (text : Text) : Text :=
  text.map blankUnit

def stride (unit : UInt16) : Nat :=
  if unit = backslash then 2 else 1

theorem stride_pos (unit : UInt16) : 0 < stride unit := by
  unfold stride
  split <;> decide

def closingQuote (source : Text) (index : Nat) : Nat :=
  if inside : index < source.length then
    if source[index] = quote then index
    else closingQuote source (index + stride source[index])
  else index
termination_by source.length - index
decreasing_by
  have forward := stride_pos source[index]
  omega

def blankedEnd (source : Text) (index : Nat) : Option Nat :=
  let rest := slice source index (index + 2)
  if rest = [slash, slash] then
    some ((indexOf source [newline] index).getD source.length)
  else if rest = [slash, star] then
    some (((indexOf source [star, slash] (index + 2)).map (· + 2)).getD source.length)
  else if source[index]? = some quote then
    some (min (closingQuote source (index + 1) + 1) source.length)
  else none

theorem indexOf_of_prefix {text wanted : Text} {start : Nat} (inside : start ≤ text.length)
    (here : wanted.isPrefixOf (text.drop start) = true) : indexOf text wanted start = some start := by
  have positive : text.length + 1 - start = text.length - start + 1 := by omega
  rw [indexOf, positive, List.range'_succ, List.find?_cons, here]

theorem indexOf_of_not_prefix {text wanted : Text} {start : Nat}
    (elsewhere : wanted.isPrefixOf (text.drop start) = false) :
    indexOf text wanted start = indexOf text wanted (start + 1) := by
  by_cases inside : start ≤ text.length
  next =>
    have positive : text.length + 1 - start = (text.length + 1 - (start + 1)) + 1 := by omega
    rw [indexOf, positive, List.range'_succ, List.find?_cons, elsewhere, indexOf]
  next =>
    have beyond : text.length + 1 - start = 0 := by omega
    have also : text.length + 1 - (start + 1) = 0 := by omega
    rw [indexOf, indexOf, beyond, also]
    rfl

theorem indexOf_bounds {text wanted : Text} {start index : Nat} (found : indexOf text wanted start = some index) :
    start ≤ index ∧ index ≤ text.length ∧ wanted <+: text.drop index := by
  rw [indexOf] at found
  have member := List.mem_of_find?_eq_some found
  rw [List.mem_range'_1] at member
  have starts : wanted.isPrefixOf (text.drop index) = true := by simpa using List.find?_some found
  exact ⟨member.1, by omega, List.isPrefixOf_iff_prefix.mp starts⟩

theorem slice_eq (text : Text) (start stop : Nat) : slice text start stop = (text.drop start).take (stop - start) := by
  rw [slice, List.drop_take]

theorem le_closingQuote (source : Text) (index : Nat) : index ≤ closingQuote source index := by
  fun_induction closingQuote source index with
  | case1 => exact Nat.le_refl _
  | case2 index inside other ih => exact Nat.le_trans (Nat.le_add_right _ _) ih
  | case3 => exact Nat.le_refl _

theorem blankedEnd_bounds {source : Text} {index stop : Nat} (inside : index < source.length)
    (stops : blankedEnd source index = some stop) : index < stop ∧ stop ≤ source.length := by
  have here : source.drop index = source[index] :: source.drop (index + 1) := List.drop_eq_getElem_cons inside
  simp only [blankedEnd, slice_eq] at stops
  split at stops
  next opens =>
    cases found : indexOf source [newline] index with
    | none =>
      simp only [found, Option.getD_none, Option.some.injEq] at stops
      omega
    | some newlineAt =>
      obtain ⟨after, within, starts⟩ := indexOf_bounds found
      have elsewhere : newlineAt ≠ index := by
        rintro rfl
        rw [here, Nat.add_sub_cancel_left, List.take_succ_cons, List.cons.injEq] at opens
        rw [here] at starts
        have also : newline = source[newlineAt] := (List.cons_prefix_cons.mp starts).1
        exact absurd (also.trans opens.1) (by decide)
      simp only [found, Option.getD_some, Option.some.injEq] at stops
      omega
  next =>
    split at stops
    next opens =>
      cases found : indexOf source [star, slash] (index + 2) with
      | none =>
        simp only [found, Option.map_none, Option.getD_none, Option.some.injEq] at stops
        omega
      | some close =>
        obtain ⟨after, within, starts⟩ := indexOf_bounds found
        have long := starts.length_le
        simp only [found, Option.map_some, Option.getD_some, Option.some.injEq, List.length_drop,
          List.length_cons, List.length_nil] at stops long
        omega
    next =>
      split at stops
      next =>
        have after := le_closingQuote source (index + 1)
        simp only [Option.some.injEq] at stops
        omega
      next => cases stops

def maskFrom (source masked : Text) (index : Nat) : Text :=
  if inside : index < source.length then
    match stops : blankedEnd source index with
    | some stop => maskFrom source (masked ++ blank (slice source index stop)) stop
    | none => maskFrom source (masked ++ [source[index]]) (index + 1)
  else masked
termination_by source.length - index
decreasing_by
  · have bounds := blankedEnd_bounds inside stops
    omega
  · omega

/-- Comments and string literals blanked out, so that indices still line up. -/
def maskSource (source : Text) : Text :=
  maskFrom source [] 0

inductive Mode
  | code
  | line
  | block
  | string
  | skip (after : Mode)
deriving DecidableEq

def maskUnit : Mode → UInt16 → Option UInt16 → UInt16 × Mode
  | .code, unit, next =>
    if unit = slash ∧ next = some slash then (space, .skip .line)
    else if unit = slash ∧ next = some star then (space, .skip .block)
    else if unit = quote then (space, .string)
    else (unit, .code)
  | .line, unit, _ => if unit = newline then (newline, .code) else (space, .line)
  | .block, unit, next =>
    if unit = star ∧ next = some slash then (space, .skip .code) else (blankUnit unit, .block)
  | .string, unit, _ =>
    if unit = quote then (space, .code)
    else if unit = backslash then (space, .skip .string)
    else (blankUnit unit, .string)
  | .skip after, unit, _ => (blankUnit unit, after)

def mask (mode : Mode) (text : Text) : Text :=
  output maskUnit mode text none

theorem mask_nil (mode : Mode) : mask mode [] = [] := rfl

theorem mask_cons (mode : Mode) (unit : UInt16) (rest : Text) :
    mask mode (unit :: rest) =
      (maskUnit mode unit rest.head?).1 :: mask (maskUnit mode unit rest.head?).2 rest := by
  simp [mask, output_cons]

def BlanksUpTo (source : Text) (mode : Mode) (index stop : Nat) : Prop :=
  mask mode (source.drop index) = blank ((source.drop index).take (stop - index)) ++ mask .code (source.drop stop)

theorem BlanksUpTo.here {source : Text} {mode : Mode} {index : Nat}
    (same : mask mode (source.drop index) = mask .code (source.drop index)) : BlanksUpTo source mode index index := by
  rw [BlanksUpTo, Nat.sub_self, List.take_zero]
  exact same

theorem exists_drop {source : Text} {index : Nat} (inside : index < source.length) :
    ∃ unit rest, source[index]? = some unit ∧ source.drop index = unit :: rest ∧ source.drop (index + 1) = rest :=
  ⟨source[index], _, List.getElem?_eq_getElem inside, List.drop_eq_getElem_cons inside, rfl⟩

theorem BlanksUpTo.after {source rest : Text} {mode : Mode} {index stop : Nat} {unit : UInt16}
    (here : source.drop index = unit :: rest) (next : source.drop (index + 1) = rest)
    (later : BlanksUpTo source (maskUnit mode unit rest.head?).2 (index + 1) stop)
    (masks : (maskUnit mode unit rest.head?).1 = blankUnit unit) (before : index < stop) :
    BlanksUpTo source mode index stop := by
  have longer : stop - index = stop - (index + 1) + 1 := by omega
  rw [BlanksUpTo, next] at later
  rw [BlanksUpTo, here, mask_cons, masks, longer, List.take_succ_cons, later]
  rfl

theorem BlanksUpTo.at_end {source : Text} (mode : Mode) {index stop : Nat} (from_end : source.length ≤ index)
    (to_end : source.length ≤ stop) : BlanksUpTo source mode index stop := by
  rw [BlanksUpTo, List.drop_of_length_le from_end, List.drop_of_length_le to_end]
  simp [mask_nil, blank]

theorem indexOf_getD_bounds (source wanted : Text) {index : Nat} (within : index ≤ source.length) :
    index ≤ (indexOf source wanted index).getD source.length ∧
      (indexOf source wanted index).getD source.length ≤ source.length := by
  cases found : indexOf source wanted index with
  | none => exact ⟨within, Nat.le_refl _⟩
  | some place =>
    obtain ⟨after, inside, -⟩ := indexOf_bounds found
    exact ⟨after, inside⟩

theorem blanks_line (source : Text) {index : Nat} (within : index ≤ source.length) :
    BlanksUpTo source .line index ((indexOf source [newline] index).getD source.length) := by
  induction remaining : source.length - index generalizing index with
  | zero =>
    have bounds := indexOf_getD_bounds source [newline] within
    exact .at_end .line (by omega) (by omega)
  | succ count ih =>
    have inside : index + 1 ≤ source.length := by omega
    obtain ⟨unit, rest, -, here, next⟩ := exists_drop inside
    by_cases ends : unit = newline
    next =>
      have found : indexOf source [newline] index = some index :=
        indexOf_of_prefix within (by simp [here, ends, List.isPrefixOf])
      rw [found, Option.getD_some]
      refine .here ?_
      rw [here, mask_cons, mask_cons, ends]
      rfl
    next =>
      have found : indexOf source [newline] index = indexOf source [newline] (index + 1) :=
        indexOf_of_not_prefix (by simp [here, List.isPrefixOf, Ne.symm ends])
      have later := ih inside (by omega)
      have bounds := indexOf_getD_bounds source [newline] inside
      rw [found]
      refine .after here next ?_ ?_ (by omega)
      next => simpa [maskUnit, ends] using later
      next => simp [maskUnit, blankUnit, ends]

def blockEnd (source : Text) (index : Nat) : Nat :=
  ((indexOf source [star, slash] index).map (· + 2)).getD source.length

theorem blockEnd_bounds (source : Text) {index : Nat} (within : index ≤ source.length) :
    index ≤ blockEnd source index ∧ blockEnd source index ≤ source.length := by
  rw [blockEnd]
  cases found : indexOf source [star, slash] index with
  | none => exact ⟨within, Nat.le_refl _⟩
  | some place =>
    obtain ⟨after, inside, starts⟩ := indexOf_bounds found
    have long := starts.length_le
    simp only [List.length_drop, List.length_cons, List.length_nil] at long
    simp only [Option.map_some, Option.getD_some]
    omega

theorem blanks_block (source : Text) {index : Nat} (within : index ≤ source.length) :
    BlanksUpTo source .block index (blockEnd source index) := by
  induction remaining : source.length - index generalizing index with
  | zero =>
    have bounds := blockEnd_bounds source within
    exact .at_end .block (by omega) (by omega)
  | succ count ih =>
    have inside : index + 1 ≤ source.length := by omega
    obtain ⟨unit, rest, -, here, next⟩ := exists_drop inside
    by_cases ends : unit = star ∧ rest.head? = some slash
    next =>
      obtain ⟨rfl, closes⟩ := ends
      obtain ⟨rest, rfl⟩ := List.head?_eq_some_iff.mp closes
      have found : blockEnd source index = index + 2 := by
        rw [blockEnd, indexOf_of_prefix within (by simp [here, List.isPrefixOf])]
        rfl
      have closed : BlanksUpTo source (.skip .code) (index + 1) (index + 2) := by
        have last : source.drop (index + 1 + 1) = rest := by
          rw [← List.drop_drop, next]
          rfl
        refine .after next last (.here ?_) rfl (by omega)
        rfl
      rw [found]
      exact .after here next closed rfl (by omega)
    next =>
      have found : blockEnd source index = blockEnd source (index + 1) := by
        rw [blockEnd, blockEnd, indexOf_of_not_prefix]
        cases rest with
        | nil => simp [here, List.isPrefixOf]
        | cons other rest =>
          have apart : ¬ (star = unit ∧ slash = other) :=
            fun both => ends ⟨both.1.symm, congrArg some both.2.symm⟩
          simpa [here, List.isPrefixOf] using apart
      have later := ih inside (by omega)
      have bounds := blockEnd_bounds source inside
      rw [found]
      refine .after here next ?_ ?_ (by omega)
      next => simpa only [maskUnit, ends, if_false] using later
      next => simp only [maskUnit, ends, if_false]

theorem blanks_string (source : Text) (index : Nat) :
    BlanksUpTo source .string index (min (closingQuote source index + 1) source.length) := by
  fun_induction closingQuote source index with
  | case1 index inside closes =>
    obtain ⟨unit, rest, found, here, next⟩ := exists_drop inside
    obtain rfl : unit = quote := by simpa [List.getElem?_eq_getElem inside, closes, eq_comm] using found
    have stop : min (index + 1) source.length = index + 1 := by omega
    rw [stop]
    exact .after here next (.here rfl) rfl (by omega)
  | case2 index inside continues ih =>
    obtain ⟨unit, rest, found, here, next⟩ := exists_drop inside
    obtain rfl : source[index] = unit := by simpa [List.getElem?_eq_getElem inside] using found
    have after := le_closingQuote source (index + stride source[index])
    have forward := stride_pos source[index]
    by_cases escapes : source[index] = backslash
    next =>
      have two : stride source[index] = 2 := if_pos escapes
      rw [two] at ih after ⊢
      refine .after here next ?_ (by rw [escapes]; rfl) (by omega)
      rw [escapes]
      by_cases last : index + 1 < source.length
      next =>
        obtain ⟨escaped, behind, -, here, next⟩ := exists_drop last
        exact .after here next ih rfl (by omega)
      next => exact .at_end _ (by omega) (by omega)
    next =>
      have one : stride source[index] = 1 := if_neg escapes
      rw [one] at ih after ⊢
      refine .after here next ?_ ?_ (by omega)
      next => simpa only [maskUnit, continues, escapes, if_false] using ih
      next => simp only [maskUnit, continues, escapes, if_false]
  | case3 index outside => exact .at_end .string (by omega) (by omega)

theorem BlanksUpTo.opened {source rest : Text} {index stop : Nat} {second : UInt16} {inner : Mode}
    (here : source.drop index = slash :: second :: rest)
    (opens : maskUnit .code slash (some second) = (space, .skip inner))
    (later : BlanksUpTo source inner (index + 2) stop) (before : index + 1 < stop) :
    BlanksUpTo source .code index stop := by
  have next : source.drop (index + 1) = second :: rest := by
    rw [← List.drop_drop, here]
    rfl
  have last : source.drop (index + 1 + 1) = rest := by
    rw [← List.drop_drop, next]
    rfl
  refine .after here next ?_ ?_ (by omega)
  next =>
    rw [List.head?_cons, opens]
    exact .after next last later rfl before
  next =>
    rw [List.head?_cons, opens]
    rfl

theorem take_two_iff {unit second : UInt16} {rest : Text} :
    (unit :: rest).take 2 = [slash, second] ↔ unit = slash ∧ rest.head? = some second := by
  cases rest <;> simp

theorem blanks_code {source : Text} {index stop : Nat} (inside : index < source.length)
    (stops : blankedEnd source index = some stop) : BlanksUpTo source .code index stop := by
  obtain ⟨unit, rest, found, here, next⟩ := exists_drop inside
  simp only [blankedEnd, slice_eq, here, found, Nat.add_sub_cancel_left, take_two_iff] at stops
  split at stops
  next opens =>
    obtain ⟨rfl, second⟩ := opens
    obtain ⟨rest, rfl⟩ := List.head?_eq_some_iff.mp second
    have long := congrArg List.length next
    simp only [List.length_drop, List.length_cons] at long
    have first : indexOf source [newline] index = indexOf source [newline] (index + 1) :=
      indexOf_of_not_prefix (by rw [here]; rfl)
    have also : indexOf source [newline] (index + 1) = indexOf source [newline] (index + 2) :=
      indexOf_of_not_prefix (by rw [next]; rfl)
    obtain rfl := Option.some.inj stops
    rw [first, also]
    have within : index + 2 ≤ source.length := by omega
    have after := (indexOf_getD_bounds source [newline] within).1
    exact .opened here (by decide) (blanks_line source within) (by omega)
  next =>
    split at stops
    next opens =>
      obtain ⟨rfl, second⟩ := opens
      obtain ⟨rest, rfl⟩ := List.head?_eq_some_iff.mp second
      have long := congrArg List.length next
      simp only [List.length_drop, List.length_cons] at long
      obtain rfl := Option.some.inj stops
      have within : index + 2 ≤ source.length := by omega
      have after := (blockEnd_bounds source within).1
      exact .opened here (by decide) (blanks_block source within) (by rw [← blockEnd]; omega)
    next =>
      split at stops
      next opens =>
        obtain rfl := Option.some.inj opens
        obtain rfl := Option.some.inj stops
        have after := le_closingQuote source (index + 1)
        exact .after here next (blanks_string source (index + 1)) rfl (by omega)
      next => cases stops

theorem keeps_code {source : Text} {index : Nat} {unit : UInt16} {rest : Text}
    (found : source[index]? = some unit) (here : source.drop index = unit :: rest)
    (keeps : blankedEnd source index = none) : maskUnit .code unit rest.head? = (unit, .code) := by
  simp only [blankedEnd, slice_eq, here, found, Nat.add_sub_cancel_left, take_two_iff] at keeps
  split at keeps
  next => cases keeps
  next line =>
    split at keeps
    next => cases keeps
    next block =>
      split at keeps
      next => cases keeps
      next string => rw [maskUnit, if_neg line, if_neg block, if_neg fun same => string (congrArg some same)]

theorem maskFrom_eq_mask (source masked : Text) (index : Nat) :
    maskFrom source masked index = masked ++ mask .code (source.drop index) := by
  fun_induction maskFrom source masked index with
  | case1 masked index inside stop stops ih =>
    rw [ih, List.append_assoc, slice_eq, ← blanks_code inside stops]
  | case2 masked index inside keeps ih =>
    obtain ⟨unit, rest, found, here, next⟩ := exists_drop inside
    have own : source[index] = unit := by simpa [List.getElem?_eq_getElem inside] using found
    rw [ih, here, mask_cons, keeps_code found here keeps, next, own, List.append_assoc]
    rfl
  | case3 masked index outside =>
    rw [List.drop_of_length_le (by omega), mask_nil, List.append_nil]

theorem maskSource_eq_mask (source : Text) : maskSource source = mask .code source := by
  rw [maskSource, maskFrom_eq_mask]
  rfl

theorem maskUnit_own_or_space (mode : Mode) (unit : UInt16) (next : Option UInt16) :
    (maskUnit mode unit next).1 = unit ∨ unit ≠ newline ∧ (maskUnit mode unit next).1 = space := by
  have blanked : blankUnit unit = unit ∨ unit ≠ newline ∧ blankUnit unit = space := by
    by_cases ends : unit = newline
    next => exact .inl (by rw [ends]; rfl)
    next => exact .inr ⟨ends, if_neg ends⟩
  cases mode with
  | code =>
    rw [maskUnit]
    split
    next opens => exact .inr ⟨by rw [opens.1]; decide, rfl⟩
    next =>
      split
      next opens => exact .inr ⟨by rw [opens.1]; decide, rfl⟩
      next =>
        split
        next opens => exact .inr ⟨by rw [opens]; decide, rfl⟩
        next => exact .inl rfl
  | line =>
    rw [maskUnit]
    split
    next ends => exact .inl ends.symm
    next ends => exact .inr ⟨ends, rfl⟩
  | block =>
    rw [maskUnit]
    split
    next closes => exact .inr ⟨by rw [closes.1]; decide, rfl⟩
    next => exact blanked
  | string =>
    rw [maskUnit]
    split
    next closes => exact .inr ⟨by rw [closes]; decide, rfl⟩
    next =>
      split
      next escapes => exact .inr ⟨by rw [escapes]; decide, rfl⟩
      next => exact blanked
  | skip => exact blanked

/-- Every newline stays where it is, and every other unit is the source's own or a space. -/
theorem maskSource_aligned (source : Text) : (maskSource source).length = source.length ∧
    ∀ (index : Nat) (unit : UInt16), source[index]? = some unit →
      ∃ masked, (maskSource source)[index]? = some masked ∧
        (masked = newline ↔ unit = newline) ∧ (masked = unit ∨ masked = space) := by
  have aligned : List.Forall₂ (fun unit masked => masked = unit ∨ unit ≠ newline ∧ masked = space) source
      (mask .code source) := forall₂_output maskUnit maskUnit_own_or_space .code source none
  rw [maskSource_eq_mask]
  refine ⟨length_output maskUnit .code source none, fun index unit found => ?_⟩
  obtain ⟨inside, rfl⟩ := List.getElem?_eq_some_iff.mp found
  have within : index < (mask .code source).length := aligned.length_eq ▸ inside
  refine ⟨(mask .code source)[index], List.getElem?_eq_getElem within, ?_⟩
  have each : (mask .code source)[index] = source[index] ∨
      source[index] ≠ newline ∧ (mask .code source)[index] = space := aligned.get inside within
  rcases each with own | ⟨other, blanked⟩
  next => exact ⟨by rw [own], .inl own⟩
  next =>
    have apart : space ≠ newline := by decide
    exact ⟨iff_of_false (by rwa [blanked]) other, .inr blanked⟩

end SourceVerification.Viewer
