import SourceVerification.Viewer.MaskSource

set_option autoImplicit false

namespace SourceVerification.Viewer

open Scanning

def apostrophe : UInt16 := 0x27
def hash : UInt16 := 0x23
def letterR : UInt16 := 0x72

inductive CharacterText
  | plain (unit : UInt16)
  | surrogates (high low : UInt16)
  | escape (unit : UInt16)
  | ascii (digits : Text)
  | unicode (digits : Text)
deriving DecidableEq

def isHexDigit (unit : UInt16) : Bool :=
  (0x30 ≤ unit && unit ≤ 0x39) || (0x41 ≤ unit && unit ≤ 0x46) || (0x61 ≤ unit && unit ≤ 0x66)

namespace CharacterText

def render : CharacterText → Text
  | plain unit => [unit]
  | surrogates high low => [high, low]
  | escape unit => [backslash, unit]
  | ascii digits => backslash :: 0x78 :: digits
  | unicode digits => backslash :: 0x75 :: 0x7B :: digits ++ [0x7D]

def WellFormed : CharacterText → Prop
  | plain unit => unit ∉ [apostrophe, backslash, newline]
  | surrogates high low => 0xD800 ≤ high ∧ high < 0xDC00 ∧ 0xDC00 ≤ low ∧ low < 0xE000
  -- `\n`, `\r`, `\t`, `\\`, `\0`, and the quotes
  | escape unit => unit ∈ [0x6E, 0x72, 0x74, backslash, 0x30, apostrophe, quote]
  | ascii digits => digits.length = 2 ∧ digits.all isHexDigit
  | unicode digits => digits.all fun unit => isHexDigit unit || unit = 0x5F

def IsQuote : CharacterText → Prop
  | plain unit | escape unit => unit = quote
  | _ => False

end CharacterText

def Closes : Nat → Text → Prop
  | 0, text => text = []
  | depth + 1, unit :: next :: rest =>
    if unit = star ∧ next = slash then Closes depth rest
    else if unit = slash ∧ next = star then Closes (depth + 2) rest
    else Closes (depth + 1) (next :: rest)
  | _ + 1, _ => False

def nests : Text → Bool
  | unit :: next :: rest =>
    if unit = star ∧ next = slash then false
    else if unit = slash ∧ next = star then true
    else nests (next :: rest)
  | _ => false

def StringText : Text → Prop
  | [] => True
  | [unit] => unit ≠ quote ∧ unit ≠ backslash
  | unit :: next :: rest =>
    if unit = backslash then StringText rest else unit ≠ quote ∧ StringText (next :: rest)

inductive Piece
  -- A unit outside of comments and literals.
  | code (unit : UInt16)
  | lineComment (text : Text)
  -- The text has what closes the comment.
  | blockComment (text : Text)
  | character (text : CharacterText)
  | string (text : Text)
  | rawString (hashes : Nat) (text : Text)
deriving DecidableEq

namespace Piece

def render : Piece → Text
  | code unit => [unit]
  | lineComment text => slash :: slash :: text
  | blockComment text => slash :: star :: text
  | character text => apostrophe :: text.render ++ [apostrophe]
  | string text => quote :: text ++ [quote]
  | rawString hashes text =>
    letterR :: List.replicate hashes hash ++ quote :: text ++ quote :: List.replicate hashes hash

def IsBlanked : Piece → Bool
  | code _ | character _ => false
  | lineComment _ | blockComment _ | string _ | rawString _ _ => true

def masked (piece : Piece) : Text :=
  if piece.IsBlanked then blank piece.render else piece.render

def Before (piece : Piece) (after : Text) : Prop :=
  match piece with
  | code unit => unit ≠ quote ∧ (unit = slash → after.head? ≠ some slash ∧ after.head? ≠ some star)
  | lineComment text => newline ∉ text ∧ (after = [] ∨ after.head? = some newline)
  | blockComment text => Closes 1 text
  | character text => text.WellFormed
  | string text => StringText text
  | rawString hashes text => ¬ quote :: List.replicate hashes hash <:+: text

/-- No raw string literal, no character literal of a double quote, no block comment in a block comment. -/
def Plain : Piece → Prop
  | blockComment text => nests text = false
  | character text => ¬ text.IsQuote
  | rawString _ _ => False
  | _ => True

end Piece

def renderAll (pieces : List Piece) : Text :=
  pieces.flatMap Piece.render

def maskedAll (pieces : List Piece) : Text :=
  pieces.flatMap Piece.masked

@[simp] theorem renderAll_cons (piece : Piece) (rest : List Piece) :
    renderAll (piece :: rest) = piece.render ++ renderAll rest := rfl

@[simp] theorem maskedAll_cons (piece : Piece) (rest : List Piece) :
    maskedAll (piece :: rest) = piece.masked ++ maskedAll rest := rfl

def Lexes : List Piece → Prop
  | [] => True
  | piece :: rest => piece.Before (renderAll rest) ∧ Lexes rest

def Masked (mode : Mode) (text : Text) (next : Option UInt16) (out : Text) (after : Mode) : Prop :=
  output maskUnit mode text next = out ∧ final maskUnit mode text next = after

theorem Masked.nil (mode : Mode) (next : Option UInt16) : Masked mode [] next [] mode :=
  ⟨rfl, rfl⟩

theorem Masked.cons {mode inner after : Mode} {unit masked : UInt16} {rest out : Text} {next : Option UInt16}
    (read : maskUnit mode unit (rest.head?.or next) = (masked, inner)) (later : Masked inner rest next out after) :
    Masked mode (unit :: rest) next (masked :: out) after := by
  constructor
  next => rw [output_cons, read, later.1]
  next => rw [final_cons, read, later.2]

theorem Masked.append {mode inner after : Mode} {text rest first out : Text} {next : Option UInt16}
    (start : Masked mode text (rest.head?.or next) first inner) (later : Masked inner rest next out after) :
    Masked mode (text ++ rest) next (first ++ out) after := by
  constructor
  next => rw [output_append, start.1, start.2, later.1]
  next => rw [final_append, start.2, later.2]

theorem mask_append (mode : Mode) (text rest : Text) : mask mode (text ++ rest) =
    output maskUnit mode text rest.head? ++ mask (final maskUnit mode text rest.head?) rest := by
  rw [mask, output_append, Option.or_none, mask]

theorem Masked.mask_append {mode after : Mode} {text rest out : Text}
    (masked : Masked mode text rest.head? out after) : mask mode (text ++ rest) = out ++ mask after rest := by
  rw [Viewer.mask_append, masked.1, masked.2]

theorem masked_solid {text : Text} (solid : ∀ unit ∈ text, unit ≠ slash ∧ unit ≠ quote) (next : Option UInt16) :
    Masked .code text next text .code := by
  induction text with
  | nil => exact .nil _ _
  | cons unit rest ih =>
    simp only [List.forall_mem_cons] at solid
    exact .cons (by simp [maskUnit, solid.1]) (ih solid.2)

theorem masked_line {text : Text} (inside : newline ∉ text) (next : Option UInt16) :
    Masked .line text next (blank text) .line := by
  induction text with
  | nil => exact .nil _ _
  | cons unit rest ih =>
    simp only [List.mem_cons, not_or] at inside
    exact .cons (by simp [maskUnit, blankUnit, Ne.symm inside.1]) (ih inside.2)

theorem masked_string {text : Text} (closed : StringText text) (next : Option UInt16) :
    Masked .string text next (blank text) .string := by
  induction text using StringText.induct with
  | case1 => exact .nil _ _
  | case2 unit => exact .cons (by simp [maskUnit, closed.1, closed.2]) (.nil _ _)
  | case3 escaped rest ih =>
    rw [StringText, if_pos rfl] at closed
    exact .cons rfl (.cons rfl (ih closed))
  | case4 unit escaped rest plain ih =>
    rw [StringText, if_neg plain] at closed
    exact .cons (by simp [maskUnit, plain, closed.1]) (ih closed.2)

theorem masked_block {text : Text} (closed : Closes 1 text) (flat : nests text = false) (next : Option UInt16) :
    Masked .block text next (blank text) .code := by
  induction text using nests.induct with
  | case1 unit other rest closes =>
    obtain ⟨rfl, rfl⟩ := closes
    rw [Closes, if_pos ⟨rfl, rfl⟩] at closed
    have done : rest = [] := by simpa [Closes] using closed
    rw [done]
    exact .cons rfl (.cons rfl (.nil _ _))
  | case2 unit other rest still opens =>
    rw [nests, if_neg still, if_pos opens] at flat
    cases flat
  | case3 unit other rest still closed' ih =>
    rw [Closes, if_neg still, if_neg closed'] at closed
    rw [nests, if_neg still, if_neg closed'] at flat
    exact .cons (by simpa [maskUnit] using still) (ih closed flat)
  | case4 text short =>
    cases text with
    | nil => simp [Closes] at closed
    | cons unit rest =>
      cases rest with
      | nil => simp [Closes] at closed
      | cons other rest => exact (short unit other rest rfl).elim

theorem CharacterText.solid {text : CharacterText} (formed : text.WellFormed) (other : ¬ text.IsQuote)
    (slashes : text ≠ .plain slash) : ∀ unit ∈ text.render, unit ≠ slash ∧ unit ≠ quote := by
  have digit : ∀ unit, isHexDigit unit = true → unit ≠ slash ∧ unit ≠ quote := by
    intro unit hex
    constructor
    next => rintro rfl; revert hex; decide
    next => rintro rfl; revert hex; decide
  cases text with
  | plain unit =>
    simp only [render, List.forall_mem_singleton]
    exact ⟨fun same => slashes (congrArg plain same), other⟩
  | surrogates high low =>
    obtain ⟨above, -, also, -⟩ := formed
    simp only [render, List.forall_mem_cons, List.not_mem_nil, false_implies, implies_true, and_true]
    refine ⟨⟨?_, ?_⟩, ?_, ?_⟩
    next => rintro rfl; revert above; decide
    next => rintro rfl; revert above; decide
    next => rintro rfl; revert also; decide
    next => rintro rfl; revert also; decide
  | escape unit =>
    simp only [render, List.forall_mem_cons, List.not_mem_nil, false_implies, implies_true, and_true]
    refine ⟨by decide, ?_, other⟩
    rintro rfl
    revert formed
    simp only [WellFormed]
    decide
  | ascii digits =>
    have hex := List.all_eq_true.mp formed.2
    simp only [render, List.forall_mem_cons]
    exact ⟨by decide, by decide, fun unit member => digit unit (hex unit member)⟩
  | unicode digits =>
    have hex := List.all_eq_true.mp formed
    simp only [render, List.cons_append, List.forall_mem_cons, List.forall_mem_append, List.not_mem_nil,
      false_implies, implies_true, and_true]
    refine ⟨by decide, by decide, by decide, fun unit member => ?_, by decide⟩
    have listed := hex unit member
    simp only [Bool.or_eq_true, decide_eq_true_eq] at listed
    rcases listed with one | rfl
    next => exact digit unit one
    next => decide

theorem masked_character {text : CharacterText} (formed : text.WellFormed) (other : ¬ text.IsQuote)
    (next : Option UInt16) :
    Masked .code (Piece.character text).render next (Piece.character text).render .code := by
  by_cases slashes : text = .plain slash
  next =>
    rw [slashes]
    exact .cons rfl (.cons rfl (.cons rfl (.nil _ _)))
  next =>
    refine masked_solid (fun unit member => ?_) next
    simp only [Piece.render, List.cons_append, List.mem_cons, List.mem_append, List.not_mem_nil, or_false] at member
    rcases member with rfl | inside | rfl
    next => decide
    next => exact text.solid formed other slashes unit inside
    next => decide

theorem mask_line {after : Text} (ends : after = [] ∨ after.head? = some newline) :
    mask .line after = mask .code after := by
  rcases ends with rfl | starts
  next => rfl
  next =>
    obtain ⟨rest, rfl⟩ := List.head?_eq_some_iff.mp starts
    rw [mask_cons, mask_cons]
    rfl

theorem mask_plain {piece : Piece} {after : Text} (before : piece.Before after) (plain : piece.Plain) :
    mask .code (piece.render ++ after) = piece.masked ++ mask .code after := by
  cases piece with
  | code unit =>
    have read : maskUnit .code unit after.head? = (unit, .code) := by
      by_cases slashes : unit = slash
      next => simp [maskUnit, before.1, before.2 slashes]
      next => simp [maskUnit, before.1, slashes]
    simp only [Piece.render, List.singleton_append, mask_cons, read]
    rfl
  | lineComment text =>
    have inside := masked_line before.1 after.head?
    have opened : Masked .code (Piece.lineComment text).render after.head? (Piece.lineComment text).masked .line :=
      .cons rfl (.cons rfl inside)
    rw [opened.mask_append, mask_line before.2]
  | blockComment text =>
    have inside := masked_block before plain after.head?
    exact Masked.mask_append (.cons rfl (.cons rfl inside))
  | character text => exact (masked_character before plain after.head?).mask_append
  | string text =>
    have inside := masked_string before (some quote)
    have closed : Masked .code (quote :: (text ++ [quote])) after.head? (space :: (blank text ++ [space])) .code :=
      .cons rfl (.append inside (.cons rfl (.nil _ _)))
    have blanked : (Piece.string text).masked = space :: (blank text ++ [space]) := by
      simp [Piece.masked, Piece.IsBlanked, Piece.render, blank, blankUnit, quote, newline]
    rw [blanked]
    exact closed.mask_append
  | rawString => exact plain.elim

theorem mask_renderAll {pieces : List Piece} (lexes : Lexes pieces) (plain : ∀ piece ∈ pieces, piece.Plain) :
    mask .code (renderAll pieces) = maskedAll pieces := by
  induction pieces with
  | nil => rfl
  | cons piece rest ih =>
    simp only [List.forall_mem_cons] at plain
    rw [renderAll_cons, maskedAll_cons, mask_plain lexes.1 plain.1, ih lexes.2 plain.2]

def afterClose : Text → Text
  | unit :: next :: rest => if unit = star ∧ next = slash then rest else afterClose (next :: rest)
  | _ => []

def Clean (text : Text) : Prop :=
  ¬ [slash, slash] <:+: text ∧ quote ∉ text

theorem Clean.suffix {text rest : Text} (clean : Clean text) (suffix : rest <:+ text) : Clean rest :=
  ⟨fun inside => clean.1 (inside.trans suffix.isInfix), fun inside => clean.2 (suffix.subset inside)⟩

theorem afterClose_suffix (text : Text) : afterClose text <:+ text := by
  induction text using afterClose.induct with
  | case1 unit next rest closes =>
    rw [afterClose, if_pos closes]
    exact ⟨[unit, next], rfl⟩
  | case2 unit next rest still ih =>
    rw [afterClose, if_neg still]
    exact ih.trans (List.suffix_cons unit _)
  | case3 text short =>
    match text with
    | [] | [_] => simp [afterClose]
    | unit :: next :: rest => exact (short unit next rest rfl).elim

theorem output_cons_ne {mode inner : Mode} {unit masked : UInt16} {rest : Text} {next : Option UInt16}
    (read : maskUnit mode unit (rest.head?.or next) = (masked, inner))
    (later : masked = blankUnit unit → output maskUnit inner rest next ≠ blank rest) :
    output maskUnit mode (unit :: rest) next ≠ blank (unit :: rest) := by
  rw [output_cons, read]
  intro same
  obtain ⟨first, others⟩ := List.cons.inj same
  exact later first others

def Stays (depth : Nat) (text : Text) (next : Option UInt16) : Prop :=
  (Clean text → output maskUnit .code text next ≠ blank text) ∧
    ((depth = 0 → nests text = true) → Clean (afterClose text) → output maskUnit .block text next ≠ blank text)

theorem stays_ends {depth : Nat} {rest : Text} {next : Option UInt16}
    (later : ∀ below, depth = below + 1 → Stays below rest next) : Stays depth (star :: slash :: rest) next := by
  constructor
  next => exact fun _ => output_cons_ne rfl fun kept => absurd kept (by decide)
  next =>
    intro nested clean
    cases depth with
    | zero => exact absurd (nested rfl) (by simp [nests])
    | succ depth =>
      rw [afterClose, if_pos ⟨rfl, rfl⟩] at clean
      have inside := (later depth rfl).1 clean
      exact output_cons_ne rfl fun _ => output_cons_ne rfl fun _ => inside

-- The star is the one of `/*` and that of the loop's `*/`.
theorem output_shared_star {tail : Text} {next : Option UInt16}
    (behind : tail.head? ≠ some star → output maskUnit .code tail next ≠ blank tail) (some : tail ≠ []) :
    output maskUnit .block (slash :: star :: slash :: tail) next ≠ blank (slash :: star :: slash :: tail) := by
  refine output_cons_ne rfl fun _ => output_cons_ne rfl fun _ => output_cons_ne rfl fun _ => ?_
  cases tail with
  | nil => exact absurd rfl some
  | cons fourth more =>
    by_cases again : fourth = star
    next =>
      rw [again]
      exact output_cons_ne rfl fun kept => absurd kept (by decide)
    next => exact behind (by simpa using again)

theorem stays_opens {depth : Nat} {rest : Text} {next : Option UInt16} (closes : Closes (depth + 2) rest)
    (deeper : Stays (depth + 1) rest next)
    (behind : ∀ tail, rest = slash :: tail → Closes (depth + 2) tail → Stays (depth + 1) tail next) :
    Stays depth (slash :: star :: rest) next := by
  have within : Clean (afterClose rest) → output maskUnit .block rest next ≠ blank rest := deeper.2 (by simp)
  constructor
  next =>
    intro clean
    have later : Clean (afterClose rest) := clean.suffix ((afterClose_suffix rest).trans ⟨[slash, star], rfl⟩)
    exact output_cons_ne rfl fun _ => output_cons_ne rfl fun _ => within later
  next =>
    intro nested clean
    have still : ¬ (slash = star ∧ star = slash) := fun both => absurd both.1 (by decide)
    rw [afterClose, if_neg still] at clean
    cases rest with
    | nil => simp [Closes] at closes
    | cons third tail =>
      by_cases shared : third = slash
      next =>
        obtain rfl := shared
        rw [afterClose, if_pos ⟨rfl, rfl⟩] at clean
        cases tail with
        | nil => simp [Closes] at closes
        | cons fourth more =>
          refine output_shared_star (fun apart => ?_) (by simp)
          have other : fourth ≠ star := by simpa using apart
          have ends : ¬ (slash = star ∧ fourth = slash) := fun both => absurd both.1 (by decide)
          rw [Closes, if_neg ends, if_neg fun both => other both.2] at closes
          exact (behind (fourth :: more) rfl closes).1 clean
      next =>
        rw [afterClose, if_neg fun both => shared both.2] at clean
        have read : maskUnit .block star ((third :: tail).head?.or next) = (space, .block) := by
          simp [maskUnit, shared, blankUnit, star, newline]
        exact output_cons_ne rfl fun _ => output_cons_ne read fun _ => within clean

theorem stays_other {depth : Nat} {unit other : UInt16} {rest : Text} {next : Option UInt16}
    (ends : ¬ (unit = star ∧ other = slash)) (opens : ¬ (unit = slash ∧ other = star))
    (later : Stays depth (other :: rest) next) : Stays depth (unit :: other :: rest) next := by
  constructor
  next =>
    intro clean
    have apart : ¬ (unit = slash ∧ other = slash) := by
      rintro ⟨rfl, rfl⟩
      exact clean.1 ⟨[], rest, rfl⟩
    have unquoted : unit ≠ quote := fun same => clean.2 (by simp [same])
    have read : maskUnit .code unit ((other :: rest).head?.or next) = (unit, .code) := by
      simp only [maskUnit, List.head?_cons, Option.some_or, Option.some.injEq, apart, opens, unquoted, if_false]
    exact output_cons_ne read fun _ => later.1 (clean.suffix (List.suffix_cons unit _))
  next =>
    intro nested clean
    rw [afterClose, if_neg ends] at clean
    rw [nests, if_neg ends, if_neg opens] at nested
    have read : maskUnit .block unit ((other :: rest).head?.or next) = (blankUnit unit, .block) := by
      simp only [maskUnit, List.head?_cons, Option.some_or, Option.some.injEq, ends, if_false]
    exact output_cons_ne read fun _ => later.2 nested clean

theorem stays_of_closes (text : Text) (depth : Nat) (next : Option UInt16) (closes : Closes (depth + 1) text) :
    Stays depth text next := by
  induction size : text.length using Nat.strongRecOn generalizing text depth with
  | _ size ih =>
    match text with
    | [] | [_] => simp [Closes] at closes
    | unit :: other :: rest =>
      obtain rfl := size
      have shorter : rest.length < (unit :: other :: rest).length := by
        simp only [List.length_cons]
        omega
      by_cases ends : unit = star ∧ other = slash
      next =>
        obtain ⟨rfl, rfl⟩ := ends
        rw [Closes, if_pos ⟨rfl, rfl⟩] at closes
        refine stays_ends ?_
        rintro below rfl
        exact ih _ shorter rest below closes rfl
      next =>
        by_cases opens : unit = slash ∧ other = star
        next =>
          obtain ⟨rfl, rfl⟩ := opens
          rw [Closes, if_neg ends, if_pos ⟨rfl, rfl⟩] at closes
          refine stays_opens closes (ih _ shorter rest (depth + 1) closes rfl) ?_
          rintro tail rfl behind
          exact ih _ (Nat.lt_trans (Nat.lt_succ_self _) shorter) tail (depth + 1) behind rfl
        next =>
          rw [Closes, if_neg ends, if_neg opens] at closes
          exact stays_other ends opens (ih _ (by simp) (other :: rest) depth closes rfl)

def Piece.Hides : Piece → Prop
  | blockComment text => nests text = true ∧ ¬ Clean (afterClose text)
  | _ => False

@[simp] theorem length_masked (piece : Piece) : piece.masked.length = piece.render.length := by
  unfold Piece.masked
  split <;> simp [blank]

theorem plain_of_output {piece : Piece} {after : Text} (before : piece.Before after) {next : Option UInt16}
    (same : output maskUnit .code piece.render next = piece.masked) : piece.Plain ∨ piece.Hides := by
  cases piece with
  | code | lineComment | string => exact .inl trivial
  | blockComment text =>
    by_cases flat : nests text = false
    next => exact .inl flat
    next =>
      have nested : nests text = true := by simpa using flat
      refine .inr ⟨nested, fun clean => ?_⟩
      have inside := (stays_of_closes text 0 next before).2 (fun _ => nested) clean
      have whole : output maskUnit .code (slash :: star :: text) next ≠ blank (slash :: star :: text) :=
        output_cons_ne rfl fun _ => output_cons_ne rfl fun _ => inside
      exact whole same
  | character text =>
    refine .inl fun quoted => ?_
    cases text with
    | plain unit =>
      obtain rfl : unit = quote := quoted
      have second : some space = some quote := congrArg (·[1]?) same
      exact absurd second (by decide)
    | escape unit =>
      obtain rfl : unit = quote := quoted
      have third : some space = some quote := congrArg (·[2]?) same
      exact absurd third (by decide)
    | surrogates | ascii | unicode => exact quoted
  | rawString hashes text =>
    have first := congrArg List.head? same
    simp only [Piece.render, Piece.masked, Piece.IsBlanked, List.cons_append, output_cons, blank, if_true,
      List.map_cons, List.head?_cons, Option.some.injEq] at first
    exact absurd first (by simp [maskUnit, blankUnit, letterR, slash, quote, newline, space])

/-- The first piece that isn't plain hides what it leaves. -/
def FirstHides (pieces : List Piece) : Prop :=
  ∃ earlier piece later, pieces = earlier ++ piece :: later ∧ (∀ other ∈ earlier, other.Plain) ∧ piece.Hides

theorem plain_of_mask {pieces : List Piece} (lexes : Lexes pieces)
    (same : mask .code (renderAll pieces) = maskedAll pieces) :
    (∀ piece ∈ pieces, piece.Plain) ∨ FirstHides pieces := by
  induction pieces with
  | nil => exact .inl (by simp)
  | cons piece rest ih =>
    have both := same
    rw [renderAll_cons, maskedAll_cons, mask_append] at both
    have first := (List.append_inj both (by simp)).1
    rcases plain_of_output lexes.1 first with plain | hides
    next =>
      rw [renderAll_cons, maskedAll_cons, mask_plain lexes.1 plain] at same
      rcases ih lexes.2 (List.append_cancel_left same) with others | ⟨earlier, other, later, rfl, others, hides⟩
      next => exact .inl (List.forall_mem_cons.mpr ⟨plain, others⟩)
      next => exact .inr ⟨piece :: earlier, other, later, rfl, List.forall_mem_cons.mpr ⟨plain, others⟩, hides⟩
    next => exact .inr ⟨[], piece, rest, rfl, by simp, hides⟩

-- `\b`
def boundary (text : Text) (index : Nat) : Bool :=
  (index != 0 && text[index - 1]?.any isWord) != text[index]?.any isWord

/-- `\bfn\s+<name>\b` matches at the index. -/
def declares (name text : Text) (index : Nat) : Bool :=
  let gap := (text.drop (index + 2)).takeWhile isSpace
  let start := index + 2 + gap.length
  boundary text index && [0x66, 0x6E].isPrefixOf (text.drop index) && !gap.isEmpty &&
    name.isPrefixOf (text.drop start) && boundary text (start + name.length)

def declarations (name text : Text) : List Nat :=
  (List.range text.length).filter (declares name text)

/-- Comments and string literals are blanked and nothing else, so that a search finds what the code declares. -/
def MasksPieces (pieces : List Piece) : Prop :=
  maskSource (renderAll pieces) = maskedAll pieces ∧
    ∀ name, declarations name (maskSource (renderAll pieces)) = declarations name (maskedAll pieces)

theorem masksPieces_iff_mask (pieces : List Piece) :
    MasksPieces pieces ↔ mask .code (renderAll pieces) = maskedAll pieces := by
  rw [MasksPieces, maskSource_eq_mask]
  exact ⟨And.left, fun same => ⟨same, fun name => by rw [same]⟩⟩

theorem maskSource_of_pieces {pieces : List Piece} (lexes : Lexes pieces) :
    ((∀ piece ∈ pieces, piece.Plain) → MasksPieces pieces) ∧
      (MasksPieces pieces → (∀ piece ∈ pieces, piece.Plain) ∨ FirstHides pieces) := by
  rw [masksPieces_iff_mask]
  exact ⟨mask_renderAll lexes, plain_of_mask lexes⟩

-- `'"';fn f();`
def quoteLiteral : List Piece :=
  .character (.plain quote) :: [0x3B, 0x66, 0x6E, 0x20, 0x66, 0x28, 0x29, 0x3B].map .code

theorem quoteLiteral_lexes : Lexes quoteLiteral := by
  simp [quoteLiteral, Lexes, Piece.Before, CharacterText.WellFormed, quote, slash, apostrophe, backslash, newline]

theorem quoteLiteral_hides_declaration : ¬ ∀ pieces, Lexes pieces → MasksPieces pieces := by
  intro masks
  have found := (masks quoteLiteral quoteLiteral_lexes).2 [0x66]
  rw [maskSource_eq_mask] at found
  exact absurd found (by decide)

-- `/* */"//"`
theorem comment_and_string_masked : MasksPieces [.blockComment [space, star, slash], .string [slash, slash]] := by
  have lexes : Lexes [.blockComment [space, star, slash], .string [slash, slash]] := by
    simp [Lexes, Piece.Before, Closes, StringText, space, star, slash, quote, backslash]
  refine (maskSource_of_pieces lexes).1 ?_
  simp [Piece.Plain, nests, space, star, slash]

end SourceVerification.Viewer
