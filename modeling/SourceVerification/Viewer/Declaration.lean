import SourceVerification.Viewer.ReadSignature

set_option autoImplicit false

namespace SourceVerification.Viewer

inductive Bracket
  | parameters
  -- Any other parentheses.
  | tuple
  | square
  | angle
deriving DecidableEq

namespace Bracket

def opens : Bracket → UInt16
  | parameters | tuple => parenOpen
  | square => squareOpen
  | angle => less

def closes : Bracket → UInt16
  | parameters | tuple => parenClose
  | square => squareClose
  | angle => greater

def isRound : Bracket → Bool
  | parameters | tuple => true
  | square | angle => false

end Bracket

/-- Units and groups in brackets, one behind the other. -/
inductive Forest
  | nil
  | unit (own : UInt16) (rest : Forest)
  -- `->`
  | arrow (rest : Forest)
  | group (bracket : Bracket) (inside rest : Forest)
deriving DecidableEq

namespace Forest

def render : Forest → Text
  | nil => []
  | unit own rest => own :: rest.render
  | arrow rest => dash :: greater :: rest.render
  | group bracket inside rest => bracket.opens :: inside.render ++ bracket.closes :: rest.render

def WellFormed : Forest → Prop
  | nil => True
  | unit own rest =>
    own ∉ [parenOpen, parenClose, squareOpen, squareClose, less, greater] ∧ rest.WellFormed
  | arrow rest => rest.WellFormed
  | group bracket inside rest =>
    inside.WellFormed ∧ (bracket = .angle → inside.render.getLast? ≠ some dash) ∧ rest.WellFormed

/-- No `;` and no `{` outside of brackets. -/
def Unterminated : Forest → Prop
  | nil => True
  | unit own rest => own ≠ semicolon ∧ own ≠ braceOpen ∧ rest.Unterminated
  | arrow rest | group _ _ rest => rest.Unterminated

def isGap : Forest → Bool
  | nil => true
  | unit own rest => isSpace own && rest.isGap
  | arrow _ | group _ _ _ => false

def trailingComma : Forest → Bool
  | nil => false
  | unit own rest => own = comma && rest.isGap || rest.trailingComma
  | arrow rest | group _ _ rest => rest.trailingComma

def dropTrailingComma : Forest → Forest
  | nil => nil
  | unit own rest => if own = comma && rest.isGap then rest else unit own rest.dropTrailingComma
  | arrow rest => arrow rest.dropTrailingComma
  | group bracket inside rest => group bracket inside rest.dropTrailingComma

def without (drops : Bracket → Bool) : Forest → Forest
  | nil => nil
  | unit own rest => unit own (rest.without drops)
  | arrow rest => arrow (rest.without drops)
  | group bracket inside rest =>
    group bracket (if drops bracket then (inside.without drops).dropTrailingComma else inside.without drops)
      (rest.without drops)

/-- No parentheses but those of a parameter list have a trailing comma. -/
def NoTupleComma : Forest → Prop
  | nil => True
  | unit _ rest | arrow rest => rest.NoTupleComma
  | group bracket inside rest =>
    (bracket = .tuple → inside.trailingComma = false) ∧ inside.NoTupleComma ∧ rest.NoTupleComma

def trailingCommas (counted : Bracket → Bool) : Forest → Nat
  | nil => 0
  | unit _ rest | arrow rest => rest.trailingCommas counted
  | group bracket inside rest =>
    (counted bracket && inside.trailingComma).toNat + inside.trailingCommas counted +
      rest.trailingCommas counted

theorem isGap_without (drops : Bracket → Bool) (forest : Forest) : (forest.without drops).isGap = forest.isGap := by
  induction forest with
  | nil => rfl
  | unit own rest ih => rw [without, isGap, isGap, ih]
  | arrow => rfl
  | group => rfl

theorem trailingComma_without (drops : Bracket → Bool) (forest : Forest) :
    (forest.without drops).trailingComma = forest.trailingComma := by
  induction forest with
  | nil => rfl
  | unit own rest ih => rw [without, trailingComma, trailingComma, isGap_without, ih]
  | arrow rest ih => rw [without, trailingComma, trailingComma, ih]
  | group bracket inside rest _ ih => rw [without, trailingComma, trailingComma, ih]

theorem trailingComma_of_isGap {forest : Forest} (gap : forest.isGap = true) : forest.trailingComma = false := by
  induction forest with
  | nil => rfl
  | unit own rest ih =>
    rw [isGap, Bool.and_eq_true] at gap
    have other : own ≠ comma := by
      rintro rfl
      exact absurd gap.1 (by decide)
    rw [trailingComma, ih gap.2]
    simp [other]
  | arrow => cases gap
  | group => cases gap

theorem dropTrailingComma_eq_self {forest : Forest} (none : forest.trailingComma = false) :
    forest.dropTrailingComma = forest := by
  induction forest with
  | nil => rfl
  | unit own rest ih =>
    rw [trailingComma, Bool.or_eq_false_iff] at none
    rw [dropTrailingComma, none.1, ih none.2]
    rfl
  | arrow rest ih => rw [dropTrailingComma, ih none]
  | group bracket inside rest _ ih => rw [dropTrailingComma, ih none]

theorem count_dropTrailingComma (forest : Forest) :
    forest.dropTrailingComma.render.count comma + forest.trailingComma.toNat =
      forest.render.count comma := by
  induction forest with
  | nil => rfl
  | unit own rest ih =>
    rw [dropTrailingComma, trailingComma]
    split
    next last =>
      rw [last, Bool.true_or, render]
      rw [Bool.and_eq_true, decide_eq_true_eq] at last
      simp [last.1]
    next other =>
      have inside : (decide (own = comma) && rest.isGap) = false := by simpa using other
      rw [inside, Bool.false_or, render, render, List.count_cons, List.count_cons, ← ih]
      omega
  | arrow rest ih => simpa [dropTrailingComma, trailingComma, render, dash, greater, comma] using ih
  | group bracket inside rest _ ih =>
    simp only [dropTrailingComma, trailingComma, render, List.cons_append, List.count_cons, List.count_append, ← ih]
    omega

theorem count_without (drops : Bracket → Bool) (forest : Forest) :
    (forest.without drops).render.count comma + forest.trailingCommas drops = forest.render.count comma := by
  induction forest with
  | nil => rfl
  | unit own rest ih =>
    rw [without, trailingCommas, render, render, List.count_cons, List.count_cons, ← ih]
    omega
  | arrow rest ih => simpa [without, trailingCommas, render, dash, greater, comma] using ih
  | group bracket inside rest within ih =>
    have dropped := count_dropTrailingComma (inside.without drops)
    rw [trailingComma_without] at dropped
    simp only [without, trailingCommas, render, List.cons_append, List.count_cons, List.count_append, ← ih, ← within]
    cases drops bracket with
    | false =>
      simp only [Bool.false_and, Bool.false_eq_true, if_false, Bool.toNat_false]
      omega
    | true =>
      simp only [if_true, Bool.true_and]
      omega

theorem closesNext_render {forest : Forest} (formed : forest.WellFormed) (rest : Text) :
    closesNext (forest.render ++ rest) = (forest.isGap && closesNext rest) := by
  induction forest with
  | nil => rfl
  | unit own later ih =>
    have other : own ≠ parenClose := by
      rintro rfl
      exact absurd formed.1 (by decide)
    rw [render, List.cons_append, closesNext_cons, isGap]
    by_cases blanks : isSpace own = true
    next => simp [blanks, ih formed.2]
    next => simp [blanks, other]
  | arrow later => rfl
  | group bracket inside later =>
    rw [render, List.cons_append, List.cons_append, closesNext_cons]
    cases bracket <;> rfl

theorem dropWhereCloses_cons {drops : UInt16 → Bool} {own : UInt16} (kept : drops own = false) (rest : Text) :
    dropWhereCloses drops (own :: rest) = own :: dropWhereCloses drops rest := by
  rw [dropWhereCloses, kept]
  rfl

theorem dropWhereCloses_render {forest : Forest} (formed : forest.WellFormed) (rest : Text) :
    dropWhereCloses (· = comma) (forest.render ++ rest) =
      (if closesNext rest then (forest.without Bracket.isRound).dropTrailingComma
        else forest.without Bracket.isRound).render ++ dropWhereCloses (· = comma) rest := by
  induction forest generalizing rest with
  | nil => simp [render, without, dropTrailingComma]
  | unit own later ih =>
    rw [render, List.cons_append, dropWhereCloses, closesNext_render formed.2, ih formed.2, without,
      dropTrailingComma, isGap_without]
    by_cases closes : closesNext rest = true
    next =>
      by_cases last : (decide (own = comma) && later.isGap) = true
      next =>
        have gap : (later.without Bracket.isRound).trailingComma = false := by
          rw [trailingComma_without]
          exact trailingComma_of_isGap (Bool.and_eq_true .. ▸ last).2
        simp [closes, last, dropTrailingComma_eq_self gap]
      next => simp [closes, last, render]
    next => simp [closes, render]
  | arrow later ih =>
    have kept : dropWhereCloses (· = comma) (render (arrow later) ++ rest) =
        dash :: greater :: dropWhereCloses (· = comma) (later.render ++ rest) := rfl
    rw [kept, ih formed, without, dropTrailingComma]
    split <;> rfl
  | group bracket inside later within ih =>
    have opened : decide (bracket.opens = comma) = false := by cases bracket <;> rfl
    have closed : decide (bracket.closes = comma) = false := by cases bracket <;> rfl
    have round : closesNext (bracket.closes :: (later.render ++ rest)) = bracket.isRound := by
      cases bracket <;> rfl
    rw [render, List.append_assoc, List.cons_append, List.cons_append, dropWhereCloses_cons opened, within formed.1,
      dropWhereCloses_cons closed, ih formed.2.2, round, without, dropTrailingComma]
    by_cases ends : closesNext rest = true
    next => simp [ends, render]
    next => simp [ends, render]

theorem without_round_of_noTupleComma {forest : Forest} (none : forest.NoTupleComma) :
    forest.without Bracket.isRound = forest.without (· = .parameters) := by
  induction forest with
  | nil => rfl
  | unit own rest ih => rw [without, without, ih none]
  | arrow rest ih => rw [without, without, ih none]
  | group bracket inside rest within ih =>
    rw [without, without, within none.2.1, ih none.2.2]
    cases bracket with
    | parameters | square | angle => rfl
    | tuple =>
      have absent : (inside.without (· = .parameters)).trailingComma = false := by
        rw [trailingComma_without]
        exact none.1 rfl
      simp [Bracket.isRound, dropTrailingComma_eq_self absent]

theorem trailingCommas_round (forest : Forest) : forest.trailingCommas Bracket.isRound =
    forest.trailingCommas (· = .parameters) + forest.trailingCommas (· = .tuple) := by
  induction forest with
  | nil => rfl
  | unit own rest ih => exact ih
  | arrow rest ih => exact ih
  | group bracket inside rest within ih =>
    simp only [trailingCommas, within, ih]
    cases bracket <;> simp [Bracket.isRound] <;> omega

theorem noTupleComma_iff (forest : Forest) : forest.NoTupleComma ↔ forest.trailingCommas (· = .tuple) = 0 := by
  induction forest with
  | nil => simp [NoTupleComma, trailingCommas]
  | unit own rest ih => exact ih
  | arrow rest ih => exact ih
  | group bracket inside rest within ih =>
    rw [NoTupleComma, within, ih, trailingCommas]
    cases bracket <;> cases inside.trailingComma <;> simp

theorem tokens_oneLine_render {forest : Forest} (formed : forest.WellFormed) :
    tokens (oneLine forest.render) = tokens (forest.without (· = .parameters)).render ↔ forest.NoTupleComma := by
  have commas : ∀ unit, decide (unit = comma) = true → unit = comma ∨ isSpace unit = true := by simp
  have dropped : dropWhereCloses (· = comma) forest.render = (forest.without Bracket.isRound).render := by
    have whole := dropWhereCloses_render formed []
    simpa [closesNext, dropWhereCloses] using whole
  have read : tokens (oneLine forest.render) = tokens (forest.without Bracket.isRound).render := by
    rw [tokens_oneLine, ← dropped, tokens, tokens, tokensFrom_dropWhereCloses (by simp) commas _ (by simp)]
  rw [read]
  constructor
  next =>
    intro same
    have counts := congrArg (fun tokens => tokens.flatten.count comma) same
    have round := count_without Bracket.isRound forest
    have parameters := count_without (· = .parameters) forest
    simp only [count_tokens] at counts
    rw [trailingCommas_round] at round
    rw [noTupleComma_iff]
    omega
  next => exact fun none => by rw [without_round_of_noTupleComma none]

end Forest

section

variable (before rest : Text) (depth : Int)

theorem signatureEnd_cons (own : UInt16) : signatureEnd (before ++ own :: rest) depth before.length =
    if own = parenOpen ∨ own = squareOpen ∨ own = less then
      signatureEnd (before ++ [own] ++ rest) (depth + 1) (before ++ [own]).length
    else if own = parenClose ∨ own = squareClose then
      signatureEnd (before ++ [own] ++ rest) (depth - 1) (before ++ [own]).length
    else if own = greater ∧ before.getLast? ≠ some dash then
      signatureEnd (before ++ [own] ++ rest) (depth - 1) (before ++ [own]).length
    else if depth = 0 ∧ (own = semicolon ∨ own = braceOpen) then some before.length
    else signatureEnd (before ++ [own] ++ rest) depth (before ++ [own]).length := by
  have inside : before.length < (before ++ own :: rest).length := by simp
  have here : (before ++ own :: rest)[before.length] = own := by simp
  have previous : own = greater →
      ((before ++ own :: rest)[before.length - 1]? ≠ some dash ↔ before.getLast? ≠ some dash) := by
    rintro rfl
    induction before using List.reverseRecOn with
    | nil => simp [greater, dash]
    | append_singleton before last => simp
  have longer : (before ++ [own]).length = before.length + 1 := by simp
  have same : before ++ [own] ++ rest = before ++ own :: rest := by simp
  have arrow : (own = greater ∧ (before ++ own :: rest)[before.length - 1]? ≠ some dash) ↔
      own = greater ∧ before.getLast? ≠ some dash := and_congr_right previous
  rw [signatureEnd, dif_pos inside, here, longer, same]
  simp only [arrow]

theorem signatureEnd_opens (bracket : Bracket) :
    signatureEnd (before ++ bracket.opens :: rest) depth before.length =
      signatureEnd (before ++ [bracket.opens] ++ rest) (depth + 1) (before ++ [bracket.opens]).length := by
  rw [signatureEnd_cons]
  cases bracket <;> rfl

theorem signatureEnd_closes (bracket : Bracket) (apart : bracket = .angle → before.getLast? ≠ some dash) :
    signatureEnd (before ++ bracket.closes :: rest) depth before.length =
      signatureEnd (before ++ [bracket.closes] ++ rest) (depth - 1) (before ++ [bracket.closes]).length := by
  rw [signatureEnd_cons]
  cases bracket with
  | parameters | tuple | square => rfl
  | angle => rw [if_neg (by decide), if_neg (by decide), if_pos ⟨rfl, apart rfl⟩]

theorem signatureEnd_unit {own : UInt16}
    (other : own ∉ [parenOpen, parenClose, squareOpen, squareClose, less, greater])
    (within : depth = 0 → own ≠ semicolon ∧ own ≠ braceOpen) :
    signatureEnd (before ++ own :: rest) depth before.length =
      signatureEnd (before ++ [own] ++ rest) depth (before ++ [own]).length := by
  simp only [List.mem_cons, List.not_mem_nil, or_false, not_or] at other
  rw [signatureEnd_cons, if_neg (by simp [other]), if_neg (by simp [other]), if_neg (by simp [other]),
    if_neg fun both => both.2.elim (within both.1).1 (within both.1).2]

theorem signatureEnd_arrow : signatureEnd (before ++ dash :: greater :: rest) depth before.length =
    signatureEnd (before ++ [dash, greater] ++ rest) depth (before ++ [dash, greater]).length := by
  have first : signatureEnd (before ++ dash :: greater :: rest) depth before.length =
      signatureEnd (before ++ [dash] ++ greater :: rest) depth (before ++ [dash]).length :=
    signatureEnd_unit before (greater :: rest) depth (by decide) fun _ => by decide
  rw [first, signatureEnd_cons, if_neg (by decide), if_neg (by decide), if_neg (by simp), if_neg ?_]
  next => simp
  next => exact fun both => absurd both.2 (by decide)

end

theorem signatureEnd_render {forest : Forest} (formed : forest.WellFormed) (before rest : Text) {depth : Int}
    (inside : 0 < depth ∨ depth = 0 ∧ forest.Unterminated) :
    signatureEnd (before ++ (forest.render ++ rest)) depth before.length =
      signatureEnd (before ++ forest.render ++ rest) depth (before ++ forest.render).length := by
  induction forest generalizing before rest depth with
  | nil => simp [Forest.render]
  | unit own later ih =>
    have within : depth = 0 → own ≠ semicolon ∧ own ≠ braceOpen := by
      intro outside
      rcases inside with positive | ⟨-, ends⟩
      next => omega
      next => exact ⟨ends.1, ends.2.1⟩
    have further : 0 < depth ∨ depth = 0 ∧ later.Unterminated := inside.imp_right fun both => ⟨both.1, both.2.2.2⟩
    rw [Forest.render, List.cons_append, signatureEnd_unit before _ depth formed.1 within, ih formed.2 _ _ further]
    simp
  | arrow later ih =>
    rw [Forest.render, List.cons_append, List.cons_append, signatureEnd_arrow, ih formed _ _ inside]
    simp
  | group bracket children later within ih =>
    have deeper : 0 < depth + 1 := by omega
    have apart : bracket = .angle → (before ++ [bracket.opens] ++ children.render).getLast? ≠ some dash := by
      intro angle
      rw [List.getLast?_append, angle]
      cases last : children.render.getLast? with
      | none => simp [Bracket.opens, less, dash]
      | some own => simpa [last] using formed.2.1 angle
    rw [Forest.render, List.append_assoc, List.cons_append, List.cons_append, signatureEnd_opens,
      within formed.1 _ _ (.inl deeper), signatureEnd_closes _ _ _ bracket apart, Int.add_sub_cancel,
      ih formed.2.2 _ _ inside]
    simp

theorem signatureEnd_declaration {declaration : Forest} (formed : declaration.WellFormed)
    (within : declaration.Unterminated) {stop : UInt16} (stops : stop = semicolon ∨ stop = braceOpen)
    (before after : Text) :
    signatureEnd (before ++ (declaration.render ++ stop :: after)) 0 before.length =
      some (before.length + declaration.render.length) := by
  rw [signatureEnd_render formed before (stop :: after) (.inr ⟨rfl, within⟩), signatureEnd_cons]
  rcases stops with rfl | rfl
  next => simp [semicolon, parenOpen, parenClose, squareOpen, squareClose, less, greater]
  next => simp [braceOpen, parenOpen, parenClose, squareOpen, squareClose, less, greater]

theorem readSignature_declaration {declaration : Forest} (formed : declaration.WellFormed)
    (within : declaration.Unterminated) {stop : UInt16} (stops : stop = semicolon ∨ stop = braceOpen)
    (before after : Text) :
    readSignature (before ++ (declaration.render ++ stop :: after)) before.length =
      some (oneLine declaration.render ++ [semicolon]) := by
  rw [readSignature, signatureEnd_declaration formed within stops, Option.map_some, slice_eq,
    Nat.add_sub_cancel_left, List.drop_left, List.take_left]

/-- It stops at the end of the declaration and answers its tokens but for the trailing commas of parameter
lists. -/
def ReadsDeclaration (before after : Text) (declaration : Forest) (stop : UInt16) : Prop :=
  signatureEnd (before ++ (declaration.render ++ stop :: after)) 0 before.length =
      some (before.length + declaration.render.length) ∧
    ∃ signature, readSignature (before ++ (declaration.render ++ stop :: after)) before.length = some signature ∧
      tokens signature = tokens (declaration.without (· = .parameters)).render ++ [[semicolon]]

theorem readsDeclaration_iff (before after : Text) {declaration : Forest} (formed : declaration.WellFormed)
    (within : declaration.Unterminated) {stop : UInt16} (stops : stop = semicolon ∨ stop = braceOpen) :
    ReadsDeclaration before after declaration stop ↔ declaration.NoTupleComma := by
  have ended : tokens (oneLine declaration.render ++ [semicolon]) =
      tokens (oneLine declaration.render) ++ [[semicolon]] :=
    tokensFrom_append_delimiter _ _ (by decide) (by decide)
  rw [ReadsDeclaration, readSignature_declaration formed within stops]
  simp only [signatureEnd_declaration formed within stops, true_and, Option.some.injEq, exists_eq_left', ended,
    List.append_cancel_right_eq]
  exact Forest.tokens_oneLine_render formed

def Forest.units : Text → Forest → Forest
  | [], rest => rest
  | own :: more, rest => .unit own (units more rest)

-- `fn f(a:[u;4],)->u`
def wrappedParameters : Forest :=
  .units [0x66, 0x6E, 0x20, 0x66] <| .group .parameters
    (.units [0x61, 0x3A] <| .group .square (.units [0x75, 0x3B, 0x34] .nil) <| .units [0x2C] .nil) <|
    .arrow <| .units [0x75] .nil

-- `fn f(a:(u,))`
def oneTuple : Forest :=
  .units [0x66, 0x6E, 0x20, 0x66] <| .group .parameters
    (.units [0x61, 0x3A] <| .group .tuple (.units [0x75, 0x2C] .nil) .nil) .nil

theorem oneTuple_not_read : ¬ ∀ before after declaration stop, declaration.WellFormed → declaration.Unterminated →
    stop = semicolon ∨ stop = braceOpen → ReadsDeclaration before after declaration stop := by
  intro reads
  have formed : oneTuple.WellFormed := by
    simp [oneTuple, Forest.units, Forest.WellFormed, parenOpen, parenClose, squareOpen, squareClose, less, greater]
  have within : oneTuple.Unterminated := by
    simp [oneTuple, Forest.units, Forest.Unterminated, semicolon, braceOpen]
  obtain ⟨-, signature, read, same⟩ := reads [] [] oneTuple semicolon formed within (.inl rfl)
  rw [readSignature_declaration formed within (.inl rfl), Option.some.injEq] at read
  rw [← read] at same
  exact absurd same (by decide)

theorem wrappedParameters_read : ReadsDeclaration [] [] wrappedParameters braceOpen := by
  have formed : wrappedParameters.WellFormed := by
    simp [wrappedParameters, Forest.units, Forest.WellFormed, parenOpen, parenClose, squareOpen, squareClose, less,
      greater]
  have within : wrappedParameters.Unterminated := by
    simp [wrappedParameters, Forest.units, Forest.Unterminated, semicolon, braceOpen]
  refine (readsDeclaration_iff [] [] formed within (.inr rfl)).mpr ?_
  simp [wrappedParameters, Forest.units, Forest.NoTupleComma]

end SourceVerification.Viewer
