import SourceVerification.Shared.Regexes
import SourceVerification.Viewer.ReadSignature
import SourceVerification.Viewer.RustSource

set_option autoImplicit false

namespace SourceVerification.Viewer

open Regexes

def braceClose : UInt16 := 0x7D

def ascii (text : String) : Text :=
  text.toList.map fun char => UInt16.ofNat char.toNat

-- `\bfn\s+`
def fnKeyword : Regex UInt16 :=
  .seq (.place boundary) (.seq (.literal [0x66, 0x6E]) (.plus (.letter isSpace)))

-- `\bfn\s+<name>\b`, for a name without the characters that mean something in a pattern.
def fnPattern (name : Text) : Regex UInt16 :=
  .seq fnKeyword (.seq (.literal name) (.place boundary))

-- `\w+`
def word : Regex UInt16 :=
  .plus (.letter isWord)

-- `(?:pub(?:\([^)]*\))?\s+)?`
def visibility : Regex UInt16 :=
  .optional (.seq (.literal (ascii "pub"))
    (.seq (.optional (.seq (.literal [parenOpen]) (.seq (.many (.letter (· != parenClose))) (.literal [parenClose]))))
      (.plus (.letter isSpace))))

-- `#\[component\]\s*(?:pub(?:\([^)]*\))?\s+)?trait\b[^{]*\{`
def traitPattern : Regex UInt16 :=
  .seq (.literal (ascii "#[component]")) (.seq (.many (.letter isSpace)) (.seq visibility
    (.seq (.literal (ascii "trait")) (.seq (.place boundary)
      (.seq (.many (.letter (· != braceOpen))) (.literal [braceOpen]))))))

def noteScript : Regex UInt16 :=
  .literal (ascii "#[note_script]")

def depthAfter (depth : Nat) (unit : UInt16) : Nat :=
  if unit = braceOpen then depth + 1 else if unit = braceClose then depth - 1 else depth

def bodyEnd (masked : Text) (depth index : Nat) : Nat :=
  if inside : index < masked.length then
    if 0 < depth then bodyEnd masked (depthAfter depth masked[index]) (index + 1) else index
  else index
termination_by masked.length - index

-- The index of `/\bfn\s+(\w+)/g.exec(masked)`, and its group.
def nextFunction (masked : Text) (last : Nat) : Option (Nat × Text) := do
  let (index, _) ← exec masked (.seq fnKeyword word) last
  let (start, stop) ← matchSplit masked fnKeyword word index
  return (index, slice masked start stop)

def inTrait (masked name : Text) (bodyStart : Nat) : Option Nat := do
  let (index, _) ← exec masked (fnPattern name) bodyStart
  if index < bodyEnd masked 1 bodyStart then some index else none

def inNoteScript (masked name : Text) (noted : Nat) : Option Nat := do
  let (index, group) ← nextFunction masked noted
  if group = name then some index else none

def findFunction (masked name : Text) : Option Nat :=
  ((matchAll masked traitPattern).findSome? fun found => inTrait masked name found.2).or <|
    ((matchAll masked noteScript).findSome? fun found => inNoteScript masked name found.1).or <|
      (exec masked (fnPattern name) 0).map Prod.fst

/-- Word characters, and some of them. -/
def IsName (name : Text) : Prop :=
  name ≠ [] ∧ ∀ unit ∈ name, isWord unit = true

instance (name : Text) : Decidable (IsName name) :=
  decidable_of_iff (name ≠ [] ∧ name.all isWord = true) (and_congr_right fun _ => List.all_eq_true)

structure FnAt (masked : Text) (index start : Nat) : Prop where
  bounded : boundary masked index = true
  keyword : [0x66, 0x6E] <+: masked.drop index
  spaced : index + 2 < start
  gap : ∀ between, index + 2 ≤ between → between < start → masked[between]?.any isSpace = true

theorem isSpace_of_isWord {unit : UInt16} (word : isWord unit = true) : isSpace unit = false := by
  simp only [isWord, Bool.or_eq_true, Bool.and_eq_true, decide_eq_true_eq, UInt16.le_iff_toNat_le] at word
  simp only [isSpace, Bool.or_eq_false_iff, Bool.and_eq_false_iff, decide_eq_false_iff_not, UInt16.le_iff_toNat_le,
    List.contains_eq_mem, List.mem_cons, List.not_mem_nil, or_false, not_or, ← UInt16.toNat_inj]
  simp only [← UInt16.toNat_inj] at word
  simp only [UInt16.reduceToNat] at word ⊢
  omega

theorem spans_fnKeyword_iff {masked : Text} {index start : Nat} :
    Spans masked fnKeyword index start ↔ FnAt masked index start := by
  simp only [fnKeyword, spans_seq_iff, spans_place_iff, spans_literal_iff, spans_plus_letter_iff, and_assoc,
    exists_eq_left, List.length_cons, List.length_nil, Nat.zero_add, Nat.reduceAdd]
  constructor
  next => exact fun ⟨bounded, keyword, spaced, gap⟩ => ⟨bounded, keyword, spaced, gap⟩
  next => exact fun found => ⟨found.bounded, found.keyword, found.spaced, found.gap⟩

theorem takeWhile_drop_eq {accepts : UInt16 → Bool} {text part : Text} {start : Nat} (prefixed : part <+: text.drop start)
    (all : ∀ unit ∈ part, accepts unit = true) (ends : text[start + part.length]?.any accepts = false) :
    (text.drop start).takeWhile accepts = part := by
  obtain ⟨rest, whole⟩ := prefixed
  have next : (text.drop start)[part.length]? = rest.head? := by
    rw [← whole, List.getElem?_append_right (Nat.le_refl _), Nat.sub_self, List.head?_eq_getElem?]
  rw [List.getElem?_drop] at next
  rw [next] at ends
  rw [← whole, List.takeWhile_append_of_pos all]
  cases rest with
  | nil => simp
  | cons unit rest => simpa using ends

theorem name_at_iff {name masked : Text} {start : Nat} (named : IsName name) :
    name <+: masked.drop start ∧ boundary masked (start + name.length) = true ↔
      (masked.drop start).takeWhile isWord = name := by
  have filled : 0 < name.length := List.length_pos_iff.mpr named.1
  have last (prefixed : name <+: masked.drop start) : masked[start + name.length - 1]?.any isWord = true := by
    have inside : name.length - 1 < name.length := by omega
    have same := prefixed.getElem inside
    have place : start + (name.length - 1) = start + name.length - 1 := by omega
    rw [List.getElem_drop] at same
    have long := prefixed.length_le
    rw [List.length_drop] at long
    have within : start + (name.length - 1) < masked.length := by omega
    rw [← place, List.getElem?_eq_getElem within, ← same, Option.any_some]
    exact named.2 _ (List.getElem_mem inside)
  have bounded (prefixed : name <+: masked.drop start) : boundary masked (start + name.length) = true ↔
      masked[start + name.length]?.any isWord = false := by
    have positive : start + name.length ≠ 0 := by omega
    have place : (start + name.length != 0) = true := by simpa using positive
    simp [boundary, last prefixed, place]
  constructor
  next => exact fun ⟨prefixed, ends⟩ => takeWhile_drop_eq prefixed named.2 ((bounded prefixed).mp ends)
  next =>
    intro run
    have prefixed : name <+: masked.drop start := by
      rw [← run]
      exact List.takeWhile_prefix _
    refine ⟨prefixed, (bounded prefixed).mpr ?_⟩
    have rejected : masked[runEnd masked isWord start]?.any isWord = false := rejected_at_runEnd isWord start
    rwa [runEnd, run] at rejected

theorem FnAt.start_eq {masked : Text} {index start : Nat} (found : FnAt masked index start)
    (other : masked[start]?.any isSpace = false) : start = runEnd masked isSpace (index + 2) :=
  eq_runEnd (Nat.le_of_lt found.spaced) found.gap other

theorem word_of_takeWhile {masked name : Text} {start : Nat} (named : IsName name)
    (run : (masked.drop start).takeWhile isWord = name) : masked[start]?.any isWord = true := by
  have prefixed := List.takeWhile_prefix isWord (l := masked.drop start)
  rw [run] at prefixed
  obtain ⟨unit, rest, rfl⟩ := List.exists_cons_of_ne_nil named.1
  obtain ⟨later, same⟩ := prefixed
  rw [← List.head?_drop, ← same]
  exact named.2 unit (List.mem_cons_self ..)

theorem not_space_of_word {masked : Text} {start : Nat} (own : masked[start]?.any isWord = true) :
    masked[start]?.any isSpace = false := by
  cases unit : masked[start]? with
  | none => rfl
  | some unit' =>
    rw [unit] at own
    exact isSpace_of_isWord own

theorem declares_iff {name masked : Text} {index : Nat} (named : IsName name) : declares name masked index = true ↔
    ∃ start, FnAt masked index start ∧ (masked.drop start).takeWhile isWord = name := by
  have split : declares name masked index = true ↔ boundary masked index = true ∧ [0x66, 0x6E] <+: masked.drop index ∧
      index + 2 < runEnd masked isSpace (index + 2) ∧
      name <+: masked.drop (runEnd masked isSpace (index + 2)) ∧
      boundary masked (runEnd masked isSpace (index + 2) + name.length) = true := by
    rw [declares, Bool.and_eq_true, Bool.and_eq_true, Bool.and_eq_true, Bool.and_eq_true, List.isPrefixOf_iff_prefix,
      List.isPrefixOf_iff_prefix, and_assoc, and_assoc, and_assoc]
    have spaced : (!((masked.drop (index + 2)).takeWhile isSpace).isEmpty) = true ↔
        index + 2 < runEnd masked isSpace (index + 2) := by
      rw [runEnd, Bool.not_eq_true', List.isEmpty_eq_false_iff, ← List.length_pos_iff]
      omega
    rw [spaced, runEnd]
  rw [split, name_at_iff named]
  constructor
  next =>
    rintro ⟨bounded, keyword, spaced, run⟩
    exact ⟨_, ⟨bounded, keyword, spaced, fun between after before => accepted_of_lt_runEnd after before⟩, run⟩
  next =>
    rintro ⟨start, found, run⟩
    have same := found.start_eq (not_space_of_word (word_of_takeWhile named run))
    exact ⟨found.bounded, found.keyword, same ▸ found.spaced, same ▸ run⟩

theorem spans_fnPattern_iff {name masked : Text} {index : Nat} (named : IsName name) :
    (∃ stop, Spans masked (fnPattern name) index stop) ↔ declares name masked index = true := by
  rw [declares_iff named]
  simp only [fnPattern, spans_seq_iff, spans_fnKeyword_iff, spans_literal_iff, spans_place_iff]
  constructor
  next =>
    intro ⟨_, start, found, _, ⟨same, prefixed⟩, _, bounded⟩
    subst same
    exact ⟨start, found, (name_at_iff named).mp ⟨prefixed, bounded⟩⟩
  next =>
    intro ⟨start, found, run⟩
    obtain ⟨prefixed, bounded⟩ := (name_at_iff named).mpr run
    exact ⟨start + name.length, start, found, start + name.length, ⟨rfl, prefixed⟩, rfl, bounded⟩

theorem declares_lt {name masked : Text} {index : Nat} (declared : declares name masked index = true) :
    index < masked.length := by
  rw [declares] at declared
  simp only [Bool.and_eq_true, List.isPrefixOf_iff_prefix] at declared
  have long := declared.1.1.1.2.length_le
  simp only [List.length_cons, List.length_nil, List.length_drop] at long
  omega

theorem declares_unique {name other masked : Text} {index : Nat} (named : IsName name) (also : IsName other)
    (declared : declares name masked index = true) (declaredToo : declares other masked index = true) :
    name = other := by
  obtain ⟨start, found, run⟩ := (declares_iff named).mp declared
  obtain ⟨place, foundToo, runToo⟩ := (declares_iff also).mp declaredToo
  have same := found.start_eq (not_space_of_word (word_of_takeWhile named run))
  have sameToo := foundToo.start_eq (not_space_of_word (word_of_takeWhile also runToo))
  rw [← run, ← runToo, same, sameToo]

theorem isName_takeWhile {masked : Text} {start : Nat} (own : masked[start]?.any isWord = true) :
    IsName ((masked.drop start).takeWhile isWord) := by
  refine ⟨?_, fun unit member => List.mem_takeWhile_imp member⟩
  have inside : start < masked.length := by
    by_contra outside
    rw [List.getElem?_eq_none (by omega)] at own
    cases own
  rw [List.getElem?_eq_getElem inside, Option.any_some] at own
  rw [List.drop_eq_getElem_cons inside, List.takeWhile_cons, if_pos own]
  exact List.cons_ne_nil _ _

theorem spans_function_iff {masked : Text} {index : Nat} :
    (∃ stop, Spans masked (.seq fnKeyword word) index stop) ↔
      ∃ name, IsName name ∧ declares name masked index = true := by
  constructor
  next =>
    intro ⟨stop, start, found, worded⟩
    obtain ⟨forward, all⟩ := spans_plus_letter_iff.mp worded
    have named := isName_takeWhile (all start (Nat.le_refl _) forward)
    exact ⟨_, named, (declares_iff named).mpr ⟨start, spans_fnKeyword_iff.mp found, rfl⟩⟩
  next =>
    intro ⟨name, named, declared⟩
    obtain ⟨start, found, run⟩ := (declares_iff named).mp declared
    have own := word_of_takeWhile named run
    refine ⟨start + 1, start, spans_fnKeyword_iff.mpr found, spans_plus_letter_iff.mpr ⟨by omega, ?_⟩⟩
    intro place after before
    obtain rfl : place = start := by omega
    exact own

theorem slice_runEnd (accepts : UInt16 → Bool) (masked : Text) (start : Nat) :
    slice masked start (runEnd masked accepts start) = (masked.drop start).takeWhile accepts := by
  have prefixed := List.takeWhile_prefix accepts (l := masked.drop start)
  rw [slice_eq, runEnd, Nat.add_sub_cancel_left]
  exact (List.prefix_iff_eq_take.mp prefixed).symm

structure NextFunction (masked : Text) (last index : Nat) (name : Text) : Prop where
  behind : last ≤ index
  named : IsName name
  declared : declares name masked index = true
  first : ∀ earlier, last ≤ earlier → earlier < index → ∀ other, IsName other → declares other masked earlier = false

theorem nextFunction_spec {masked name : Text} {last index : Nat} (found : nextFunction masked last = some (index, name)) :
    NextFunction masked last index name := by
  obtain ⟨⟨place, stop⟩, first, rest⟩ := Option.bind_eq_some_iff.mp found
  obtain ⟨⟨start, ended⟩, split, answer⟩ := Option.bind_eq_some_iff.mp rest
  cases Option.some.inj answer
  have first := exec_eq_some_iff.mp first
  obtain ⟨keyword, preferred⟩ := Spans.of_matchSplit split
  obtain ⟨own, rfl⟩ := matchAt_plus_letter preferred
  have named := isName_takeWhile own
  rw [slice_runEnd]
  refine ⟨first.behind, named, (declares_iff named).mpr ⟨start, spans_fnKeyword_iff.mp keyword, rfl⟩, ?_⟩
  intro earlier behind before other also
  by_contra declared
  obtain ⟨stop, spans⟩ := spans_function_iff.mpr ⟨other, also, by simpa using declared⟩
  exact first.first earlier behind before stop spans

theorem nextFunction_isSome {masked name : Text} {last index : Nat} (behind : last ≤ index) (named : IsName name)
    (declared : declares name masked index = true) : (nextFunction masked last).isSome = true := by
  obtain ⟨stop, spans⟩ := spans_function_iff.mpr ⟨name, named, declared⟩
  cases first : exec masked (.seq fnKeyword word) last with
  | none => exact (exec_eq_none_iff.mp first index behind (Nat.le_of_lt (declares_lt declared)) stop spans).elim
  | some place =>
    obtain ⟨start, split⟩ := matchSplit_isSome (exec_eq_some_iff.mp first).preferred
    simp [nextFunction, first, split]

theorem nextFunction_eq_some_iff {masked name : Text} {last index : Nat} :
    nextFunction masked last = some (index, name) ↔ NextFunction masked last index name := by
  constructor
  next => exact nextFunction_spec
  next =>
    intro next
    obtain ⟨⟨place, other⟩, found⟩ :=
      Option.isSome_iff_exists.mp (nextFunction_isSome next.behind next.named next.declared)
    have spec := nextFunction_spec found
    have same : place = index := by
      rcases Nat.lt_trichotomy place index with before | same | behind
      next =>
        have declared := next.first place spec.behind before other spec.named
        rw [spec.declared] at declared
        cases declared
      next => exact same
      next =>
        have declared := spec.first index next.behind behind name next.named
        rw [next.declared] at declared
        cases declared
    subst same
    rw [found, declares_unique spec.named next.named spec.declared next.declared]

/-- No brace between the two closes the body that starts at the first. -/
def Inside (masked : Text) (bodyStart index : Nat) : Prop :=
  ∀ place, bodyStart ≤ place → place ≤ index →
    (slice masked bodyStart place).count braceClose ≤ (slice masked bodyStart place).count braceOpen

theorem slice_cons {masked : Text} {start stop : Nat} (inside : start < masked.length) (behind : start < stop) :
    slice masked start stop = masked[start] :: slice masked (start + 1) stop := by
  have count : stop - start = (stop - (start + 1)) + 1 := by omega
  rw [slice_eq, slice_eq, List.drop_eq_getElem_cons inside, count, List.take_succ_cons]

theorem slice_self (masked : Text) (start : Nat) : slice masked start start = [] := by
  rw [slice_eq, Nat.sub_self, List.take_zero]

theorem le_bodyEnd (masked : Text) (depth index : Nat) : index ≤ bodyEnd masked depth index := by
  fun_induction bodyEnd masked depth index <;> omega

theorem depthAfter_count {depth : Nat} (opened : 0 < depth) (unit : UInt16) (rest : Text) :
    rest.count braceClose < depthAfter depth unit + rest.count braceOpen ↔
      (unit :: rest).count braceClose < depth + (unit :: rest).count braceOpen := by
  have apart : braceOpen ≠ braceClose := by decide
  rw [depthAfter]
  split
  next opens =>
    rw [opens, List.count_cons_self, List.count_cons_of_ne apart]
    omega
  next other =>
    rw [List.count_cons_of_ne other]
    split
    next closes =>
      rw [closes, List.count_cons_self]
      omega
    next neither => rw [List.count_cons_of_ne neither]

theorem lt_bodyEnd_iff {masked : Text} {depth start index : Nat} (behind : start ≤ index) (within : index < masked.length) :
    index < bodyEnd masked depth start ↔ ∀ place, start ≤ place → place ≤ index →
      (slice masked start place).count braceClose < depth + (slice masked start place).count braceOpen := by
  fun_induction bodyEnd masked depth start with
  | case1 depth start inside opened ih =>
    rcases Nat.eq_or_lt_of_le behind with rfl | later
    next =>
      have after := le_bodyEnd masked (depthAfter depth masked[start]) (start + 1)
      refine iff_of_true (by omega) fun place from_start up_to => ?_
      obtain rfl : place = start := by omega
      simpa [slice_self] using opened
    next =>
      rw [ih later]
      constructor
      next =>
        intro all place from_start up_to
        rcases Nat.eq_or_lt_of_le from_start with rfl | beyond
        next => simpa [slice_self] using opened
        next =>
          rw [slice_cons inside beyond, ← depthAfter_count opened]
          exact all place beyond up_to
      next =>
        intro all place from_start up_to
        have counted := all place (by omega) up_to
        rw [slice_cons inside (by omega), ← depthAfter_count opened] at counted
        exact counted
  | case2 depth start inside closed =>
    refine iff_of_false (by omega) fun all => ?_
    have first := all start (Nat.le_refl _) behind
    simp only [slice_self, List.count_nil] at first
    omega
  | case3 depth start outside => omega

structure FirstDeclared (masked name : Text) (last index : Nat) : Prop where
  behind : last ≤ index
  declared : declares name masked index = true
  first : ∀ earlier, last ≤ earlier → earlier < index → declares name masked earlier = false

theorem FirstDeclared.unique {masked name : Text} {last index other : Nat} (here : FirstDeclared masked name last index)
    (there : FirstDeclared masked name last other) : index = other := by
  rcases Nat.lt_trichotomy index other with before | same | behind
  next =>
    have none := there.first index here.behind before
    rw [here.declared] at none
    cases none
  next => exact same
  next =>
    have none := here.first other there.behind behind
    rw [there.declared] at none
    cases none

theorem exec_fnPattern_iff {masked name : Text} {last index : Nat} (named : IsName name) :
    (exec masked (fnPattern name) last).map Prod.fst = some index ↔ FirstDeclared masked name last index := by
  have spec {place : Nat × Nat} (found : exec masked (fnPattern name) last = some place) :
      FirstDeclared masked name last place.1 := by
    have first := exec_eq_some_iff.mp found
    refine ⟨first.behind, (spans_fnPattern_iff named).mp ⟨place.2, first.spans⟩, fun earlier behind before => ?_⟩
    by_contra declared
    obtain ⟨stop, spans⟩ := (spans_fnPattern_iff named).mpr (by simpa using declared)
    exact first.first earlier behind before stop spans
  constructor
  next =>
    intro found
    obtain ⟨place, first, rfl⟩ := Option.map_eq_some_iff.mp found
    exact spec first
  next =>
    intro own
    obtain ⟨stop, spans⟩ := (spans_fnPattern_iff named).mpr own.declared
    cases found : exec masked (fnPattern name) last with
    | none =>
      exact (exec_eq_none_iff.mp found index own.behind (Nat.le_of_lt (declares_lt own.declared)) stop spans).elim
    | some place => rw [Option.map_some, (spec found).unique own]

theorem inTrait_eq_some_iff {masked name : Text} {bodyStart index : Nat} (named : IsName name) :
    inTrait masked name bodyStart = some index ↔
      FirstDeclared masked name bodyStart index ∧ Inside masked bodyStart index := by
  have body (own : FirstDeclared masked name bodyStart index) :
      index < bodyEnd masked 1 bodyStart ↔ Inside masked bodyStart index := by
    rw [lt_bodyEnd_iff own.behind (declares_lt own.declared), Inside]
    have same (left right : Nat) : left < 1 + right ↔ left ≤ right := by omega
    simp only [same]
  have read : inTrait masked name bodyStart = ((exec masked (fnPattern name) bodyStart).map Prod.fst).bind
      fun place => if place < bodyEnd masked 1 bodyStart then some place else none := by
    rw [inTrait]
    cases exec masked (fnPattern name) bodyStart <;> rfl
  rw [read, Option.bind_eq_some_iff]
  constructor
  next =>
    intro ⟨place, found, answer⟩
    split at answer
    next before =>
      cases Option.some.inj answer
      have own := (exec_fnPattern_iff named).mp found
      exact ⟨own, (body own).mp before⟩
    next => cases answer
  next => exact fun ⟨own, inside⟩ => ⟨index, (exec_fnPattern_iff named).mpr own, if_pos ((body own).mpr inside)⟩

theorem inNoteScript_eq_some_iff {masked name : Text} {noted index : Nat} :
    inNoteScript masked name noted = some index ↔ NextFunction masked noted index name := by
  have read : inNoteScript masked name noted = (nextFunction masked noted).bind
      fun found => if found.2 = name then some found.1 else none := by
    rw [inNoteScript]
    cases nextFunction masked noted <;> rfl
  rw [read, Option.bind_eq_some_iff, ← nextFunction_eq_some_iff]
  constructor
  next =>
    intro ⟨⟨place, group⟩, found, answer⟩
    split at answer
    next same =>
      cases Option.some.inj answer
      rw [found, ← same]
    next => cases answer
  next => exact fun found => ⟨(index, name), found, if_pos rfl⟩

def FirstOf {Place Answer : Type} (places : List Place) (answers : Place → Answer → Prop) (answer : Answer) : Prop :=
  ∃ before place after, places = before ++ place :: after ∧ answers place answer ∧
    ∀ earlier ∈ before, ∀ other, ¬ answers earlier other

def NoneOf {Place Answer : Type} (places : List Place) (answers : Place → Answer → Prop) : Prop :=
  ∀ place ∈ places, ∀ answer, ¬ answers place answer

theorem findSome?_eq_some_iff_firstOf {Place Answer : Type} {places : List Place} {find : Place → Option Answer}
    {answers : Place → Answer → Prop} (spec : ∀ place answer, find place = some answer ↔ answers place answer)
    {answer : Answer} : places.findSome? find = some answer ↔ FirstOf places answers answer := by
  rw [List.findSome?_eq_some_iff, FirstOf]
  simp only [Option.eq_none_iff_forall_ne_some, spec, ne_eq]

theorem findSome?_eq_none_iff_noneOf {Place Answer : Type} {places : List Place} {find : Place → Option Answer}
    {answers : Place → Answer → Prop} (spec : ∀ place answer, find place = some answer ↔ answers place answer) :
    places.findSome? find = none ↔ NoneOf places answers := by
  rw [List.findSome?_eq_none_iff, NoneOf]
  simp only [Option.eq_none_iff_forall_ne_some, spec, ne_eq]

/-- Where the bodies of the component traits start. -/
def componentTraits (masked : Text) : List Nat :=
  (matchAll masked traitPattern).map Prod.snd

def noteScripts (masked : Text) : List Nat :=
  (matchAll masked noteScript).map Prod.fst

def DeclaredIn (masked name : Text) (bodyStart index : Nat) : Prop :=
  FirstDeclared masked name bodyStart index ∧ Inside masked bodyStart index

def ScriptAt (masked name : Text) (noted index : Nat) : Prop :=
  NextFunction masked noted index name

/-- The first declaration in the first component trait that has one, else the function behind the first note script
attribute that has it behind it, else the first declaration of all. -/
inductive Preferred (masked name : Text) (index : Nat) : Prop
  | component (own : FirstOf (componentTraits masked) (DeclaredIn masked name) index)
  | script (components : NoneOf (componentTraits masked) (DeclaredIn masked name))
    (own : FirstOf (noteScripts masked) (ScriptAt masked name) index)
  | other (components : NoneOf (componentTraits masked) (DeclaredIn masked name))
    (scripts : NoneOf (noteScripts masked) (ScriptAt masked name))
    (own : FirstDeclared masked name 0 index)

theorem Preferred.declared {masked name : Text} {index : Nat} (found : Preferred masked name index) :
    declares name masked index = true := by
  cases found with
  | component own =>
    obtain ⟨_, _, _, -, first, -⟩ := own
    exact first.1.declared
  | script _ own =>
    obtain ⟨_, _, _, -, next, -⟩ := own
    exact next.declared
  | other _ _ own => exact own.declared

theorem findFunction_eq_some_iff {masked name : Text} {index : Nat} (named : IsName name) :
    findFunction masked name = some index ↔ Preferred masked name index := by
  have traits : ∀ bodyStart answer, inTrait masked name bodyStart = some answer ↔ DeclaredIn masked name bodyStart answer :=
    fun _ _ => inTrait_eq_some_iff named
  have scripts : ∀ noted answer, inNoteScript masked name noted = some answer ↔ ScriptAt masked name noted answer :=
    fun _ _ => inNoteScript_eq_some_iff
  have component : (matchAll masked traitPattern).findSome? (fun found => inTrait masked name found.2) =
      (componentTraits masked).findSome? (inTrait masked name) := by
    rw [componentTraits, List.findSome?_map]
    rfl
  have script : (matchAll masked noteScript).findSome? (fun found => inNoteScript masked name found.1) =
      (noteScripts masked).findSome? (inNoteScript masked name) := by
    rw [noteScripts, List.findSome?_map]
    rfl
  rw [findFunction, component, script, Option.or_eq_some_iff, Option.or_eq_some_iff,
    findSome?_eq_some_iff_firstOf traits, findSome?_eq_none_iff_noneOf traits, findSome?_eq_some_iff_firstOf scripts,
    findSome?_eq_none_iff_noneOf scripts, exec_fnPattern_iff named]
  constructor
  next =>
    rintro (own | ⟨components, own | ⟨scripts, own⟩⟩)
    next => exact .component own
    next => exact .script components own
    next => exact .other components scripts own
  next =>
    intro found
    cases found with
    | component own => exact .inl own
    | script components own => exact .inr ⟨components, .inl own⟩
    | other components scripts own => exact .inr ⟨components, .inr ⟨scripts, own⟩⟩

theorem findFunction_eq_none_iff {masked name : Text} (named : IsName name) :
    findFunction masked name = none ↔ ∀ index, declares name masked index = false := by
  constructor
  next =>
    intro none index
    rw [findFunction, Option.or_eq_none_iff, Option.or_eq_none_iff] at none
    by_contra declared
    obtain ⟨stop, spans⟩ := (spans_fnPattern_iff named).mpr (by simpa using declared)
    have within := Nat.le_of_lt (declares_lt (by simpa using declared))
    exact exec_eq_none_iff.mp (Option.map_eq_none_iff.mp none.2.2) index (Nat.zero_le _) within stop spans
  next =>
    intro undeclared
    cases found : findFunction masked name with
    | none => rfl
    | some index =>
      have declared := ((findFunction_eq_some_iff named).mp found).declared
      rw [undeclared index] at declared
      cases declared

theorem mem_noteScripts_iff {masked : Text} {noted : Nat} :
    noted ∈ noteScripts masked ↔ ascii "#[note_script]" <+: masked.drop noted := by
  -- No attribute starts inside of another.
  have others : ∀ place < (ascii "#[note_script]").length, 0 < place →
      (ascii "#[note_script]")[place]? ≠ (ascii "#[note_script]").head? := by decide
  constructor
  next =>
    intro member
    obtain ⟨found, listed, rfl⟩ := List.mem_map.mp member
    exact (spans_literal_iff.mp (Spans.of_matchAt (mem_matchAll listed))).2
  next =>
    intro prefixed
    have long := prefixed.length_le
    rw [List.length_drop] at long
    have within : noted ≤ masked.length := by
      have filled : 0 < (ascii "#[note_script]").length := by decide
      omega
    obtain ⟨found, listed, covers⟩ := matchAll_covers within (spans_literal_iff.mpr ⟨rfl, prefixed⟩)
    rcases covers with same | ⟨before, behind⟩
    next => exact List.mem_map.mpr ⟨found, listed, same⟩
    next =>
      obtain ⟨stop, starts⟩ := spans_literal_iff.mp (Spans.of_matchAt (mem_matchAll listed))
      have inside : noted - found.1 < (ascii "#[note_script]").length := by omega
      have place : found.1 + (noted - found.1) = noted := by omega
      have there : (ascii "#[note_script]")[noted - found.1]? = masked[noted]? := by
        rw [List.getElem?_eq_getElem inside, starts.getElem inside, ← List.getElem?_eq_getElem, List.getElem?_drop, place]
      have here : (ascii "#[note_script]").head? = masked[noted]? := by
        obtain ⟨rest, same⟩ := prefixed
        rw [← List.head?_drop, ← same]
        rfl
      exact (others _ inside (by omega) (there.trans here.symm)).elim

theorem noteScripts_pairwise (masked : Text) : (noteScripts masked).Pairwise (· < ·) :=
  List.pairwise_map.mpr ((matchAll_pairwise noteScript).imp And.left)

theorem traitPattern_forward {masked : Text} {start stop : Nat} (found : Spans masked traitPattern start stop) :
    start < stop := by
  obtain ⟨middle, attributed, rest⟩ := found
  have length : (ascii "#[component]").length = 12 := by decide
  have moved := (spans_literal_iff.mp attributed).1
  have forward := rest.bounds.1
  omega

theorem componentTraits_pairwise (masked : Text) : (componentTraits masked).Pairwise (· < ·) := by
  refine List.pairwise_map.mpr ((matchAll_pairwise traitPattern).imp_of_mem ?_)
  intro first second _ later apart
  have forward := traitPattern_forward (Spans.of_matchAt (mem_matchAll later))
  omega

/-- A function is found where it is declared, and where the compiler takes it from when there are several. -/
theorem findFunction_spec {masked name : Text} (named : IsName name) :
    (∀ index, findFunction masked name = some index ↔ Preferred masked name index) ∧
      (∀ index, findFunction masked name = some index → declares name masked index = true) ∧
      (findFunction masked name = none ↔ ∀ index, declares name masked index = false) ∧
      ((componentTraits masked).Pairwise (· < ·) ∧
        ∀ bodyStart ∈ componentTraits masked, ∃ start, Spans masked traitPattern start bodyStart) ∧
      (noteScripts masked).Pairwise (· < ·) ∧
        ∀ noted, noted ∈ noteScripts masked ↔ ascii "#[note_script]" <+: masked.drop noted := by
  refine ⟨fun _ => findFunction_eq_some_iff named, fun index found => ?_, findFunction_eq_none_iff named,
    ⟨componentTraits_pairwise masked, fun bodyStart member => ?_⟩, noteScripts_pairwise masked,
    fun _ => mem_noteScripts_iff⟩
  next => exact ((findFunction_eq_some_iff named).mp found).declared
  next =>
    obtain ⟨found, listed, rfl⟩ := List.mem_map.mp member
    exact ⟨found.1, .of_matchAt (mem_matchAll listed)⟩

def sendSource : Text :=
  ascii "impl A{fn send(){}}#[component] trait B{fn send();}"

theorem send_found_in_trait : findFunction sendSource (ascii "send") = some 40 ∧
    Preferred sendSource (ascii "send") 40 := by
  have named : IsName (ascii "send") := by decide
  have found : findFunction sendSource (ascii "send") = some 40 := by decide +kernel
  exact ⟨found, ((findFunction_spec named).1 40).mp found⟩

end SourceVerification.Viewer
