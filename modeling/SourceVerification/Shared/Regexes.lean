import Mathlib.Data.List.TakeWhile
import Mathlib.Logic.Relation

set_option autoImplicit false

namespace Regexes

inductive Regex (Letter : Type)
  | empty
  | letter (accepts : Letter → Bool)
  -- Takes no letter, and holds at some places only.
  | place (holds : List Letter → Nat → Bool)
  | seq (first second : Regex Letter)
  | alt (first second : Regex Letter)
  -- As often as it matches, and a letter at least each time.
  | many (inner : Regex Letter)

namespace Regex

variable {Letter : Type}

def plus (inner : Regex Letter) : Regex Letter :=
  seq inner (many inner)

def optional (inner : Regex Letter) : Regex Letter :=
  alt inner empty

def literal [DecidableEq Letter] : List Letter → Regex Letter
  | [] => empty
  | own :: rest => seq (letter (· = own)) (literal rest)

end Regex

open Regex

variable {Letter : Type} (text : List Letter)

def runEnd (accepts : Letter → Bool) (start : Nat) : Nat :=
  start + ((text.drop start).takeWhile accepts).length

def manyEnds (inner : Nat → List Nat) : Nat → Nat → List Nat
  | 0, start => [start]
  | fuel + 1, start =>
    (inner start).flatMap (fun stop => if start < stop then manyEnds inner fuel stop else []) ++ [start]

/-- Where the matches that start at a place end, the preferred one first. -/
def ends : Regex Letter → Nat → List Nat
  | empty => fun start => [start]
  | letter accepts => fun start => if text[start]?.any accepts then [start + 1] else []
  | place holds => fun start => if holds text start then [start] else []
  | seq first second => fun start => (ends first start).flatMap (ends second)
  | alt first second => fun start => ends first start ++ ends second start
  | many inner => fun start => manyEnds (ends inner) (text.length - start) start

def Spans : Regex Letter → Nat → Nat → Prop
  | empty => fun start stop => stop = start
  | letter accepts => fun start stop => stop = start + 1 ∧ text[start]?.any accepts = true
  | place holds => fun start stop => stop = start ∧ holds text start = true
  | seq first second => fun start stop => ∃ middle, Spans first start middle ∧ Spans second middle stop
  | alt first second => fun start stop => Spans first start stop ∨ Spans second start stop
  | many inner => Relation.ReflTransGen (Spans inner)

variable {text}

theorem accepted_of_lt_runEnd {accepts : Letter → Bool} {start index : Nat} (behind : start ≤ index)
    (before : index < runEnd text accepts start) : text[index]?.any accepts = true := by
  have inside : index - start < ((text.drop start).takeWhile accepts).length := by
    rw [runEnd] at before
    omega
  have same : text[index]? = some ((text.drop start).takeWhile accepts)[index - start] := by
    have prefixed := (List.takeWhile_prefix accepts (l := text.drop start)).getElem inside
    have place : start + (index - start) = index := by omega
    rw [prefixed, ← List.getElem?_eq_getElem, List.getElem?_drop, place]
  rw [same, Option.any_some]
  exact List.mem_takeWhile_imp (List.getElem_mem inside)

theorem rejected_at_runEnd (accepts : Letter → Bool) (start : Nat) :
    text[runEnd text accepts start]?.any accepts = false := by
  have rest : text.drop (runEnd text accepts start) = (text.drop start).dropWhile accepts := by
    have whole := congrArg (List.drop ((text.drop start).takeWhile accepts).length)
      (List.takeWhile_append_dropWhile (p := accepts) (l := text.drop start))
    rw [List.drop_left] at whole
    rw [runEnd, ← List.drop_drop, whole]
  rw [← List.head?_drop, rest]
  have first := List.head?_dropWhile_not accepts (text.drop start)
  cases head : ((text.drop start).dropWhile accepts).head? with
  | none => rfl
  | some own =>
    rw [head] at first
    simpa using first

theorem eq_runEnd {accepts : Letter → Bool} {start stop : Nat} (forward : start ≤ stop)
    (all : ∀ index, start ≤ index → index < stop → text[index]?.any accepts = true)
    (ends : text[stop]?.any accepts = false) : stop = runEnd text accepts start := by
  rcases Nat.lt_trichotomy stop (runEnd text accepts start) with before | same | behind
  next =>
    rw [accepted_of_lt_runEnd forward before] at ends
    cases ends
  next => exact same
  next =>
    have accepted := all (runEnd text accepts start) (Nat.le_add_right _ _) behind
    rw [rejected_at_runEnd] at accepted
    cases accepted

theorem runEnd_succ {accepts : Letter → Bool} {start : Nat} (own : text[start]?.any accepts = true) :
    runEnd text accepts (start + 1) = runEnd text accepts start := by
  apply eq_runEnd
  next => exact Nat.le_trans (Nat.le_succ start) (Nat.le_add_right _ _)
  next =>
    intro index after before
    rcases Nat.eq_or_lt_of_le after with rfl | later
    next => exact own
    next => exact accepted_of_lt_runEnd later before
  next => exact rejected_at_runEnd accepts (start + 1)

theorem Spans.bounds {regex : Regex Letter} {start stop : Nat} (found : Spans text regex start stop) :
    start ≤ stop ∧ (start < stop → stop ≤ text.length) := by
  induction regex generalizing start stop with
  | empty =>
    have same : stop = start := found
    omega
  | letter accepts =>
    have next : stop = start + 1 := found.1
    have inside : start < text.length := by
      by_contra outside
      have read := found.2
      rw [List.getElem?_eq_none (by omega)] at read
      cases read
    omega
  | place holds =>
    have same : stop = start := found.1
    omega
  | seq first second former latter =>
    obtain ⟨middle, left, right⟩ := found
    have before := former left
    have after := latter right
    omega
  | alt first second former latter => exact found.elim former latter
  | many inner ih =>
    induction found with
    | refl => omega
    | tail _ last before =>
      have step := ih last
      omega

theorem mem_manyEnds_iff {inner : Nat → List Nat} {limit : Nat}
    (bounds : ∀ start stop, stop ∈ inner start → start ≤ stop ∧ (start < stop → stop ≤ limit))
    {fuel start stop : Nat} (enough : limit ≤ start + fuel) :
    stop ∈ manyEnds inner fuel start ↔ Relation.ReflTransGen (fun start stop => stop ∈ inner start) start stop := by
  induction fuel generalizing start with
  | zero =>
    rw [manyEnds, List.mem_singleton]
    constructor
    next => exact fun same => same ▸ .refl
    next =>
      intro path
      induction path using Relation.ReflTransGen.head_induction_on with
      | refl => rfl
      | head step _ ih =>
        have forward := bounds _ _ step
        rw [ih (by omega)]
        omega
  | succ fuel ih =>
    rw [manyEnds, List.mem_append, List.mem_flatMap, List.mem_singleton]
    constructor
    next =>
      intro found
      rcases found with ⟨middle, step, later⟩ | rfl
      next =>
        split at later
        next => exact .head step ((ih (by omega)).mp later)
        next => cases later
      next => exact .refl
    next =>
      intro path
      induction path using Relation.ReflTransGen.head_induction_on with
      | refl => exact .inr rfl
      | @head start middle step path again =>
        have forward := bounds _ _ step
        by_cases moves : start < middle
        next =>
          refine .inl ⟨middle, step, ?_⟩
          rw [if_pos moves]
          exact (ih (by omega)).mpr path
        next =>
          obtain rfl : middle = start := by omega
          exact again enough

theorem mem_ends_iff {regex : Regex Letter} {start stop : Nat} :
    stop ∈ ends text regex start ↔ Spans text regex start stop := by
  induction regex generalizing start stop with
  | empty => simp [ends, Spans]
  | letter accepts => by_cases read : text[start]?.any accepts = true <;> simp [ends, Spans, read]
  | place holds => by_cases holding : holds text start = true <;> simp [ends, Spans, holding]
  | seq first second former latter => simp [ends, Spans, former, latter]
  | alt first second former latter => simp [ends, Spans, former, latter]
  | many inner ih =>
    have own : (fun start stop => stop ∈ ends text inner start) = Spans text inner := by
      funext start stop
      exact propext ih
    have bounds (start stop : Nat) (found : stop ∈ ends text inner start) :
        start ≤ stop ∧ (start < stop → stop ≤ text.length) :=
      (ih.mp found).bounds
    rw [ends, Spans, mem_manyEnds_iff bounds (by omega), own]

theorem ends_letter (accepts : Letter → Bool) (start : Nat) :
    ends text (letter accepts) start = if text[start]?.any accepts then [start + 1] else [] := rfl

theorem spans_seq_iff {first second : Regex Letter} {start stop : Nat} : Spans text (seq first second) start stop ↔
    ∃ middle, Spans text first start middle ∧ Spans text second middle stop :=
  Iff.rfl

theorem spans_letter_iff {accepts : Letter → Bool} {start stop : Nat} : Spans text (letter accepts) start stop ↔
    stop = start + 1 ∧ text[start]?.any accepts = true :=
  Iff.rfl

theorem spans_place_iff {holds : List Letter → Nat → Bool} {start stop : Nat} :
    Spans text (place holds) start stop ↔ stop = start ∧ holds text start = true :=
  Iff.rfl

theorem spans_literal_iff [DecidableEq Letter] {units : List Letter} {start stop : Nat} :
    Spans text (literal units) start stop ↔ stop = start + units.length ∧ units <+: text.drop start := by
  induction units generalizing start with
  | nil => simp [literal, Spans]
  | cons unit rest ih =>
    have next : text.drop (start + 1) = (text.drop start).tail := by
      rw [← List.drop_one, List.drop_drop]
    have here : text[start]? = (text.drop start).head? := by
      rw [List.head?_drop]
    simp only [literal, spans_seq_iff, spans_letter_iff, and_assoc, exists_eq_left, ih, next, here, List.length_cons]
    cases text.drop start with
    | nil => simp
    | cons own later =>
      simp only [List.head?_cons, Option.any_some, decide_eq_true_eq, List.tail_cons, List.cons_prefix_cons,
        eq_comm (a := own)]
      constructor
      next => exact fun ⟨same, stops, prefixed⟩ => ⟨by omega, same, prefixed⟩
      next => exact fun ⟨stops, same, prefixed⟩ => ⟨same, by omega, prefixed⟩

theorem spans_many_letter_iff {accepts : Letter → Bool} {start stop : Nat} :
    Spans text (many (letter accepts)) start stop ↔
      start ≤ stop ∧ ∀ index, start ≤ index → index < stop → text[index]?.any accepts = true := by
  constructor
  next =>
    intro path
    induction path with
    | refl => exact ⟨Nat.le_refl _, fun index after before => by omega⟩
    | tail _ last ih =>
      obtain ⟨rfl, read⟩ := last
      refine ⟨by omega, fun index after before => ?_⟩
      rcases Nat.lt_succ_iff_lt_or_eq.mp before with earlier | rfl
      next => exact ih.2 index after earlier
      next => exact read
  next =>
    intro ⟨forward, all⟩
    induction forward with
    | refl => exact .refl
    | @step stop forward ih =>
      have before := ih fun index after less => all index after (by omega)
      exact .tail before ⟨rfl, all stop forward (by omega)⟩

theorem spans_plus_letter_iff {accepts : Letter → Bool} {start stop : Nat} :
    Spans text (plus (letter accepts)) start stop ↔
      start < stop ∧ ∀ index, start ≤ index → index < stop → text[index]?.any accepts = true := by
  rw [plus, spans_seq_iff]
  constructor
  next =>
    rintro ⟨middle, ⟨rfl, read⟩, rest⟩
    obtain ⟨forward, all⟩ := spans_many_letter_iff.mp rest
    refine ⟨by omega, fun index after before => ?_⟩
    rcases Nat.eq_or_lt_of_le after with rfl | later
    next => exact read
    next => exact all index later before
  next =>
    intro ⟨forward, all⟩
    refine ⟨start + 1, ⟨rfl, all start (Nat.le_refl _) forward⟩, spans_many_letter_iff.mpr ⟨forward, ?_⟩⟩
    exact fun index after before => all index (by omega) before

theorem ends_ne_nil_iff {regex : Regex Letter} {start : Nat} :
    ends text regex start ≠ [] ↔ ∃ stop, Spans text regex start stop := by
  constructor
  next =>
    intro some
    obtain ⟨stop, found⟩ := List.exists_mem_of_ne_nil _ some
    exact ⟨stop, mem_ends_iff.mp found⟩
  next => exact fun ⟨stop, found⟩ => List.ne_nil_of_mem (mem_ends_iff.mpr found)

variable (text)

def matchAt (regex : Regex Letter) (start : Nat) : Option Nat :=
  (ends text regex start).head?

-- `regex.exec(text)` with such a `lastIndex`.
def exec (regex : Regex Letter) (last : Nat) : Option (Nat × Nat) :=
  ((List.range' last (text.length + 1 - last)).find? fun start => !(ends text regex start).isEmpty).bind
    fun start => (matchAt text regex start).map (start, ·)

def matchSplit (first second : Regex Letter) (start : Nat) : Option (Nat × Nat) :=
  ((ends text first start).flatMap fun middle => (ends text second middle).map (middle, ·)).head?

def matchFrom (regex : Regex Letter) : Nat → Nat → List (Nat × Nat)
  | 0, _ => []
  | fuel + 1, last =>
    match exec text regex last with
    | none => []
    -- Behind an empty match it looks from the next place on.
    | some (start, stop) => (start, stop) :: matchFrom regex fuel (if stop = start then stop + 1 else stop)

-- `text.matchAll(regex)`
def matchAll (regex : Regex Letter) : List (Nat × Nat) :=
  matchFrom text regex (text.length + 1) 0

/-- The first place from `last` on where a match starts, and the end of the preferred one there. -/
structure Found (regex : Regex Letter) (last start stop : Nat) : Prop where
  behind : last ≤ start
  within : start ≤ text.length
  preferred : matchAt text regex start = some stop
  first : ∀ earlier, last ≤ earlier → earlier < start → ∀ stop, ¬ Spans text regex earlier stop

variable {text}

theorem Spans.of_matchAt {regex : Regex Letter} {start stop : Nat} (found : matchAt text regex start = some stop) :
    Spans text regex start stop :=
  mem_ends_iff.mp (List.mem_of_mem_head? found)

theorem Found.spans {regex : Regex Letter} {last start stop : Nat} (found : Found text regex last start stop) :
    Spans text regex start stop :=
  .of_matchAt found.preferred

theorem exec_eq_some_iff {regex : Regex Letter} {last start stop : Nat} :
    exec text regex last = some (start, stop) ↔ Found text regex last start stop := by
  have nonempty (place : Nat) : (!(ends text regex place).isEmpty) = true ↔ ∃ stop, Spans text regex place stop := by
    rw [← ends_ne_nil_iff]
    simp
  constructor
  next =>
    intro found
    obtain ⟨place, first, same⟩ := Option.bind_eq_some_iff.mp found
    obtain ⟨own, preferred, pair⟩ := Option.map_eq_some_iff.mp same
    cases pair
    obtain ⟨-, listed, before⟩ := List.find?_range'_eq_some.mp first
    have bounds := List.mem_range'_1.mp listed
    refine ⟨bounds.1, by omega, preferred, fun earlier behind less other matching => ?_⟩
    have passed := before earlier behind less
    rw [(nonempty earlier).mpr ⟨other, matching⟩] at passed
    cases passed
  next =>
    intro found
    refine Option.bind_eq_some_iff.mpr ⟨start, List.find?_range'_eq_some.mpr ⟨?_, ?_, ?_⟩, ?_⟩
    next => exact (nonempty start).mpr ⟨stop, found.spans⟩
    next =>
      have behind := found.behind
      have within := found.within
      exact List.mem_range'_1.mpr (by omega)
    next =>
      intro earlier behind less
      by_contra matching
      obtain ⟨other, matching⟩ := (nonempty earlier).mp (by simpa using matching)
      exact found.first earlier behind less other matching
    next => rw [found.preferred, Option.map_some]

theorem exec_eq_none_iff {regex : Regex Letter} {last : Nat} : exec text regex last = none ↔
    ∀ start, last ≤ start → start ≤ text.length → ∀ stop, ¬ Spans text regex start stop := by
  constructor
  next =>
    intro nothing start behind within stop matching
    have listed : ∃ place ∈ List.range' last (text.length + 1 - last), (!(ends text regex place).isEmpty) = true := by
      refine ⟨start, List.mem_range'_1.mpr (by omega), ?_⟩
      simpa using ends_ne_nil_iff.mpr ⟨stop, matching⟩
    obtain ⟨place, first⟩ := Option.isSome_iff_exists.mp (List.find?_isSome.mpr listed)
    have other : ends text regex place ≠ [] := by simpa using List.find?_some first
    obtain ⟨own, rest, same⟩ := List.exists_cons_of_ne_nil other
    simp [exec, first, matchAt, same] at nothing
  next =>
    intro nowhere
    cases found : exec text regex last with
    | none => rfl
    | some place =>
      have first := exec_eq_some_iff.mp found
      exact (nowhere _ first.behind first.within _ first.spans).elim

theorem matchSplit_snd (first second : Regex Letter) (start : Nat) :
    (matchSplit text first second start).map Prod.snd = matchAt text (seq first second) start := by
  have own (middle : Nat) : ((ends text second middle).map (middle, ·)).map Prod.snd = ends text second middle := by
    rw [List.map_map]
    exact List.map_id _
  rw [matchSplit, matchAt, ends, ← List.head?_map, List.map_flatMap]
  simp only [own]

theorem Spans.of_matchSplit {first second : Regex Letter} {start middle stop : Nat}
    (found : matchSplit text first second start = some (middle, stop)) :
    Spans text first start middle ∧ matchAt text second middle = some stop := by
  rw [matchSplit, List.head?_flatMap] at found
  obtain ⟨place, listed, preferred⟩ := List.exists_of_findSome?_eq_some found
  rw [List.head?_map] at preferred
  obtain ⟨own, first, same⟩ := Option.map_eq_some_iff.mp preferred
  cases same
  exact ⟨mem_ends_iff.mp listed, first⟩

theorem matchSplit_isSome {first second : Regex Letter} {start stop : Nat}
    (found : matchAt text (seq first second) start = some stop) :
    ∃ middle, matchSplit text first second start = some (middle, stop) := by
  rw [← matchSplit_snd] at found
  obtain ⟨split, some, rfl⟩ := Option.map_eq_some_iff.mp found
  exact ⟨split.1, some⟩

theorem matchAt_many_letter (accepts : Letter → Bool) (start : Nat) :
    matchAt text (many (letter accepts)) start = some (runEnd text accepts start) := by
  have run (fuel start : Nat) (enough : text.length ≤ start + fuel) :
      (manyEnds (ends text (letter accepts)) fuel start).head? = some (runEnd text accepts start) := by
    induction fuel generalizing start with
    | zero =>
      rw [runEnd, List.drop_eq_nil_of_le (by omega)]
      rfl
    | succ fuel ih =>
      rw [manyEnds, ends_letter]
      by_cases own : text[start]?.any accepts = true
      next =>
        rw [if_pos own, List.flatMap_singleton, if_pos (Nat.lt_succ_self start), List.head?_append,
          ih (start + 1) (by omega), Option.some_or, runEnd_succ own]
      next =>
        have here : start = runEnd text accepts start :=
          eq_runEnd (Nat.le_refl _) (fun index after before => by omega) (by simpa using own)
        rw [if_neg own, ← here]
        rfl
  exact run _ _ (by omega)

theorem matchAt_plus_letter {accepts : Letter → Bool} {start stop : Nat}
    (found : matchAt text (plus (letter accepts)) start = some stop) :
    text[start]?.any accepts = true ∧ stop = runEnd text accepts start := by
  change ((ends text (letter accepts) start).flatMap (ends text (many (letter accepts)))).head? = some stop at found
  rw [ends_letter] at found
  split at found
  next own =>
    rw [List.flatMap_singleton, ← matchAt, matchAt_many_letter, runEnd_succ own] at found
    exact ⟨own, (Option.some.inj found).symm⟩
  next => cases found

theorem mem_matchFrom {regex : Regex Letter} {fuel last : Nat} {found : Nat × Nat}
    (listed : found ∈ matchFrom text regex fuel last) :
    last ≤ found.1 ∧ matchAt text regex found.1 = some found.2 := by
  induction fuel generalizing last with
  | zero => cases listed
  | succ fuel ih =>
    rw [matchFrom] at listed
    split at listed
    next => cases listed
    next start stop first =>
      have first := exec_eq_some_iff.mp first
      rcases List.mem_cons.mp listed with rfl | later
      next => exact ⟨first.behind, first.preferred⟩
      next =>
        have behind := first.behind
        have forward := first.spans.bounds.1
        obtain ⟨after, preferred⟩ := ih later
        refine ⟨?_, preferred⟩
        split at after <;> omega

theorem matchFrom_pairwise (regex : Regex Letter) (fuel last : Nat) :
    (matchFrom text regex fuel last).Pairwise fun first second => first.1 < second.1 ∧ first.2 ≤ second.1 := by
  induction fuel generalizing last with
  | zero => exact .nil
  | succ fuel ih =>
    rw [matchFrom]
    split
    next => exact .nil
    next start stop found =>
      have forward := (exec_eq_some_iff.mp found).spans.bounds.1
      refine .cons (fun later listed => ?_) (ih _)
      have after := (mem_matchFrom listed).1
      split at after <;> omega

theorem matchFrom_covers {regex : Regex Letter} {fuel last start stop : Nat} (enough : text.length < last + fuel)
    (behind : last ≤ start) (within : start ≤ text.length) (found : Spans text regex start stop) :
    ∃ listed ∈ matchFrom text regex fuel last,
      listed.1 = start ∨ listed.1 < start ∧ start < listed.2 := by
  induction fuel generalizing last with
  | zero => omega
  | succ fuel ih =>
    rw [matchFrom]
    cases first : exec text regex last with
    | none => exact (exec_eq_none_iff.mp first start behind within stop found).elim
    | some place =>
      have first := exec_eq_some_iff.mp first
      have forward := first.spans.bounds.1
      have after := first.behind
      have notBefore : place.1 ≤ start := by
        by_contra earlier
        exact first.first start behind (by omega) stop found
      by_cases covered : place.1 = start ∨ place.1 < start ∧ start < place.2
      next => exact ⟨place, List.mem_cons_self .., covered⟩
      next =>
        obtain ⟨listed, member, covers⟩ : ∃ listed ∈ matchFrom text regex fuel
            (if place.2 = place.1 then place.2 + 1 else place.2),
            listed.1 = start ∨ listed.1 < start ∧ start < listed.2 := by
          apply ih
          next => split <;> omega
          next => split <;> omega
        exact ⟨listed, List.mem_cons_of_mem _ member, covers⟩

theorem mem_matchAll {regex : Regex Letter} {found : Nat × Nat} (listed : found ∈ matchAll text regex) :
    matchAt text regex found.1 = some found.2 :=
  (mem_matchFrom listed).2

theorem matchAll_pairwise (regex : Regex Letter) :
    (matchAll text regex).Pairwise fun first second => first.1 < second.1 ∧ first.2 ≤ second.1 :=
  matchFrom_pairwise regex _ 0

theorem matchAll_covers {regex : Regex Letter} {start stop : Nat} (within : start ≤ text.length)
    (found : Spans text regex start stop) :
    ∃ listed ∈ matchAll text regex, listed.1 = start ∨ listed.1 < start ∧ start < listed.2 :=
  matchFrom_covers (by omega) (Nat.zero_le _) within found

end Regexes
