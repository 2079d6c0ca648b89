import Mathlib.Data.List.Infix
import Mathlib.Tactic.Push
import SourceVerification.Shared.Strings

set_option autoImplicit false

namespace Paths

abbrev Name := List Char

def dot : Name := ['.']

def dotDot : Name := ['.', '.']

def isAbsolute (path : List Char) : Bool :=
  path.head? = some '/'

def push (absolute : Bool) (names : List Name) (segment : Name) : List Name :=
  if segment = [] ∨ segment = dot then names
  else if segment = dotDot then
    match names with
    | [] => if absolute then [] else [dotDot]
    | last :: before => if last = dotDot then dotDot :: names else before
  else segment :: names

def names (path : List Char) : List Name :=
  ((path.splitOn '/').foldl (push (isAbsolute path)) []).reverse

def normalize (path : List Char) : List Char :=
  if path = [] then dot
  else
    let resolved := ['/'].intercalate (names path)
    let separator := if path.getLast? = some '/' then ['/'] else []
    if resolved = [] then (if isAbsolute path then ['/'] else dot ++ separator)
    else (if isAbsolute path then ['/'] else []) ++ resolved ++ separator

def join (first second : List Char) : List Char :=
  match [first, second].filter (· ≠ []) with
  | [] => dot
  | parts => normalize (['/'].intercalate parts)

structure Plain (name : Name) : Prop where
  nonempty : name ≠ []
  not_dot : name ≠ dot
  not_dotDot : name ≠ dotDot
  slash : '/' ∉ name

-- `path.substring(0, path.lastIndexOf("/"))`
def upToLastSlash (path : List Char) : List Char :=
  (path.rdropWhile (· ≠ '/')).dropLast

def dirname (path : List Char) : List Char :=
  let above := upToLastSlash (path.rdropWhile (· = '/'))
  if above = [] then (if isAbsolute path then ['/'] else dot)
  else if above = ['/'] then ['/', '/']
  else above

def relativeNames : List Name → List Name → List Name
  | name :: source, other :: target =>
    if name = other then relativeNames source target
    else (name :: source).map (fun _ => dotDot) ++ other :: target
  | source, target => source.map (fun _ => dotDot) ++ target

def relative (source target : List Char) : List Char :=
  ['/'].intercalate (relativeNames (names source) (names target))

structure Inside (directory path : List Char) : Prop where
  absolute : isAbsolute path = true
  below : names directory <+: names path

structure StrictlyInside (directory path : List Char) : Prop extends Inside directory path where
  other : names path ≠ names directory

instance (name : Name) : Decidable (Plain name) :=
  decidable_of_iff (name ≠ [] ∧ name ≠ dot ∧ name ≠ dotDot ∧ '/' ∉ name)
    ⟨fun ⟨nonempty, not_dot, not_dotDot, slash⟩ => ⟨nonempty, not_dot, not_dotDot, slash⟩,
      fun plain => ⟨plain.nonempty, plain.not_dot, plain.not_dotDot, plain.slash⟩⟩

theorem not_mem_of_mem_splitOn {path segment : List Char} (member : segment ∈ path.splitOn '/') :
    '/' ∉ segment := by
  induction path generalizing segment with
  | nil =>
    obtain rfl := List.mem_singleton.mp member
    simp
  | cons char rest ih =>
    obtain ⟨first, others, split⟩ := List.exists_cons_of_ne_nil (List.splitOn_ne_nil '/' rest)
    rw [List.splitOn_cons_eq_if_modifyHead] at member
    split at member
    next =>
      rcases List.mem_cons.mp member with rfl | later
      · simp
      · exact ih later
    next other =>
      have plain : '/' ≠ char := fun same => other (by simp [← same])
      rw [split] at member ih
      rcases List.mem_cons.mp member with rfl | later
      · simpa [plain] using ih (List.mem_cons_self ..)
      · exact ih (List.mem_cons_of_mem _ later)

theorem foldl_push_plain {absolute : Bool} {stack segments : List Name}
    (plain : ∀ segment ∈ segments, Plain segment) :
    segments.foldl (push absolute) stack = segments.reverse ++ stack := by
  induction segments generalizing stack with
  | nil => rfl
  | cons segment rest ih =>
    have first := plain segment (List.mem_cons_self ..)
    have pushed : push absolute stack segment = segment :: stack := by
      simp [push, first.nonempty, first.not_dot, first.not_dotDot]
    rw [List.foldl_cons, pushed, ih fun other member => plain other (List.mem_cons_of_mem _ member)]
    simp

theorem push_plain {stack : List Name} {segment : Name} (plain : ∀ name ∈ stack, Plain name)
    (slash : '/' ∉ segment) : ∀ name ∈ push true stack segment, Plain name := by
  unfold push
  split
  next => exact plain
  next real =>
    split
    next =>
      cases stack with
      | nil => simp
      | cons last before =>
        simp only [(plain last (List.mem_cons_self ..)).not_dotDot, if_false]
        exact fun name member => plain name (List.mem_cons_of_mem _ member)
    next up =>
      push Not at real
      intro name member
      rcases List.mem_cons.mp member with rfl | old
      · exact ⟨real.1, real.2, up, slash⟩
      · exact plain name old

theorem foldl_push_absolute {stack segments : List Name} (plain : ∀ name ∈ stack, Plain name)
    (slashes : ∀ segment ∈ segments, '/' ∉ segment) :
    ∀ name ∈ segments.foldl (push true) stack, Plain name := by
  induction segments generalizing stack with
  | nil => exact plain
  | cons segment rest ih =>
    exact ih (push_plain plain (slashes segment (List.mem_cons_self ..)))
      fun other member => slashes other (List.mem_cons_of_mem _ member)

section

variable {path : List Char} (absolute : isAbsolute path = true)

include absolute

theorem names_plain : ∀ name ∈ names path, Plain name := by
  intro name member
  rw [names, absolute, List.mem_reverse] at member
  exact foldl_push_absolute (by simp) (fun _ => not_mem_of_mem_splitOn) name member

theorem absolute_eq_cons : ∃ rest, path = '/' :: rest :=
  List.head?_eq_some_iff.mp (of_decide_eq_true absolute)

theorem isAbsolute_append (rest : List Char) : isAbsolute (path ++ rest) = true := by
  obtain ⟨tail, rfl⟩ := absolute_eq_cons absolute
  rfl

theorem names_append (rest : List Char) : names (path ++ '/' :: rest) =
    ((rest.splitOn '/').foldl (push true) (names path).reverse).reverse := by
  rw [names, isAbsolute_append absolute, List.splitOn_append_cons_self, List.foldl_append, names,
    absolute, List.reverse_reverse]

theorem names_append_plain {rest : List Char} (plain : ∀ segment ∈ rest.splitOn '/', Plain segment) :
    names (path ++ '/' :: rest) = names path ++ rest.splitOn '/' := by
  rw [names_append absolute, foldl_push_plain plain]
  simp

theorem names_slash : names (path ++ ['/']) = names path := by
  rw [names_append absolute]
  simp [push]

end

def text (names : List Name) : List Char :=
  '/' :: ['/'].intercalate names

theorem isAbsolute_text (names : List Name) : isAbsolute (text names) = true := rfl

theorem intercalate_eq_nil_iff {names : List Name} (plain : ∀ name ∈ names, Plain name) :
    ['/'].intercalate names = [] ↔ names = [] := by
  constructor
  · intro empty
    cases names with
    | nil => rfl
    | cons first rest =>
      have nonempty := (plain first (List.mem_cons_self ..)).nonempty
      cases rest with
      | nil => exact absurd (by simpa using empty) nonempty
      | cons second others => simp [List.intercalate_cons_of_ne_nil] at empty
  · rintro rfl
    rfl

theorem splitOn_intercalate {names : List Name} (plain : ∀ name ∈ names, Plain name) (some : names ≠ []) :
    (['/'].intercalate names).splitOn '/' = names :=
  List.splitOn_intercalate '/' (fun name member => (plain name member).slash) some

theorem names_slash_cons (rest : List Char) :
    names ('/' :: rest) = ((rest.splitOn '/').foldl (push true) []).reverse := by
  have split : ('/' :: rest).splitOn '/' = [] :: rest.splitOn '/' := by
    simp [List.splitOn_cons_eq_if_modifyHead]
  rw [names, split]
  rfl

theorem names_text {names : List Name} (plain : ∀ name ∈ names, Plain name) :
    Paths.names (text names) = names := by
  rw [text, names_slash_cons]
  by_cases empty : names = []
  next =>
    subst empty
    rfl
  next =>
    rw [splitOn_intercalate plain empty, foldl_push_plain plain]
    simp

theorem normalize_absolute {path : List Char} (absolute : isAbsolute path = true) :
    normalize path = text (names path) ∨
      names path ≠ [] ∧ path.getLast? = some '/' ∧ normalize path = text (names path) ++ ['/'] := by
  obtain ⟨rest, rfl⟩ := absolute_eq_cons absolute
  have plain := names_plain absolute
  unfold normalize
  simp only [List.cons_ne_nil, if_false, absolute, if_true, intercalate_eq_nil_iff plain]
  split_ifs with none ends
  next =>
    rw [none]
    exact .inl rfl
  next => exact .inr ⟨none, ends, rfl⟩
  next =>
    refine .inl ?_
    simp [text]

theorem names_normalize {path : List Char} (absolute : isAbsolute path = true) :
    isAbsolute (normalize path) = true ∧ names (normalize path) = names path := by
  have plain := names_plain absolute
  rcases normalize_absolute absolute with same | ⟨-, -, same⟩
  · rw [same]
    exact ⟨isAbsolute_text _, names_text plain⟩
  · rw [same, names_slash (isAbsolute_text _)]
    exact ⟨isAbsolute_append (isAbsolute_text _) _, names_text plain⟩

theorem join_eq_normalize {directory : List Char} (absolute : isAbsolute directory = true)
    {path : List Char} (nonempty : path ≠ []) :
    join directory path = normalize (directory ++ '/' :: path) := by
  obtain ⟨rest, rfl⟩ := absolute_eq_cons absolute
  simp [join, nonempty, List.intercalate_cons_of_ne_nil]

theorem names_join {directory : List Char} (absolute : isAbsolute directory = true)
    {path : List Char} (nonempty : path ≠ []) :
    isAbsolute (join directory path) = true ∧
      names (join directory path) =
        ((path.splitOn '/').foldl (push true) (names directory).reverse).reverse := by
  rw [join_eq_normalize absolute nonempty, ← names_append absolute]
  exact names_normalize (isAbsolute_append absolute _)

theorem join_plain {directory : List Char} (absolute : isAbsolute directory = true) {path : List Char}
    (plain : ∀ segment ∈ path.splitOn '/', Plain segment) :
    join directory path = text (names directory ++ path.splitOn '/') := by
  have nonempty : path ≠ [] := by
    rintro rfl
    exact (plain [] (by decide)).nonempty rfl
  have unended : (directory ++ '/' :: path).getLast? ≠ some '/' := by
    intro ends
    rw [List.getLast?_append, List.getLast?_cons] at ends
    obtain ⟨before, same⟩ := List.getLast?_eq_some_iff.mp (show path.getLast? = some '/' by
      simpa [List.getLast?_eq_some_getLast nonempty] using ends)
    rw [same, List.splitOn_append_cons_self] at plain
    exact (plain [] (by simp)).nonempty rfl
  rw [join_eq_normalize absolute nonempty, ← names_append_plain absolute plain]
  rcases normalize_absolute (isAbsolute_append absolute _) with same | ⟨-, ends, -⟩
  · exact same
  · exact absurd ends unended

theorem intercalate_concat {names : List Name} (last : Name) (above : names ≠ []) :
    ['/'].intercalate (names ++ [last]) = ['/'].intercalate names ++ '/' :: last := by
  induction names with
  | nil => exact absurd rfl above
  | cons first rest ih =>
    by_cases single : rest = []
    next => simp [single, List.intercalate_cons_of_ne_nil]
    next =>
      rw [List.cons_append, List.intercalate_cons_of_ne_nil (by simp), ih single,
        List.intercalate_cons_of_ne_nil single]
      simp

theorem text_concat {names : List Name} (last : Name) (above : names ≠ []) :
    text (names ++ [last]) = text names ++ '/' :: last := by
  simp [text, intercalate_concat last above]

theorem names_concat {path : List Char} {segments : List Name} {name : Name} (plain : Plain name)
    (split : path.splitOn '/' = segments ++ [name]) : ∃ before, names path = before ++ [name] := by
  refine ⟨(segments.foldl (push (isAbsolute path)) []).reverse, ?_⟩
  rw [names, split, List.foldl_append]
  simp [push, plain.nonempty, plain.not_dot, plain.not_dotDot]

theorem join_name (directory : List Char) {name : Name} (plain : Plain name) :
    join directory name = name ∨ ∃ before, join directory name = before ++ '/' :: name := by
  have single : name.splitOn '/' = [name] := List.splitOn_eq_singleton plain.slash
  obtain ⟨path, start, joined, ends, split⟩ : ∃ path start, join directory name = normalize path ∧
      path = start ++ name ∧ ∃ segments, path.splitOn '/' = segments ++ [name] := by
    by_cases here : directory = []
    next => exact ⟨name, [], by simp [join, here, plain.nonempty], rfl, [], single⟩
    next =>
      refine ⟨directory ++ '/' :: name, directory ++ ['/'], ?_, by simp, directory.splitOn '/', ?_⟩
      · simp [join, here, plain.nonempty, List.intercalate_cons_of_ne_nil]
      · rw [List.splitOn_append_cons_self, single]
  obtain ⟨segments, split⟩ := split
  obtain ⟨before, resolved⟩ := names_concat plain split
  have unended : path.getLast? ≠ some '/' := by
    intro last
    rw [ends, List.getLast?_append_of_ne_nil _ plain.nonempty] at last
    exact plain.slash (List.mem_of_getLast? last)
  have nonempty : path ≠ [] := by simp [ends, plain.nonempty]
  rw [joined, normalize, if_neg nonempty, resolved]
  simp only [unended, if_false, List.append_nil]
  by_cases above : before = []
  next =>
    subst above
    by_cases absolute : isAbsolute path = true
    next => exact .inr ⟨[], by simp [absolute, plain.nonempty]⟩
    next => exact .inl (by simp [absolute, plain.nonempty])
  next =>
    refine .inr ⟨(if isAbsolute path then ['/'] else []) ++ ['/'].intercalate before, ?_⟩
    simp [intercalate_concat name above]

theorem ne_slash {name : Name} (slash : '/' ∉ name) : ∀ char ∈ name, decide (char ≠ '/') = true :=
  fun _ member => decide_eq_true fun same => slash (same ▸ member)

theorem upToLastSlash_append (before : List Char) {last : Name} (slash : '/' ∉ last) :
    upToLastSlash (before ++ '/' :: last) = before := by
  have cut : (before ++ ['/']).rdropWhile (· ≠ '/') = before ++ ['/'] := by simp
  rw [upToLastSlash, ← List.singleton_append, ← List.append_assoc, Strings.rdropWhile_append_of_pos _ (ne_slash slash),
    cut, List.dropLast_concat]

theorem upToLastSlash_text {names : List Name} {last : Name} (slash : '/' ∉ last) (above : names ≠ []) :
    upToLastSlash (text (names ++ [last])) = text names := by
  rw [text_concat last above, upToLastSlash_append _ slash]

theorem exists_text_concat (names : List Name) (last : Name) :
    ∃ before, text (names ++ [last]) = before ++ '/' :: last := by
  by_cases above : names = []
  next => exact ⟨[], by simp [above, text]⟩
  next => exact ⟨text names, text_concat last above⟩

theorem rdropWhile_text {names : List Name} {last : Name} {drop : Char → Bool} (nonempty : last ≠ [])
    (kept : drop (last.getLast nonempty) = false) :
    (text (names ++ [last])).rdropWhile drop = text (names ++ [last]) := by
  obtain ⟨before, same⟩ := exists_text_concat names last
  refine List.rdropWhile_eq_self_iff.mpr fun present => ?_
  simp [same, List.getLast_cons nonempty, kept]

theorem dirname_text {names : List Name} {last : Name} (plain : ∀ name ∈ names, Plain name)
    (slash : '/' ∉ last) (nonempty : last ≠ []) : dirname (text (names ++ [last])) = text names := by
  have kept : decide (last.getLast nonempty = '/') = false :=
    decide_eq_false fun same => slash (same ▸ List.getLast_mem nonempty)
  rw [dirname, rdropWhile_text nonempty kept]
  by_cases above : names = []
  next =>
    subst above
    have passed : upToLastSlash (text ([] ++ [last])) = [] := by
      simpa [text] using upToLastSlash_append [] slash
    rw [passed]
    rfl
  next =>
    have below : text names ≠ ['/'] := by
      simpa [text] using (intercalate_eq_nil_iff plain).not.mpr above
    simp only [upToLastSlash_text slash above, below, if_false]
    simp [text]

theorem relativeNames_append (source below : List Name) : relativeNames source (source ++ below) = below := by
  induction source with
  | nil => cases below <;> rfl
  | cons name rest ih => simpa [relativeNames] using ih

theorem relativeNames_outside {source target : List Name} (outside : ¬ source <+: target) :
    ∃ rest, relativeNames source target = dotDot :: rest := by
  induction source generalizing target with
  | nil => exact absurd List.nil_prefix outside
  | cons name source ih =>
    cases target with
    | nil => exact ⟨_, rfl⟩
    | cons other target =>
      unfold relativeNames
      split
      next same =>
        refine ih fun inside => outside ?_
        exact List.cons_prefix_cons.mpr ⟨same, inside⟩
      next => exact ⟨_, rfl⟩

theorem dotDot_prefix_relativeNames {source target : List Name} (outside : ¬ source <+: target) :
    dotDot <+: ['/'].intercalate (relativeNames source target) := by
  obtain ⟨rest, up⟩ := relativeNames_outside outside
  rw [up]
  cases rest with
  | nil => exact List.prefix_refl _
  | cons name rest =>
    rw [List.intercalate_cons_of_ne_nil (List.cons_ne_nil _ _), List.append_assoc]
    exact List.prefix_append _ _

-- A path starts with `..` when its first segment does.
theorem dotDot_prefix_slash {name rest : List Char} : dotDot <+: name ++ '/' :: rest ↔ dotDot <+: name := by
  match name with
  | [] | [_] | _ :: _ :: _ => simp [dotDot, List.cons_prefix_cons]

def resolve (cwd : List Name) (path : List Char) : List Name :=
  ((path.splitOn '/').foldl (push true) (if isAbsolute path then [] else cwd.reverse)).reverse

structure Segment (name : Name) : Prop where
  nonempty : name ≠ []
  not_dot : name ≠ dot
  slash : '/' ∉ name

theorem push_segment {absolute : Bool} {stack : List Name} {segment : Name} (slash : '/' ∉ segment)
    (steps : ∀ name ∈ stack, Segment name) : ∀ name ∈ push absolute stack segment, Segment name := by
  have up : Segment dotDot := ⟨by decide, by decide, by decide⟩
  unfold push
  split
  next => exact steps
  next real =>
    split
    next =>
      cases stack with
      | nil => cases absolute <;> simp [up]
      | cons last before =>
        dsimp only
        split
        next => exact List.forall_mem_cons.mpr ⟨up, steps⟩
        next => exact fun name member => steps name (List.mem_cons_of_mem _ member)
    next =>
      push Not at real
      exact List.forall_mem_cons.mpr ⟨⟨real.1, real.2, slash⟩, steps⟩

theorem foldl_push_segment {absolute : Bool} {segments : List Name}
    (slashes : ∀ segment ∈ segments, '/' ∉ segment) :
    ∀ name ∈ segments.foldl (push absolute) [], Segment name := by
  induction segments using List.reverseRecOn with
  | nil => simp
  | append_singleton segments segment ih =>
    rw [List.foldl_append, List.foldl_cons, List.foldl_nil]
    exact push_segment (slashes segment (by simp)) (ih fun other member => slashes other (by simp [member]))

theorem push_up {absolute : Bool} {last : Name} (before : List Name) (other : last ≠ dotDot) :
    push absolute (last :: before) dotDot = before := by
  rw [push, if_neg (by decide), if_pos rfl]
  exact if_neg other

theorem foldl_push_names {absolute : Bool} {start : List Name} (top : absolute = true → start = [])
    {segments : List Name} (slashes : ∀ segment ∈ segments, '/' ∉ segment) :
    (segments.foldl (push absolute) []).reverse.foldl (push true) start =
      segments.foldl (push true) start := by
  induction segments using List.reverseRecOn with
  | nil => rfl
  | append_singleton segments segment ih =>
    have earlier : ∀ other ∈ segments, '/' ∉ other := fun other member => slashes other (by simp [member])
    have steps : ∀ name ∈ segments.foldl (push absolute) [], Segment name := foldl_push_segment earlier
    have same := ih earlier
    rw [List.foldl_append, List.foldl_cons, List.foldl_nil, List.foldl_append, List.foldl_cons, List.foldl_nil,
      ← same]
    generalize segments.foldl (push absolute) [] = stack at steps
    have grown (entered : push absolute stack segment = segment :: stack) :
        (push absolute stack segment).reverse.foldl (push true) start =
          push true (stack.reverse.foldl (push true) start) segment := by
      rw [entered, List.reverse_cons, List.foldl_append, List.foldl_cons, List.foldl_nil]
    by_cases skipped : segment = [] ∨ segment = dot
    next => simp [push, skipped]
    next =>
      by_cases up : segment = dotDot
      next =>
        subst up
        cases stack with
        | nil =>
          cases absolute with
          | false => exact grown rfl
          | true => simp [push, dotDot, dot, top rfl]
        | cons last before =>
          by_cases above : last = dotDot
          next =>
            refine grown ?_
            simp [push, above, dotDot, dot]
          next =>
            have step := steps last (List.mem_cons_self ..)
            have entered : ∀ stack, push true stack last = last :: stack := by
              simp [push, above, step.nonempty, step.not_dot]
            rw [push_up _ above, List.reverse_cons, List.foldl_append, List.foldl_cons, List.foldl_nil,
              entered, push_up _ above]
      next =>
        refine grown ?_
        simp [push, skipped, up]

theorem resolve_slash (cwd : List Name) {path : List Char} (nonempty : path ≠ []) :
    resolve cwd (path ++ ['/']) = resolve cwd path := by
  have same : isAbsolute (path ++ ['/']) = isAbsolute path := by
    simp [isAbsolute, List.head?_append_of_ne_nil _ nonempty]
  rw [resolve, resolve, same, List.splitOn_append_cons_self]
  simp [push]

theorem resolve_relative (cwd : List Name) {path : List Char} (relative : isAbsolute path = false) :
    resolve cwd path = ((path.splitOn '/').foldl (push true) cwd.reverse).reverse := by
  simp [resolve, relative]

theorem resolve_absolute (cwd : List Name) {path : List Char} (absolute : isAbsolute path = true) :
    resolve cwd path = names path := by
  simp [resolve, names, absolute]

theorem resolve_dot (cwd : List Name) : resolve cwd dot = cwd := by
  have split : dot.splitOn '/' = [dot] := by decide
  simp [resolve_relative cwd (by decide : isAbsolute dot = false), split, push]

theorem resolve_normalize (cwd : List Name) {path : List Char} (nonempty : path ≠ []) :
    resolve cwd (normalize path) = resolve cwd path := by
  by_cases absolute : isAbsolute path = true
  next =>
    obtain ⟨still, same⟩ := names_normalize absolute
    rw [resolve_absolute cwd still, same, resolve_absolute cwd absolute]
  next =>
    rw [Bool.not_eq_true] at absolute
    have slashes : ∀ segment ∈ path.splitOn '/', '/' ∉ segment := fun _ => not_mem_of_mem_splitOn
    have steps : ∀ name ∈ names path, Segment name :=
      fun name member => foldl_push_segment slashes name (List.mem_reverse.mp member)
    have walked : (names path).foldl (push true) cwd.reverse = (path.splitOn '/').foldl (push true) cwd.reverse :=
      foldl_push_names (by simp [absolute]) slashes
    rw [resolve_relative cwd absolute, ← walked]
    by_cases nowhere : names path = []
    next =>
      have dots : normalize path = dot ∨ normalize path = dot ++ ['/'] := by
        have empty : ['/'].intercalate ([] : List Name) = [] := rfl
        simp only [normalize, nonempty, if_false, nowhere, empty, if_true, absolute, Bool.false_eq_true]
        split_ifs
        next => exact .inr rfl
        next => exact .inl (List.append_nil dot)
      have here := resolve_dot cwd
      rw [nowhere]
      rcases dots with same | same
      next => simp [same, here]
      next => simp [same, resolve_slash cwd (by decide : dot ≠ []), here]
    next =>
      have split : (['/'].intercalate (names path)).splitOn '/' = names path :=
        List.splitOn_intercalate '/' (fun name member => (steps name member).slash) nowhere
      have written : ['/'].intercalate (names path) ≠ [] := by
        intro empty
        rw [empty] at split
        exact (steps [] (by rw [← split]; simp)).nonempty rfl
      have relative : isAbsolute (['/'].intercalate (names path)) = false := by
        by_contra absolute
        obtain ⟨rest, shape⟩ := absolute_eq_cons (by simpa using absolute)
        rw [shape, List.splitOn_cons_eq_if_modifyHead] at split
        exact (steps [] (by rw [← split]; simp)).nonempty rfl
      have shape : normalize path = ['/'].intercalate (names path) ∨
          normalize path = ['/'].intercalate (names path) ++ ['/'] := by
        simp only [normalize, nonempty, if_false, written, absolute, Bool.false_eq_true, List.nil_append]
        split_ifs
        next => exact .inr rfl
        next => exact .inl (List.append_nil _)
      have same : resolve cwd (normalize path) = resolve cwd (['/'].intercalate (names path)) := by
        rcases shape with same | same
        next => rw [same]
        next => rw [same, resolve_slash cwd written]
      rw [same, resolve_relative cwd relative, split]

theorem push_name {name : Name} (plain : Plain name) (absolute : Bool) (stack : List Name) :
    push absolute stack name = name :: stack := by
  simp [push, plain.nonempty, plain.not_dot, plain.not_dotDot]

theorem resolve_nil (cwd : List Name) : resolve cwd [] = cwd := by
  simp [resolve, isAbsolute, push]

theorem resolve_name (cwd : List Name) {name : Name} (plain : Plain name) : resolve cwd name = cwd ++ [name] := by
  have relative : isAbsolute name = false := by
    by_contra absolute
    obtain ⟨rest, shape⟩ := absolute_eq_cons (by simpa using absolute)
    exact plain.slash (by simp [shape])
  rw [resolve_relative cwd relative, List.splitOn_eq_singleton plain.slash]
  simp [push_name plain]

theorem resolve_slash_name (cwd : List Name) (before : List Char) {name : Name} (plain : Plain name) :
    resolve cwd (before ++ '/' :: name) = (if before = [] then [] else resolve cwd before) ++ [name] := by
  have split : name.splitOn '/' = [name] := List.splitOn_eq_singleton plain.slash
  by_cases top : before = []
  next =>
    have absolute : isAbsolute ('/' :: name) = true := rfl
    rw [if_pos top, top, List.nil_append, resolve_absolute cwd absolute, names_slash_cons, split]
    simp [push_name plain]
  next =>
    have same : isAbsolute (before ++ '/' :: name) = isAbsolute before := by
      simp [isAbsolute, List.head?_append_of_ne_nil _ top]
    rw [if_neg top, resolve, same, List.splitOn_append_cons_self, split, List.foldl_append]
    simp [push_name plain, resolve]

theorem resolve_join (cwd : List Name) (directory : List Char) {name : Name} (plain : Plain name) :
    resolve cwd (join directory name) = resolve cwd directory ++ [name] := by
  by_cases empty : directory = []
  next =>
    have joined : join directory name = normalize name := by
      simp [join, empty, plain.nonempty]
    rw [joined, resolve_normalize cwd plain.nonempty, resolve_name cwd plain, empty, resolve_nil]
  next =>
    have joined : join directory name = normalize (directory ++ '/' :: name) := by
      simp [join, empty, plain.nonempty, List.intercalate_cons_of_ne_nil]
    rw [joined, resolve_normalize cwd (by simp), resolve_slash_name cwd directory plain, if_neg empty]

theorem rdropWhile_slash (before : List Char) {name : Name} (plain : Plain name) :
    (before ++ name).rdropWhile (· = '/') = before ++ name := by
  refine List.rdropWhile_eq_self_iff.mpr fun present => ?_
  rw [List.getLast_append_of_ne_nil _ plain.nonempty, decide_eq_true_eq]
  intro slash
  exact plain.slash (slash ▸ List.getLast_mem plain.nonempty)

theorem dirname_name {name : Name} (plain : Plain name) : dirname name = dot := by
  have kept : name.rdropWhile (· = '/') = name := rdropWhile_slash [] plain
  have none : upToLastSlash name = [] := by
    rw [upToLastSlash, List.rdropWhile_eq_nil_iff.mpr (ne_slash plain.slash)]
    rfl
  have relative : ¬ isAbsolute name = true := by
    intro absolute
    obtain ⟨rest, shape⟩ := absolute_eq_cons absolute
    exact plain.slash (by simp [shape])
  rw [dirname, kept, none, if_pos rfl, if_neg relative]

theorem resolve_dirname_slash (cwd : List Name) (before : List Char) {name : Name} (plain : Plain name) :
    resolve cwd (dirname (before ++ '/' :: name)) = if before = [] then [] else resolve cwd before := by
  have kept : (before ++ '/' :: name).rdropWhile (· = '/') = before ++ '/' :: name := by
    simpa using rdropWhile_slash (before ++ ['/']) plain
  have slashes : resolve cwd ['/'] = [] ∧ resolve cwd ['/', '/'] = [] := by
    constructor <;> rfl
  rw [dirname, kept, upToLastSlash_append before plain.slash]
  by_cases top : before = []
  next =>
    have absolute : isAbsolute (before ++ '/' :: name) = true := by
      rw [top]
      rfl
    rw [if_pos top, if_pos top, if_pos absolute, slashes.1]
  next =>
    rw [if_neg top, if_neg top]
    split
    next root => rw [root, slashes.1, slashes.2]
    next => rfl

theorem resolve_dirname_join (cwd : List Name) (directory : List Char) {name : Name} (plain : Plain name) :
    resolve cwd (dirname (join directory name)) = resolve cwd directory := by
  have joined := resolve_join cwd directory plain
  rcases join_name directory plain with alone | ⟨before, below⟩
  next =>
    rw [alone, resolve_name cwd plain, List.append_left_inj] at joined
    rw [alone, dirname_name plain, resolve_dot]
    exact joined
  next =>
    rw [below, resolve_slash_name cwd before plain, List.append_left_inj] at joined
    rw [below, resolve_dirname_slash cwd before plain, joined]

end Paths
