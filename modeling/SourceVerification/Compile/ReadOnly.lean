import Mathlib.Data.Fintype.Sigma
import SourceVerification.Shared.Walks
import SourceVerification.Words

set_option autoImplicit false

namespace SourceVerification.ReadOnly

inductive Access
  | readOnly
  | stateChanging
  | unknown
deriving DecidableEq

namespace Access

def join : Access → Access → Access
  | .stateChanging, _ | _, .stateChanging => .stateChanging
  | .unknown, _ | _, .unknown => .unknown
  | _, _ => .readOnly

def severity : Access → Nat
  | .readOnly => 0
  | .unknown => 1
  | .stateChanging => 2

theorem severity_injective {a b : Access} (same : a.severity = b.severity) : a = b := by
  cases a <;> cases b <;> first | rfl | cases same

instance : SemilatticeSup Access where
  le a b := a.severity ≤ b.severity
  le_refl a := Nat.le_refl a.severity
  le_trans _ _ _ := Nat.le_trans
  le_antisymm _ _ ab ba := severity_injective (Nat.le_antisymm ab ba)
  sup := join
  le_sup_left a b := by cases a <;> cases b <;> decide
  le_sup_right a b := by cases a <;> cases b <;> decide
  sup_le a b c ac bc := by cases a <;> cases b <;> cases c <;> first | decide | exact ac | exact bc

instance : OrderTop Access where
  top := .stateChanging
  le_top a := by cases a <;> decide

example : Access.readOnly < .unknown ∧ Access.unknown < .stateChanging :=
  ⟨⟨by decide, by decide⟩, ⟨by decide, by decide⟩⟩

theorem readOnly_le (a : Access) : .readOnly ≤ a := Nat.zero_le _

theorem le_readOnly {a : Access} (below : a ≤ .readOnly) : a = .readOnly :=
  severity_injective (Nat.le_zero.mp below)

end Access

inductive MastNode (Id : Type)
  | block
  | join (first second : Id)
  | split (onTrue onFalse : Id)
  | loop (body : Id)
  | call (callee : Id) (isSyscall : Bool)
  | dyn
  | external

def MastNode.isExternal {Id : Type} : MastNode Id → Bool
  | .external => true
  | _ => false

structure MastForest where
  size : Nat
  node : Fin size → MastNode (Fin size)
  digest : Fin size → Word
  findProcedureRoot : Word → Option (Fin size)

abbrev Position (forests : List MastForest) :=
  Σ index : Fin forests.length, Fin (forests.get index).size

section Analysis

variable (protocol : Word → Option Access) {forests : List MastForest}

def nodeAt (position : Position forests) : MastNode (Fin (forests.get position.1).size) :=
  (forests.get position.1).node position.2

def digestAt (position : Position forests) : Word :=
  (forests.get position.1).digest position.2

def bodyIn (forests : List MastForest) (digest : Word) (index : Fin forests.length) :
    Option (Position forests) :=
  (((forests.get index).findProcedureRoot digest).filter fun id =>
    !((forests.get index).node id).isExternal).map fun id => ⟨index, id⟩

def visit (position : Position forests) : Worklist.Visit (Position forests) Access :=
  match protocol (digestAt position) with
  -- Called (an external node) or linked in (a node with the same digest): the classification
  -- stands for the body.
  | some access => { label := access, push := [], returns := true }
  | none =>
    match nodeAt position with
    | .block => { label := .readOnly, push := [], returns := false }
    | .join first second =>
      { label := .readOnly, push := [⟨position.1, first⟩, ⟨position.1, second⟩], returns := false }
    | .split onTrue onFalse =>
      { label := .readOnly, push := [⟨position.1, onTrue⟩, ⟨position.1, onFalse⟩], returns := false }
    | .loop body => { label := .readOnly, push := [⟨position.1, body⟩], returns := false }
    | .call _ true => { label := .unknown, push := [], returns := false }
    | .call callee false => { label := .readOnly, push := [⟨position.1, callee⟩], returns := false }
    | .dyn => { label := .unknown, push := [], returns := false }
    | .external =>
      match Fin.findSome? (bodyIn forests (digestAt position)) with
      | some found => { label := .readOnly, push := [found], returns := false }
      | none => { label := .unknown, push := [], returns := false }

end Analysis

structure Analyzer where
  protocol : Word → Option Access
  -- The libraries an external procedure is looked up in, after the package.
  libraries : List MastForest

def Analyzer.entry (analyzer : Analyzer) (forest : MastForest) (root : Fin forest.size) :
    Position (forest :: analyzer.libraries) :=
  ⟨⟨0, Nat.succ_pos _⟩, root⟩

def Analyzer.procedure (analyzer : Analyzer) (forest : MastForest) (root : Fin forest.size) :
    Access :=
  Worklist.search (visit analyzer.protocol) ∅ [analyzer.entry forest root] .readOnly

inductive Effect
  | protocol (access : Access)
  | syscall
  | dynamicCall
  | unresolved

section Execution

variable (protocol : Word → Option Access) {forests : List MastForest}

/-- The body an external node stands for: in the first forest where the procedure root of the
digest is not itself a reference. -/
def IsBody (digest : Word) (body : Position forests) : Prop :=
  (forests.get body.1).findProcedureRoot digest = some body.2 ∧
    (nodeAt body).isExternal = false ∧
    ∀ index < body.1, ∀ id, (forests.get index).findProcedureRoot digest = some id →
      ((forests.get index).node id).isExternal = true

/-- One step of an execution: the nodes still to run, the next one first, and what running the
next one performs. -/
inductive Executes : List (Position forests) → Option Effect → List (Position forests) → Prop
  | protocol {position rest access} (known : protocol (digestAt position) = some access) :
    Executes (position :: rest) (some (.protocol access)) rest
  | block {position rest} (other : protocol (digestAt position) = none)
    (node : nodeAt position = .block) : Executes (position :: rest) none rest
  | join {position rest first second} (other : protocol (digestAt position) = none)
    (node : nodeAt position = .join first second) :
    Executes (position :: rest) none (⟨position.1, first⟩ :: ⟨position.1, second⟩ :: rest)
  | splitTrue {position rest onTrue onFalse} (other : protocol (digestAt position) = none)
    (node : nodeAt position = .split onTrue onFalse) :
    Executes (position :: rest) none (⟨position.1, onTrue⟩ :: rest)
  | splitFalse {position rest onTrue onFalse} (other : protocol (digestAt position) = none)
    (node : nodeAt position = .split onTrue onFalse) :
    Executes (position :: rest) none (⟨position.1, onFalse⟩ :: rest)
  | loopDone {position rest body} (other : protocol (digestAt position) = none)
    (node : nodeAt position = .loop body) : Executes (position :: rest) none rest
  | loopAgain {position rest body} (other : protocol (digestAt position) = none)
    (node : nodeAt position = .loop body) :
    Executes (position :: rest) none (⟨position.1, body⟩ :: position :: rest)
  | call {position rest callee} (other : protocol (digestAt position) = none)
    (node : nodeAt position = .call callee false) :
    Executes (position :: rest) none (⟨position.1, callee⟩ :: rest)
  | syscall {position rest callee} (other : protocol (digestAt position) = none)
    (node : nodeAt position = .call callee true) :
    Executes (position :: rest) (some .syscall) rest
  | dyn {position rest} (other : protocol (digestAt position) = none)
    (node : nodeAt position = .dyn) : Executes (position :: rest) (some .dynamicCall) rest
  | external {position rest} {body : Position forests} (other : protocol (digestAt position) = none)
    (node : nodeAt position = .external) (found : IsBody (digestAt position) body) :
    Executes (position :: rest) none (body :: rest)
  | unresolved {position rest} (other : protocol (digestAt position) = none)
    (node : nodeAt position = .external) (none_found : ∀ body : Position forests, ¬ IsBody (digestAt position) body) :
    Executes (position :: rest) (some .unresolved) rest

def Runs : List (Position forests) → List (Position forests) → Prop :=
  Relation.ReflTransGen fun stack next => ∃ effect, Executes protocol stack effect next

/-- No execution from `start` performs a state-changing or unclassified protocol procedure, a
direct syscall, a dynamic call or an external that no forest resolves. -/
def OnlyReads (start : Position forests) : Prop :=
  ∀ stack next effect, Runs protocol [start] stack → Executes protocol stack (some effect) next →
    effect = .protocol .readOnly

theorem bodyIn_eq_some {digest : Word} {index : Fin forests.length} {body : Position forests} :
    bodyIn forests digest index = some body ↔
      ∃ id, (forests.get index).findProcedureRoot digest = some id ∧
        ((forests.get index).node id).isExternal = false ∧ body = ⟨index, id⟩ := by
  simp only [bodyIn, Option.map_eq_some_iff, Option.filter_eq_some_iff, Bool.not_eq_eq_eq_not,
    Bool.not_true, and_assoc]
  exact exists_congr fun id => and_congr_right fun _ => and_congr_right fun _ => eq_comm

theorem bodyIn_eq_none {digest : Word} {index : Fin forests.length} :
    bodyIn forests digest index = none ↔
      ∀ id, (forests.get index).findProcedureRoot digest = some id →
        ((forests.get index).node id).isExternal = true := by
  simp [bodyIn, Option.filter_eq_none_iff]

theorem findBody_eq_some {digest : Word} {body : Position forests} :
    Fin.findSome? (bodyIn forests digest) = some body ↔ IsBody digest body := by
  rw [Fin.findSome?_eq_some_iff]
  simp only [bodyIn_eq_some, bodyIn_eq_none]
  constructor
  · rintro ⟨index, ⟨id, found, inside, rfl⟩, before⟩
    exact ⟨found, inside, before⟩
  · rintro ⟨found, inside, before⟩
    exact ⟨body.1, ⟨body.2, found, inside, rfl⟩, before⟩

theorem findBody_eq_none {digest : Word} (none_found : ∀ body : Position forests, ¬ IsBody digest body) :
    Fin.findSome? (bodyIn forests digest) = none := by
  cases result : Fin.findSome? (bodyIn forests digest) with
  | none => rfl
  | some body => exact absurd (findBody_eq_some.mp result) (none_found body)

theorem executes_pushes {position : Position forests} {rest stack : List (Position forests)}
    {effect : Option Effect} (step : Executes protocol (position :: rest) effect stack) :
    ∀ next ∈ stack, next = position ∨ next ∈ (visit protocol position).push ∨ next ∈ rest := by
  cases step with
  | external other node found =>
    simp only [visit, other, node, findBody_eq_some.mpr found, List.mem_cons, List.not_mem_nil,
      or_false, forall_eq_or_imp, true_or, or_true, true_and]
    exact fun next left => .inr (.inr left)
  | _ => simp_all [visit]

theorem executes_effect {position : Position forests} {rest stack : List (Position forests)}
    {effect : Effect} (step : Executes protocol (position :: rest) (some effect) stack)
    (quiet : (visit protocol position).label = .readOnly) : effect = .protocol .readOnly := by
  cases step with
  | protocol known => simp_all [visit]
  | syscall other node => simp [visit, other, node] at quiet
  | dyn other node => simp [visit, other, node] at quiet
  | unresolved other node none_found =>
    simp [visit, other, node, findBody_eq_none none_found] at quiet

theorem runs_reaches {root : Position forests} {stack : List (Position forests)}
    (run : Runs protocol [root] stack) :
    ∀ position ∈ stack, Worklist.Reaches (visit protocol) root position := by
  induction run with
  | refl => simp [Worklist.Reaches, Relation.ReflTransGen.refl]
  | @tail before after _ step ih =>
    obtain ⟨effect, step⟩ := step
    cases before with
    | nil => cases step
    | cons position rest =>
      intro next member
      rcases executes_pushes protocol step next member with rfl | pushed | left
      · exact ih _ (by simp)
      · exact (ih position (by simp)).tail pushed
      · exact ih next (by simp [left])

end Execution

theorem procedure_readOnly_sound (analyzer : Analyzer) (forest : MastForest)
    (root : Fin forest.size) (readOnly : analyzer.procedure forest root = .readOnly) :
    OnlyReads analyzer.protocol (analyzer.entry forest root) := by
  intro stack next effect run step
  cases stack with
  | nil => cases step
  | cons position rest =>
    have reached := runs_reaches analyzer.protocol run position (by simp)
    have below := Worklist.label_le_search_root (visit analyzer.protocol) _ .readOnly reached
    have quiet : (visit analyzer.protocol position).label = .readOnly :=
      Access.le_readOnly (below.trans (le_of_eq readOnly))
    exact executes_effect analyzer.protocol step quiet

def blockForest (word : Word) : MastForest where
  size := 1
  node _ := .block
  digest _ := word
  findProcedureRoot asked := if word = asked then some 0 else none

def joinForest (self first second : Word) : MastForest where
  size := 3
  node
    | 0 => .join 1 2
    | 1 | 2 => .external
  digest
    | 0 => self
    | 1 => first
    | 2 => second
  findProcedureRoot asked := if self = asked then some 0 else none

def getterRoot : Word :=
  ⟨"0x0000000000000000000000000000000000000000000000000000000000000001", by decide⟩

def getItemRoot : Word :=
  ⟨"0x0000000000000000000000000000000000000000000000000000000000000002", by decide⟩

def hashRoot : Word :=
  ⟨"0x0000000000000000000000000000000000000000000000000000000000000003", by decide⟩

def getterAnalyzer : Analyzer where
  protocol word := if word = getItemRoot then some .readOnly else none
  libraries := [blockForest hashRoot]

def getterForest : MastForest := joinForest getterRoot getItemRoot hashRoot

def getterNode (id : Fin 3) : Position (getterForest :: getterAnalyzer.libraries) := ⟨0, id⟩

def hashBody : Position (getterForest :: getterAnalyzer.libraries) := ⟨1, (0 : Fin 1)⟩

theorem hash_body : IsBody (digestAt (getterNode 2)) hashBody := by
  refine ⟨rfl, rfl, ?_⟩
  intro index before id found
  obtain rfl : index = 0 := Fin.ext (Nat.lt_one_iff.mp before)
  cases found

theorem getter_readOnly :
    getterAnalyzer.procedure getterForest (0 : Fin 3) = .readOnly := by
  have atRoot : visit getterAnalyzer.protocol (getterNode 0) =
      ⟨.readOnly, [getterNode 1, getterNode 2], false⟩ := rfl
  have atGetItem : visit getterAnalyzer.protocol (getterNode 1) = ⟨.readOnly, [], true⟩ := rfl
  have atHash : visit getterAnalyzer.protocol (getterNode 2) = ⟨.readOnly, [hashBody], false⟩ := by
    have other : getterAnalyzer.protocol (digestAt (getterNode 2)) = none := rfl
    have node : nodeAt (getterNode 2) = .external := rfl
    simp [visit, other, node, findBody_eq_some.mpr hash_body]
  have atBody : visit getterAnalyzer.protocol hashBody = ⟨.readOnly, [], false⟩ := rfl
  change Worklist.search (visit _) ∅ [getterNode 0] Access.readOnly = .readOnly
  rw [Worklist.search_fresh (by decide) (by decide), atRoot]
  change Worklist.search (visit _) _ [getterNode 2, getterNode 1] Access.readOnly = .readOnly
  rw [Worklist.search_fresh (by decide) (by rw [atHash]; decide), atHash]
  change Worklist.search (visit _) _ [hashBody, getterNode 1] Access.readOnly = .readOnly
  rw [Worklist.search_fresh (by decide) (by decide), atBody]
  change Worklist.search (visit _) _ [getterNode 1] Access.readOnly = .readOnly
  rw [Worklist.search_fresh (by decide) (by decide), atGetItem]
  exact Worklist.search_nil _ _ _

theorem getter_only_reads :
    OnlyReads getterAnalyzer.protocol
      (getterAnalyzer.entry getterForest (0 : Fin 3)) :=
  procedure_readOnly_sound _ _ _ getter_readOnly

section LeastBound

variable (protocol : Word → Option Access) {forests : List MastForest}

/-- The nodes a node leads to, where the walk is cut at the protocol procedures. -/
inductive Follows (position : Position forests) : Position forests → Prop
  | joinFirst {first second} (other : protocol (digestAt position) = none)
    (node : nodeAt position = .join first second) : Follows position ⟨position.1, first⟩
  | joinSecond {first second} (other : protocol (digestAt position) = none)
    (node : nodeAt position = .join first second) : Follows position ⟨position.1, second⟩
  | onTrue {onTrue onFalse} (other : protocol (digestAt position) = none)
    (node : nodeAt position = .split onTrue onFalse) : Follows position ⟨position.1, onTrue⟩
  | onFalse {onTrue onFalse} (other : protocol (digestAt position) = none)
    (node : nodeAt position = .split onTrue onFalse) : Follows position ⟨position.1, onFalse⟩
  | body {body} (other : protocol (digestAt position) = none)
    (node : nodeAt position = .loop body) : Follows position ⟨position.1, body⟩
  | callee {callee} (other : protocol (digestAt position) = none)
    (node : nodeAt position = .call callee false) : Follows position ⟨position.1, callee⟩
  | external {body} (other : protocol (digestAt position) = none)
    (node : nodeAt position = .external) (found : IsBody (digestAt position) body) :
    Follows position body

def Reachable : Position forests → Position forests → Prop :=
  Relation.ReflTransGen (Follows protocol)

inductive Contributes (position : Position forests) : Access → Prop
  | protocol {access} (known : protocol (digestAt position) = some access) : Contributes position access
  | syscall {callee} (other : protocol (digestAt position) = none)
    (node : nodeAt position = .call callee true) : Contributes position .unknown
  | dyn (other : protocol (digestAt position) = none) (node : nodeAt position = .dyn) :
    Contributes position .unknown
  | unresolved (other : protocol (digestAt position) = none) (node : nodeAt position = .external)
    (none_found : ∀ body : Position forests, ¬ IsBody (digestAt position) body) :
    Contributes position .unknown

variable {protocol}

theorem follows_iff {position next : Position forests} :
    Follows protocol position next ↔ next ∈ (visit protocol position).push := by
  constructor
  · intro follows
    cases follows with
    | external other node found => simp [visit, other, node, findBody_eq_some.mpr found]
    | _ => simp_all [visit]
  · intro pushed
    unfold visit at pushed
    split at pushed
    next => cases pushed
    next other =>
      split at pushed
      next => cases pushed
      next first second node =>
        obtain rfl | rfl : next = ⟨position.1, first⟩ ∨ next = ⟨position.1, second⟩ := by
          simpa using pushed
        · exact .joinFirst other node
        · exact .joinSecond other node
      next onTrue onFalse node =>
        obtain rfl | rfl : next = ⟨position.1, onTrue⟩ ∨ next = ⟨position.1, onFalse⟩ := by
          simpa using pushed
        · exact .onTrue other node
        · exact .onFalse other node
      next body node =>
        obtain rfl := List.mem_singleton.mp pushed
        exact .body other node
      next => cases pushed
      next callee node =>
        obtain rfl := List.mem_singleton.mp pushed
        exact .callee other node
      next => cases pushed
      next node =>
        split at pushed
        next found body =>
          obtain rfl := List.mem_singleton.mp pushed
          exact .external other node (findBody_eq_some.mp body)
        next => cases pushed

theorem contributes_label {position : Position forests} {access : Access}
    (contributes : Contributes protocol position access) : (visit protocol position).label = access := by
  cases contributes with
  | protocol known => simp [visit, known]
  | syscall other node => simp [visit, other, node]
  | dyn other node => simp [visit, other, node]
  | unresolved other node none_found => simp [visit, other, node, findBody_eq_none none_found]

theorem label_contributed (position : Position forests) :
    (visit protocol position).label = .readOnly ∨
      Contributes protocol position (visit protocol position).label := by
  unfold visit
  split
  next known => exact .inr (.protocol known)
  next other =>
    split
    next => exact .inl rfl
    next => exact .inl rfl
    next => exact .inl rfl
    next => exact .inl rfl
    next node => exact .inr (.syscall other node)
    next => exact .inl rfl
    next node => exact .inr (.dyn other node)
    next node =>
      split
      next => exact .inl rfl
      next missing =>
        refine .inr (.unresolved other node fun body found => ?_)
        rw [findBody_eq_some.mpr found] at missing
        cases missing

theorem reachable_iff {root position : Position forests} :
    Reachable protocol root position ↔ Worklist.Reaches (visit protocol) root position := by
  simp only [Reachable, Worklist.Reaches, ← follows_iff]

theorem bounds_eq_upperBounds (root : Position forests) :
    Worklist.bounds (visit protocol) root .readOnly =
      upperBounds {access | ∃ position, Reachable protocol root position ∧
        Contributes protocol position access} := by
  ext bound
  simp only [Worklist.bounds, ← reachable_iff, Set.mem_ofPred_eq, mem_upperBounds]
  constructor
  · rintro ⟨-, labels⟩ access ⟨position, path, contributes⟩
    exact contributes_label contributes ▸ labels position path
  · intro contributed
    refine ⟨Access.readOnly_le bound, fun position path => ?_⟩
    have label : (visit protocol position).label = .readOnly ∨ Contributes protocol position _ :=
      label_contributed position
    rcases label with quiet | contributes
    · exact quiet ▸ Access.readOnly_le bound
    · exact contributed _ ⟨position, path, contributes⟩

end LeastBound

/-- A walk over what is reachable ends in any order, with or without the early return, and then has
the least upper bound of what the nodes contribute: the answer of `procedure`. -/
theorem procedure_isLUB (analyzer : Analyzer) (forest : MastForest) (root : Fin forest.size) :
    IsLUB {access | ∃ position, Reachable analyzer.protocol (analyzer.entry forest root) position ∧
        Contributes analyzer.protocol position access} (analyzer.procedure forest root) ∧
      Acc (fun after before => Worklist.Walk.Moves (visit analyzer.protocol) before after)
        ⟨∅, {analyzer.entry forest root}, .readOnly⟩ ∧
      ∀ walk, Worklist.Walk.Leads (visit analyzer.protocol)
        ⟨∅, {analyzer.entry forest root}, .readOnly⟩ walk → walk.work = 0 →
          walk.acc = analyzer.procedure forest root := by
  obtain ⟨met, leads⟩ := Worklist.search_walks (visit analyzer.protocol) ∅
    [analyzer.entry forest root] .readOnly
  have least := Worklist.Walk.ends_least leads rfl
  refine ⟨?_, (Worklist.Walk.moves_wellFounded _).apply _, fun walk walks finished => ?_⟩
  · rw [bounds_eq_upperBounds] at least
    exact least
  · exact (Worklist.Walk.ends_least walks finished).unique least

end SourceVerification.ReadOnly
