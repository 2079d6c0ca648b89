import SourceVerification.Compile.ProtocolAccess
import SourceVerification.Compile.ReadOnly

set_option autoImplicit false

namespace SourceVerification.ReadOnly

open Compile (Package ProcedureExport)

namespace Access

def read_only : Access → Option Bool
  | readOnly => some true
  | stateChanging => some false
  | unknown => none

theorem eq_readOnly_of_read_only {access : Access} (told : access.read_only = some true) : access = readOnly := by
  cases access with
  | readOnly => rfl
  | unknown => cases told
  | stateChanging => cases told

end Access

def Effect.access : Effect → Access
  | protocol access => access
  | syscall | dynamicCall | unresolved => .unknown

section

variable (analyzer : Analyzer) (forest : MastForest) (node : ProcedureExport → Option (Fin forest.size))

def exportRoot (procedure : ProcedureExport) : Option (Fin forest.size) :=
  (node procedure).or (forest.findProcedureRoot procedure.digest)

def Analyzer.exports (package : Package) : List (String × Access) :=
  package.procedureExports.map fun procedure =>
    (procedure.path, ((exportRoot forest node procedure).map (analyzer.procedure forest)).getD .unknown)

-- The `readOnly` of `miden-package-metadata`: a `Map`, so of the entries with a key the last one stays.
def readOnlyProcedures (package : Package) : String → Option (Option Bool) :=
  fun path => ((analyzer.exports forest node package).map fun entry => (entry.1, entry.2.read_only)).reverse.lookup path

end

theorem executes_effect_le {protocol : Word → Option Access} {forests : List MastForest} {position : Position forests}
    {rest stack : List (Position forests)} {effect : Effect}
    (step : Executes protocol (position :: rest) (some effect) stack) :
    effect.access ≤ (visit protocol position).label := by
  cases step with
  | protocol known =>
    rw [visit, known]
    exact le_refl _
  | syscall other node =>
    simp only [visit, other, node]
    exact le_refl _
  | dyn other node =>
    simp only [visit, other, node]
    exact le_refl _
  | unresolved other node none_found =>
    simp only [visit, other, node, findBody_eq_none none_found]
    exact le_refl _

theorem effect_le_procedure (analyzer : Analyzer) (forest : MastForest) (root : Fin forest.size)
    {stack next : List (Position (forest :: analyzer.libraries))} {effect : Effect}
    (run : Runs analyzer.protocol [analyzer.entry forest root] stack)
    (step : Executes analyzer.protocol stack (some effect) next) :
    effect.access ≤ analyzer.procedure forest root := by
  cases stack with
  | nil => cases step
  | cons position rest =>
    have reached := runs_reaches analyzer.protocol run position (List.mem_cons_self ..)
    exact (executes_effect_le step).trans (Worklist.label_le_search_root (visit analyzer.protocol) _ .readOnly reached)

theorem Effect.eq_of_access_readOnly {effect : Effect} (below : effect.access ≤ .readOnly) :
    effect = .protocol .readOnly := by
  have same := Access.le_readOnly below
  cases effect with
  | protocol access => exact congrArg Effect.protocol same
  | syscall => cases same
  | dynamicCall => cases same
  | unresolved => cases same

section

variable {analyzer : Analyzer} {forest : MastForest} {node : ProcedureExport → Option (Fin forest.size)}
  {package : Package}

theorem readOnlyProcedures_eq_some {path : String} {told : Option Bool}
    (shown : readOnlyProcedures analyzer forest node package path = some told) :
    ∃ procedure ∈ package.procedureExports, procedure.path = path ∧
      (((exportRoot forest node procedure).map (analyzer.procedure forest)).getD .unknown).read_only = told := by
  obtain ⟨before, after, split, -⟩ := List.lookup_eq_some_iff.mp shown
  have listed : (path, told) ∈
      (analyzer.exports forest node package).map fun entry => (entry.1, entry.2.read_only) := by
    rw [← List.mem_reverse, split]
    simp
  simpa [Analyzer.exports] using listed

theorem onlyReads_of_told {path : String} (distinct : (package.procedureExports.map (·.path)).Nodup)
    (told : readOnlyProcedures analyzer forest node package path = some (some true)) {procedure : ProcedureExport}
    (exported : procedure ∈ package.procedureExports) (named : procedure.path = path) :
    ∃ root, exportRoot forest node procedure = some root ∧
      OnlyReads analyzer.protocol (analyzer.entry forest root) := by
  obtain ⟨listed, member, same, access⟩ := readOnlyProcedures_eq_some told
  obtain rfl : listed = procedure := List.inj_on_of_nodup_map distinct member exported (same.trans named.symm)
  cases found : exportRoot forest node listed with
  | none =>
    rw [found] at access
    cases access
  | some root =>
    rw [found] at access
    have reads : analyzer.procedure forest root = .readOnly := Access.eq_readOnly_of_read_only access
    refine ⟨root, rfl, fun stack next effect run step => ?_⟩
    exact Effect.eq_of_access_readOnly (reads ▸ effect_le_procedure analyzer forest root run step)

end

end SourceVerification.ReadOnly
