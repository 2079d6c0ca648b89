import Mathlib.Data.Prod.Lex
import Mathlib.Order.WithBot
import SourceVerification.Compile.ReadOnlyProcedures
import SourceVerification.OpenProject
import SourceVerification.Shared.CodeUnits
import SourceVerification.Shared.StableSort
import SourceVerification.Viewer.FindFunction
import SourceVerification.Viewer.VerificationStatus

set_option autoImplicit false

namespace SourceVerification.Viewer

open Compile
open ReadOnly (MastForest Analyzer OnlyReads exportRoot readOnlyProcedures)

def colon : UInt16 := 0x3A
def underscore : UInt16 := 0x5F

def toText (string : String) : Text :=
  (CodeUnits.codeUnits string).map UInt16.ofNat

structure PackageProcedure where
  name : Text
  signature : Text
  digest : String
  -- `none` where JavaScript has `undefined`.
  readOnly : Option (Option Bool)
deriving DecidableEq

def lastIndexOf (text wanted : Text) : Option Nat :=
  (List.range (text.length + 1)).reverse.find? fun index => wanted.isPrefixOf (text.drop index)

-- `.replace(/^"|"$/g, "")`
def unquote (text : Text) : Text :=
  let opened := if text.head? = some quote then text.tail else text
  if opened.getLast? = some quote then opened.dropLast else opened

def procedureName (path : Text) : Text :=
  -- Without a `::`, `lastIndexOf` answers -1.
  let start := match lastIndexOf path [colon, colon] with
    | some index => index + 2
    | none => 1
  (unquote (path.drop start)).map fun unit => if unit = dash then underscore else unit

def exportedProcedure (packageExport : Json) : Option (List (String × String)) :=
  if isAccountProcedure packageExport then
    match property "Procedure" packageExport >>= property "path", property "Procedure" packageExport >>= property "digest" with
    | some (.string path), some (.string digest) => some [(path, digest)]
    | _, _ => none
  else some []

def exportedProcedures (manifest : Json) : Option (List (String × String)) :=
  match property "exports" manifest with
  | some (.array exports) => (exports.mapM exportedProcedure).map List.flatten
  | _ => none

-- `entryPath?.slice(0, entryPath.lastIndexOf("/") + 1) ?? ""`
def sourceDir (entryPath : Option String) : List Char :=
  match entryPath with
  | some path => path.toList.rdropWhile (· ≠ '/')
  | none => []

def isCrateSource (entryPath : Option String) (path : String) : Bool :=
  ".rs".toList.isSuffixOf path.toList && (sourceDir entryPath).isPrefixOf path.toList &&
    (entryPath.isSome || !path.toList.contains '/')

-- `Number(b === entryPath) - Number(a === entryPath)` is not positive.
def entryFirst (entryPath : Option String) (a b : String) : Bool :=
  decide (some b = entryPath → some a = entryPath)

/-- The masked `.rs` files beside the entry file, the entry file first. -/
def crateSources (files : Files) (entryPath : Option String) : List Text :=
  let paths := (files.map (·.1)).filter (isCrateSource entryPath)
  (paths.mergeSort (entryFirst entryPath)).map fun path => maskSource (toText ((files.lookup path).getD ""))

def declaredIn (name source : Text) : Option (Nat × Text) := do
  let start ← findFunction source name
  let signature ← readSignature source start
  some (start, signature)

def locate (name : Text) (fileIndex : Nat) : List Text → Option ((Nat × Nat) × Text)
  | [] => none
  | source :: rest =>
    match declaredIn name source with
    | some (start, signature) => some ((fileIndex, start), signature)
    | none => locate name (fileIndex + 1) rest

-- `fn <name>`
def bareSignature (name : Text) : Text :=
  [0x66, 0x6E, space] ++ name

-- The `order` of a procedure that is not located is infinite.
def order (sources : List Text) (path : String) : WithTop (Nat ×ₗ Nat) :=
  match locate (procedureName (toText path)) 0 sources with
  | some (place, _) => (toLex place : Nat ×ₗ Nat)
  | none => ⊤

def packageProcedure (sources : List Text) (readOnly : String → Option (Option Bool)) (path digest : String) :
    PackageProcedure where
  name := procedureName (toText path)
  signature := match locate (procedureName (toText path)) 0 sources with
    | some (_, signature) => signature
    | none => bareSignature (procedureName (toText path))
  digest := digest
  readOnly := readOnly path

def packageProcedures (manifest : Json) (readOnly : String → Option (Option Bool)) (files : Files)
    (entryPath : Option String) : Option (List PackageProcedure) := do
  let sources := crateSources files entryPath
  let procedures ← exportedProcedures manifest
  let located := procedures.mergeSort fun a b => decide (order sources a.1 ≤ order sources b.1)
  some (located.map fun (path, digest) => packageProcedure sources readOnly path digest)

theorem isSort_entryFirst (entryPath : Option String) (paths : List String) :
    StableSort.IsSort (entryFirst entryPath) paths (paths.mergeSort (entryFirst entryPath)) := by
  apply StableSort.isSort_mergeSort
  next =>
    intro first second third left right
    exact decide_eq_true fun last => of_decide_eq_true left (of_decide_eq_true right last)
  next =>
    intro first second
    by_cases last : some second = entryPath
    next => simp [entryFirst, last]
    next => simp [entryFirst, last]

theorem crateSources_head {files : Files} {path content : String} (rust : ".rs".toList.isSuffixOf path.toList = true)
    (found : files.lookup path = some content) :
    (crateSources files (some path)).head? = some (maskSource (toText content)) := by
  have inDir : (sourceDir (some path)).isPrefixOf path.toList = true :=
    List.isPrefixOf_iff_prefix.mpr (List.rdropWhile_prefix _ _)
  have member : path ∈ (files.map (·.1)).filter (isCrateSource (some path)) := by
    refine List.mem_filter.mpr ⟨mem_keys_iff.mpr (by rw [found]; rfl), ?_⟩
    rw [isCrateSource, rust, inDir]
    rfl
  have sorts := isSort_entryFirst (some path) ((files.map (·.1)).filter (isCrateSource (some path)))
  obtain ⟨before, after, split⟩ := List.append_of_mem (sorts.perm.mem_iff.mpr member)
  have first : (before ++ path :: after).head? = some path := by
    cases before with
    | nil => rfl
    | cons other before =>
      have ordered := sorts.ordered
      rw [split, List.cons_append, List.pairwise_cons] at ordered
      have precedes := of_decide_eq_true (ordered.1 path (by simp)) rfl
      rw [List.cons_append, List.head?_cons, precedes]
  rw [crateSources, split, List.head?_map, first, Option.map_some, found]
  rfl

theorem exportJson_procedure {text : ExportText} {packageExport : PackageExport} {json : Json}
    (written : exportJson text packageExport = .ok json) : exportedProcedure json =
      some ((accountProcedures packageExport).map fun procedure => (procedure.path, procedure.digest.text)) := by
  cases packageExport with
  | procedure procedure =>
    obtain ⟨signature, signed, written⟩ := Results.bind_eq_ok.mp written
    obtain rfl := Except.ok.inj written
    have rule : isAccountProcedure (.object [("Procedure", procedureJson text procedure signature)]) =
        decide (procedure.abi = some .componentModel) := by
      rw [← abiJson_componentModel, ← signatureJson_abi signed]
      rfl
    rw [exportedProcedure, rule, accountProcedures]
    by_cases account : procedure.abi = some .componentModel
    next =>
      rw [decide_eq_true account, if_pos account]
      rfl
    next =>
      rw [decide_eq_false account, if_neg account]
      rfl
  | constant path =>
    obtain rfl := Except.ok.inj written
    rfl
  | type path =>
    obtain ⟨ty, -, written⟩ := Results.bind_eq_ok.mp written
    obtain rfl := Except.ok.inj written
    rfl

theorem exportJsons_procedures {text : ExportText} {exports : List PackageExport} {jsons : List Json}
    (written : exports.mapM (exportJson text) = .ok jsons) :
    jsons.mapM exportedProcedure = some (exports.map fun packageExport =>
      (accountProcedures packageExport).map fun procedure => (procedure.path, procedure.digest.text)) := by
  induction exports generalizing jsons with
  | nil =>
    obtain rfl := Except.ok.inj written
    rfl
  | cons packageExport rest ih =>
    rw [List.mapM_cons] at written
    obtain ⟨json, first, written⟩ := Results.bind_eq_ok.mp written
    obtain ⟨others, remaining, written⟩ := Results.bind_eq_ok.mp written
    obtain rfl := Except.ok.inj written
    rw [List.mapM_cons, exportJson_procedure first, ih remaining]
    rfl

theorem manifestJson_procedures {text : ExportText} {package : Package} {dependencies : List Dependency}
    {manifest : Json} (written : manifestJson text package dependencies = .ok manifest) : exportedProcedures manifest =
      some (package.componentModelProcedures.map fun procedure => (procedure.path, procedure.digest.text)) := by
  obtain ⟨jsons, exported, written⟩ := Results.bind_eq_ok.mp written
  obtain rfl := Except.ok.inj written
  change (jsons.mapM exportedProcedure).map List.flatten = _
  rw [exportJsons_procedures exported, componentModelProcedures_eq, List.map_flatMap, List.flatMap_def]
  rfl

def SignatureAt (name source : Text) (start : Nat) (signature : Text) : Prop :=
  Preferred source name start ∧ readSignature source start = some signature

/-- A procedure is shown with the signature of the first source that has one for its name, or with its bare name. -/
inductive Shown (sources : List Text) (name : Text) : WithTop (Nat ×ₗ Nat) → Text → Prop
  | located {before after : List Text} {source signature : Text} {start : Nat}
    (split : sources = before ++ source :: after)
    (earlier : ∀ other ∈ before, ∀ start signature, ¬ SignatureAt name other start signature)
    (own : SignatureAt name source start signature) :
    Shown sources name (toLex (before.length, start) : Nat ×ₗ Nat) signature
  | bare (nowhere : ∀ source ∈ sources, ∀ start signature, ¬ SignatureAt name source start signature) :
    Shown sources name ⊤ (bareSignature name)

theorem declaredIn_eq_some_iff {name source signature : Text} {start : Nat} (named : IsName name) :
    declaredIn name source = some (start, signature) ↔ SignatureAt name source start signature := by
  rw [SignatureAt, ← findFunction_eq_some_iff named, declaredIn]
  cases found : findFunction source name with
  | none => simp
  | some place =>
    cases read : readSignature source place with
    | none =>
      simp only [Option.bind_eq_bind, Option.bind_some, read, Option.bind_none, Option.some.injEq, reduceCtorEq, false_iff]
      rintro ⟨rfl, other⟩
      rw [read] at other
      cases other
    | some own =>
      simp only [Option.bind_eq_bind, Option.bind_some, read, Option.some.injEq, Prod.mk.injEq]
      constructor
      next =>
        rintro ⟨rfl, rfl⟩
        exact ⟨rfl, read⟩
      next =>
        rintro ⟨rfl, other⟩
        exact ⟨rfl, Option.some.inj (read.symm.trans other)⟩

theorem declaredIn_eq_none {name source : Text} (named : IsName name) (none : declaredIn name source = none)
    (start : Nat) (signature : Text) : ¬ SignatureAt name source start signature := by
  intro own
  rw [(declaredIn_eq_some_iff named).mpr own] at none
  cases none

theorem locate_eq_none {name : Text} (named : IsName name) {fileIndex : Nat} {sources : List Text}
    (found : locate name fileIndex sources = none) :
    ∀ source ∈ sources, ∀ start signature, ¬ SignatureAt name source start signature := by
  induction sources generalizing fileIndex with
  | nil => simp
  | cons source rest ih =>
    rw [locate] at found
    cases own : declaredIn name source with
    | some place =>
      rw [own] at found
      cases found
    | none =>
      rw [own] at found
      exact List.forall_mem_cons.mpr ⟨declaredIn_eq_none named own, ih found⟩

theorem locate_eq_some {name signature : Text} (named : IsName name) {fileIndex : Nat} {sources : List Text}
    {place : Nat × Nat} (found : locate name fileIndex sources = some (place, signature)) :
    ∃ before source after, sources = before ++ source :: after ∧ place.1 = fileIndex + before.length ∧
      (∀ other ∈ before, ∀ start signature, ¬ SignatureAt name other start signature) ∧
      SignatureAt name source place.2 signature := by
  induction sources generalizing fileIndex with
  | nil => cases found
  | cons source rest ih =>
    rw [locate] at found
    cases own : declaredIn name source with
    | some there =>
      rw [own] at found
      cases found
      exact ⟨[], source, rest, rfl, rfl, by simp, (declaredIn_eq_some_iff named).mp own⟩
    | none =>
      rw [own] at found
      obtain ⟨before, later, after, rfl, index, earlier, declared⟩ := ih found
      refine ⟨source :: before, later, after, rfl, ?_, ?_, declared⟩
      next =>
        rw [index, List.length_cons]
        omega
      next => exact List.forall_mem_cons.mpr ⟨declaredIn_eq_none named own, earlier⟩

theorem shown_packageProcedure (sources : List Text) (readOnly : String → Option (Option Bool)) {path : String}
    (named : IsName (procedureName (toText path))) (digest : String) :
    Shown sources (procedureName (toText path)) (order sources path)
      (packageProcedure sources readOnly path digest).signature := by
  rw [order, packageProcedure]
  cases found : locate (procedureName (toText path)) 0 sources with
  | none => exact .bare (locate_eq_none named found)
  | some located =>
    obtain ⟨⟨fileIndex, start⟩, signature⟩ := located
    obtain ⟨before, source, after, split, index, earlier, own⟩ := locate_eq_some named found
    rw [Nat.zero_add] at index
    cases index
    exact .located split earlier own

theorem mergeSort_exported {Key : Type} [LinearOrder Key] (key : String → Key) (procedures : List ProcedureExport) :
    ((procedures.map fun procedure => (procedure.path, procedure.digest.text)).mergeSort
        fun a b => decide (key a.1 ≤ key b.1)) =
      (procedures.mergeSort fun a b => decide (key a.path ≤ key b.path)).map
        fun procedure => (procedure.path, procedure.digest.text) := by
  symm
  apply List.map_mergeSort
  intro first _ second _
  rfl

/-- The account procedures are all listed, each as its own manifest has it, in the order they are declared in. -/
theorem packageProcedures_spec {text : ExportText} {package : Package} {dependencies : List Dependency} {manifest : Json}
    (readOnly : String → Option (Option Bool)) (files : Files) (entryPath : Option String)
    (written : manifestJson text package dependencies = .ok manifest)
    (named : ∀ procedure ∈ package.componentModelProcedures, IsName (procedureName (toText procedure.path))) :
    ∃ listed, StableSort.IsSort (fun a b => decide (order (crateSources files entryPath) a.path ≤
        order (crateSources files entryPath) b.path)) package.componentModelProcedures listed ∧
      packageProcedures manifest readOnly files entryPath = some (listed.map fun procedure =>
        packageProcedure (crateSources files entryPath) readOnly procedure.path procedure.digest.text) ∧
      (∀ procedure ∈ listed, Shown (crateSources files entryPath) (procedureName (toText procedure.path))
        (order (crateSources files entryPath) procedure.path)
        (packageProcedure (crateSources files entryPath) readOnly procedure.path procedure.digest.text).signature) ∧
      ∀ path content, entryPath = some path → ".rs".toList.isSuffixOf path.toList = true →
        files.lookup path = some content → (crateSources files entryPath).head? = some (maskSource (toText content)) := by
  have sorts := StableSort.isSort_mergeSort_key
    (fun procedure : ProcedureExport => order (crateSources files entryPath) procedure.path)
    package.componentModelProcedures
  refine ⟨_, sorts, ?_, fun procedure member => ?_, ?_⟩
  next =>
    have sorted := mergeSort_exported (order (crateSources files entryPath)) package.componentModelProcedures
    simp only [packageProcedures, manifestJson_procedures written, Option.bind_eq_bind, Option.bind_some, sorted,
      List.map_map]
    rfl
  next =>
    have listed := sorts.perm.mem_iff.mp member
    exact shown_packageProcedure _ readOnly (named procedure listed) _
  next =>
    rintro path content rfl rust found
    exact crateSources_head rust found

theorem procedureExports_of_componentModel {package : Package} {procedure : ProcedureExport}
    (member : procedure ∈ package.componentModelProcedures) : procedure ∈ package.procedureExports :=
  List.mem_of_mem_filter member

def bankPackage : Package where
  exports := [
    .procedure ⟨"::bank::hidden", counterRoot, some .componentModel⟩,
    .procedure ⟨"::bank::get-count", counterCode, some .componentModel⟩,
    .constant "::bank::LIMIT",
    .procedure ⟨"::bank::set-count", counterCommitment, some .componentModel⟩]
  dependencyCommitment := counterRoot

def bankFunction (path : String) (digest : Word) : Json :=
  .object [("Procedure", procedureJson counterText ⟨path, digest, some .componentModel⟩
    (.object [("abi", .number 3), ("params", .array []), ("results", .array [])]))]

def bankManifest : Json :=
  .object [
    ("exports", .array [
      bankFunction "::bank::hidden" counterRoot,
      bankFunction "::bank::get-count" counterCode,
      .object [("Constant", .object [("path", .string "::bank::LIMIT"), ("value", .null)])],
      bankFunction "::bank::set-count" counterCommitment]),
    ("dependencies", .array [])]

def bankSource : String := "fn set_count(); fn get_count() -> u64;"

theorem crateSources_bank : crateSources [("src/lib.rs", bankSource)] (some "src/lib.rs") =
    [maskSource (toText bankSource)] := by
  have own : isCrateSource (some "src/lib.rs") "src/lib.rs" = true := by decide
  simp [crateSources, own]

theorem bank_listed : ∃ listed,
    packageProcedures bankManifest (fun _ => some none) [("src/lib.rs", bankSource)] (some "src/lib.rs") = some listed ∧
      listed.map (·.digest) = [counterCommitment.text, counterCode.text, counterRoot.text] := by
  have written : manifestJson counterText bankPackage [] = .ok bankManifest := rfl
  have named : ∀ procedure ∈ bankPackage.componentModelProcedures,
      IsName (procedureName (toText procedure.path)) := by decide +kernel
  obtain ⟨listed, sorts, shown, -⟩ :=
    packageProcedures_spec (fun _ => some none) [("src/lib.rs", bankSource)] (some "src/lib.rs") written named
  rw [crateSources_bank] at sorts
  have hidden : order [maskSource (toText bankSource)] "::bank::hidden" = ⊤ := by
    have nowhere : locate (procedureName (toText "::bank::hidden")) 0 [maskSource (toText bankSource)] = none := by
      decide +kernel
    rw [order, nowhere]
  have place (path : String) (start : Nat) (found : (locate (procedureName (toText path)) 0
      [maskSource (toText bankSource)]).map (·.1) = some (0, start)) :
      order [maskSource (toText bankSource)] path = (toLex (0, start) : Nat ×ₗ Nat) := by
    obtain ⟨⟨located, signature⟩, there, rfl⟩ := Option.map_eq_some_iff.mp found
    rw [order, there]
  have get := place "::bank::get-count" 16 (by decide +kernel)
  have set := place "::bank::set-count" 0 (by decide +kernel)
  have earlier : (toLex (0, 0) : Nat ×ₗ Nat) < toLex (0, 16) := by decide
  have exported : bankPackage.componentModelProcedures.reverse =
      [⟨"::bank::set-count", counterCommitment, some .componentModel⟩,
        ⟨"::bank::get-count", counterCode, some .componentModel⟩,
        ⟨"::bank::hidden", counterRoot, some .componentModel⟩] := rfl
  have declared : listed = bankPackage.componentModelProcedures.reverse := by
    have perm := sorts.perm.trans (List.reverse_perm bankPackage.componentModelProcedures).symm
    refine perm.eq_of_pairwise (fun first second there here forwards back => ?_) sorts.ordered ?_
    next =>
      have same := le_antisymm (of_decide_eq_true forwards) (of_decide_eq_true back)
      have inside := perm.mem_iff.mp there
      rw [exported] at inside here
      simp only [List.mem_cons, List.not_mem_nil, or_false] at inside here
      -- No two of them are declared in one place.
      rcases inside with rfl | rfl | rfl <;> rcases here with rfl | rfl | rfl <;>
        first | rfl | simp [hidden, get, set] at same
    next =>
      rw [exported]
      simp [hidden, get, set, le_of_lt earlier]
  refine ⟨_, shown, ?_⟩
  rw [declared, exported]
  rfl

/-- A procedure shown as read-only is one whose executions only read. -/
theorem shown_read_only {text : ExportText} {package : Package} {dependencies : List Dependency} {manifest : Json}
    {analyzer : Analyzer} {forest : MastForest} {node : ProcedureExport → Option (Fin forest.size)} {files : Files}
    {entryPath : Option String} {shown : List PackageProcedure}
    (written : manifestJson text package dependencies = .ok manifest)
    (distinct : (package.procedureExports.map (·.path)).Nodup)
    (listed : packageProcedures manifest (readOnlyProcedures analyzer forest node package) files entryPath = some shown) :
    ∀ entry ∈ shown, entry.readOnly = some (some true) →
      ∃ procedure ∈ package.componentModelProcedures, entry.name = procedureName (toText procedure.path) ∧
        entry.digest = procedure.digest.text ∧
        ∃ root, exportRoot forest node procedure = some root ∧
          OnlyReads analyzer.protocol (analyzer.entry forest root) := by
  rw [packageProcedures, manifestJson_procedures written] at listed
  obtain rfl := Option.some.inj listed
  intro entry member told
  obtain ⟨⟨path, digest⟩, exported, rfl⟩ := List.mem_map.mp member
  obtain ⟨procedure, own, same⟩ := List.mem_map.mp (List.mem_mergeSort.mp exported)
  cases same
  have reads := ReadOnly.onlyReads_of_told distinct told (procedureExports_of_componentModel own) rfl
  exact ⟨procedure, own, rfl, rfl, reads⟩

def getterPackage : Package where
  exports := [.procedure ⟨"::getter::get_item", ReadOnly.getterRoot, some .componentModel⟩]
  dependencyCommitment := ReadOnly.getterRoot

def getterManifest : Json :=
  .object [
    ("exports", .array [.object [("Procedure",
      procedureJson counterText ⟨"::getter::get_item", ReadOnly.getterRoot, some .componentModel⟩
        (.object [("abi", .number 3), ("params", .array []), ("results", .array [])]))]]),
    ("dependencies", .array [])]

theorem getter_shown_read_only : ∃ shown,
    packageProcedures getterManifest
        (readOnlyProcedures ReadOnly.getterAnalyzer ReadOnly.getterForest (fun _ => none) getterPackage) [] none =
      some shown ∧
    ∃ entry ∈ shown, entry.readOnly = some (some true) ∧
      ∃ procedure ∈ getterPackage.componentModelProcedures,
        entry.digest = procedure.digest.text ∧
          ∃ root, exportRoot ReadOnly.getterForest (fun _ => none) procedure = some root ∧
            OnlyReads ReadOnly.getterAnalyzer.protocol (ReadOnly.getterAnalyzer.entry ReadOnly.getterForest root) := by
  have written : manifestJson counterText getterPackage [] = .ok getterManifest := rfl
  have distinct : (getterPackage.procedureExports.map (·.path)).Nodup := by decide
  have listed : ∃ shown, packageProcedures getterManifest
      (readOnlyProcedures ReadOnly.getterAnalyzer ReadOnly.getterForest (fun _ => none) getterPackage) [] none =
        some shown ∧ ∃ entry ∈ shown, entry.readOnly = some (some true) := by
    have told : readOnlyProcedures ReadOnly.getterAnalyzer ReadOnly.getterForest (fun _ => none) getterPackage
        "::getter::get_item" = some (some true) := by
      change some (ReadOnly.getterAnalyzer.procedure ReadOnly.getterForest (0 : Fin 3)).read_only = _
      rw [ReadOnly.getter_readOnly]
      rfl
    refine ⟨[packageProcedure (crateSources [] none) (readOnlyProcedures ReadOnly.getterAnalyzer ReadOnly.getterForest (fun _ => none)
      getterPackage) "::getter::get_item" ReadOnly.getterRoot.text], ?_, _, List.mem_singleton_self _, told⟩
    rw [packageProcedures, manifestJson_procedures written]
    change some (List.map _ (List.mergeSort [_] _)) = _
    rw [List.mergeSort_singleton]
    rfl
  obtain ⟨shown, listed, entry, member, told⟩ := listed
  obtain ⟨procedure, own, -, digest, reads⟩ := shown_read_only written distinct listed entry member told
  exact ⟨shown, listed, entry, member, told, procedure, own, digest, reads⟩

end SourceVerification.Viewer
