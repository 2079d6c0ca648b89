import SourceVerification.Compile.Verifier

set_option autoImplicit false

namespace SourceVerification.Compile

structure Dependency where
  name : String
  kind : TargetType
  version : String
  digest : Word

def TargetType.asStr : TargetType → String
  | .library => "library"
  | .executable => "executable"
  | .kernel => "kernel"
  | .accountComponent => "account-component"
  | .note => "note"
  | .transactionScript => "transaction-script"

def dependencyJson (dependency : Dependency) : Json :=
  .object [
    ("name", .string dependency.name),
    ("kind", .string (TargetType.asStr dependency.kind)),
    ("version", .string dependency.version),
    ("digest", .string dependency.digest.text)]

/-- The parts of an export's JSON that depend on more than the model of a package holds. -/
structure ExportText where
  node : ProcedureExport → Option Nat
  sourceNode : ProcedureExport → Option Nat
  -- `TypeWriter::ty` of each, which fails on a discriminant that does not fit in a `u64`.
  params : ProcedureExport → Except String (List Json)
  results : ProcedureExport → Except String (List Json)
  attributes : ProcedureExport → Json
  constantValue : String → Json
  ty : String → Except String Json

def numberOrNull : Option Nat → Json
  | some value => .number value
  | none => .null

def abiJson : CallConv → Json
  | .fast => .number 0
  | .c => .number 1
  | .wasm => .number 2
  | .componentModel => .number 3
  | .externConv name => .object [("Extern", .string name)]

section

variable (text : ExportText)

def function (procedure : ProcedureExport) (abi : CallConv) : Except String Json := do
  let params ← text.params procedure
  let results ← text.results procedure
  .ok (.object [("abi", abiJson abi), ("params", .array params), ("results", .array results)])

def signatureJson (procedure : ProcedureExport) : Except String Json :=
  match procedure.abi with
  | some abi => function text procedure abi
  | none => .ok .null

def procedureJson (procedure : ProcedureExport) (signature : Json) : Json :=
  .object [
    ("path", .string procedure.path),
    ("node", numberOrNull (text.node procedure)),
    ("source_node", numberOrNull (text.sourceNode procedure)),
    ("digest", .string procedure.digest.text),
    ("signature", signature),
    ("attributes", text.attributes procedure)]

def exportJson : PackageExport → Except String Json
  | .procedure procedure => do
    let signature ← signatureJson text procedure
    .ok (.object [("Procedure", procedureJson text procedure signature)])
  | .constant path =>
    .ok (.object [("Constant", .object [("path", .string path), ("value", text.constantValue path)])])
  | .type path => do
    let ty ← text.ty path
    .ok (.object [("Type", .object [("path", .string path), ("ty", ty)])])

def manifestJson (package : Package) (dependencies : List Dependency) : Except String Json := do
  let exports ← package.exports.mapM (exportJson text)
  .ok (.object [
    ("exports", .array exports),
    ("dependencies", .array (dependencies.map dependencyJson))])

end

end SourceVerification.Compile
