import Mathlib.Data.List.DropRight

set_option autoImplicit false

namespace SourceVerification

inductive Json
  | null
  | boolean (value : Bool)
  | number (value : Int)
  | string (value : String)
  | array (items : List Json)
  | object (entries : List (String × Json))

abbrev Files := List (String × String)

structure Project where
  files : Files
  -- `.` for the root, otherwise a relative directory.
  entrypoint : String
  -- The `[package] name` of the entrypoint's `Cargo.toml`.
  name : String

def isProjectRelativePath (path : String) : Bool :=
  !path.toList.isEmpty && !path.toList.contains '\\' &&
    (path.toList.splitOn '/').all fun segment =>
      segment != [] && segment != ['.'] && segment != ['.', '.']

def dropDotSlash : List Char → List Char
  | '.' :: '/' :: rest => dropDotSlash rest
  | dir => dir

def normalizeEntrypoint : Option Json → Option String
  | none => some "."
  | some (.string value) =>
    let dir := dropDotSlash value.toList
    if dir.head? = some '/' then none
    else
      let dir := dir.rdropWhile (· = '/')
      if dir = [] ∨ dir = ['.'] then some "."
      else if isProjectRelativePath (String.ofList dir) then some (String.ofList dir)
      else none
  | some _ => none

def projectPath (entrypoint file : String) : String :=
  if entrypoint = "." then file else entrypoint ++ "/" ++ file

inductive CargoPackage
  | named (name : String)
  | invalidToml
  | noPackage

section Toml

-- The TOML parser: the entries of the document, or `none` when the text isn't TOML.
variable (parse : String → Option (List (String × Json)))

def readCargoPackage (cargoToml : String) : CargoPackage :=
  match parse cargoToml with
  | none => .invalidToml
  | some parsed =>
    match parsed.lookup "package" with
    | some (.object fields) =>
      match fields.lookup "name" with
      | some (.string name) => .named name
      | _ => .noPackage
    | _ => .noPackage

def invalidFile : List (String × Json) → Option String
  | [] => none
  | (path, content) :: rest =>
    if isProjectRelativePath path then
      match content with
      | .string _ => invalidFile rest
      | _ => some ("invalid file content: " ++ path)
    else
      some ("invalid file path: " ++ path)

def fileContents (entries : List (String × Json)) : Files :=
  entries.filterMap fun (path, content) =>
    match content with
    | .string text => some (path, text)
    | _ => none

def openProject (files entrypoint : Option Json) : Except String Project :=
  match files with
  | some (.object entries) =>
    match invalidFile entries with
    | some error => .error error
    | none =>
      let projectFiles := fileContents entries
      match normalizeEntrypoint entrypoint with
      | none => .error "invalid entrypoint"
      | some dir =>
        let cargoTomlPath := projectPath dir "Cargo.toml"
        match projectFiles.lookup cargoTomlPath with
        | none => .error "missing Cargo.toml"
        | some cargoToml =>
          if (projectFiles.lookup (projectPath dir "miden-project.toml")).isNone then
            .error "missing miden-project.toml"
          else
            match readCargoPackage parse cargoToml with
            | .invalidToml => .error (cargoTomlPath ++ " is not valid TOML")
            | .noPackage => .error (cargoTomlPath ++ " has no [package]")
            | .named name => .ok { files := projectFiles, entrypoint := dir, name := name }
  | _ => .error "missing files"

def cargoPackageName (cargoToml : String) : Option String :=
  match readCargoPackage parse cargoToml with
  | .named name => some name
  | _ => none

def cargoTomlDir (path : String) : Option String :=
  if path = "Cargo.toml" then some "."
  else if "/Cargo.toml".toList.isSuffixOf path.toList then
    some (String.ofList (path.toList.take (path.toList.length - "/Cargo.toml".toList.length)))
  else none

-- What `inferEntrypoint` chooses from.
def entrypoints (files : Files) (name : String) : List String :=
  files.filterMap fun (path, cargoToml) =>
    (cargoTomlDir path).filter fun dir =>
      (files.lookup (projectPath dir "miden-project.toml")).isSome &&
        cargoPackageName parse cargoToml == some name

def inferEntrypoint (files : Files) (name : String) : Option String :=
  match entrypoints parse files name with
  | [entrypoint] => some entrypoint
  | _ => none

end Toml

end SourceVerification
