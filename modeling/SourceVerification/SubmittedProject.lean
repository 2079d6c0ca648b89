import SourceVerification.OpenProject
import SourceVerification.Shared.Utf16

set_option autoImplicit false

/-!
# A project as it is submitted

`openProject` of any JavaScript strings, lone surrogates among them. Of text it is the `openProject` of text.
-/

namespace SourceVerification.Submitted

open Utf16

def text (string : String) : Text := encode string.toList

inductive Value
  | null
  | boolean (value : Bool)
  | number (value : Int)
  | string (value : Text)
  | array (items : List Value)
  | object (entries : List (Text × Value))

abbrev Files := List (Text × Text)

structure Project where
  files : Files
  entrypoint : Text
  name : Text

def slash : UInt16 := UInt16.ofNat '/'.toNat

def isProjectRelativePath (path : Text) : Bool :=
  !path.isEmpty && !path.contains (UInt16.ofNat '\\'.toNat) &&
    (path.splitOn slash).all fun segment => segment != [] && segment != text "." && segment != text ".."

def dropDotSlash : Text → Text
  | first :: second :: rest =>
    if [first, second] = text "./" then dropDotSlash rest else first :: second :: rest
  | dir => dir

def normalizeEntrypoint : Option Value → Option Text
  | none => some (text ".")
  | some (.string value) =>
    let dir := dropDotSlash value
    if dir.head? = some slash then none
    else
      let dir := dir.rdropWhile (· = slash)
      if dir = [] ∨ dir = text "." then some (text ".")
      else if isProjectRelativePath dir then some dir
      else none
  | some _ => none

def projectPath (entrypoint : Text) (file : String) : Text :=
  if entrypoint = text "." then text file else entrypoint ++ slash :: text file

inductive CargoPackage
  | named (name : Text)
  | invalidToml
  | noPackage

section Toml

variable (parse : Text → Option (List (Text × Value)))

def readCargoPackage (cargoToml : Text) : CargoPackage :=
  match parse cargoToml with
  | none => .invalidToml
  | some parsed =>
    match parsed.lookup (text "package") with
    | some (.object fields) =>
      match fields.lookup (text "name") with
      | some (.string name) => .named name
      | _ => .noPackage
    | _ => .noPackage

def invalidFile : List (Text × Value) → Option Text
  | [] => none
  | (path, content) :: rest =>
    if isProjectRelativePath path then
      match content with
      | .string _ => invalidFile rest
      | _ => some (text "invalid file content: " ++ path)
    else
      some (text "invalid file path: " ++ path)

def fileContents (entries : List (Text × Value)) : Files :=
  entries.filterMap fun (path, content) =>
    match content with
    | .string text => some (path, text)
    | _ => none

def openProject (files entrypoint : Option Value) : Except Text Project :=
  match files with
  | some (.object entries) =>
    match invalidFile entries with
    | some error => .error error
    | none =>
      let projectFiles := fileContents entries
      match normalizeEntrypoint entrypoint with
      | none => .error (text "invalid entrypoint")
      | some dir =>
        let cargoTomlPath := projectPath dir "Cargo.toml"
        match projectFiles.lookup cargoTomlPath with
        | none => .error (text "missing Cargo.toml")
        | some cargoToml =>
          if (projectFiles.lookup (projectPath dir "miden-project.toml")).isNone then
            .error (text "missing miden-project.toml")
          else
            match readCargoPackage parse cargoToml with
            | .invalidToml => .error (cargoTomlPath ++ text " is not valid TOML")
            | .noPackage => .error (cargoTomlPath ++ text " has no [package]")
            | .named name => .ok { files := projectFiles, entrypoint := dir, name := name }
  | _ => .error (text "missing files")

end Toml

theorem text_injective : Function.Injective text :=
  fun _ _ same => String.toList_injective (encode_injective same)

theorem text_append (string other : String) : text (string ++ other) = text string ++ text other := by
  rw [text, String.toList_append, encode_append]
  rfl

theorem splitOn_text (path : String) : (text path).splitOn slash = (path.toList.splitOn '/').map encode :=
  splitOn_encode (by decide) path.toList

theorem isProjectRelativePath_text (path : String) :
    isProjectRelativePath (text path) = SourceVerification.isProjectRelativePath path := by
  have empty : (text path).isEmpty = path.toList.isEmpty := by
    rw [Bool.eq_iff_iff, List.isEmpty_iff, List.isEmpty_iff]
    exact encode_injective.eq_iff (b := [])
  have backslash : (text path).contains (UInt16.ofNat '\\'.toNat) = path.toList.contains '\\' := by
    rw [Bool.eq_iff_iff, List.contains_iff_mem, List.contains_iff_mem]
    exact mem_encode_small (by decide)
  have segment (chars : List Char) : (encode chars != [] && encode chars != text "." && encode chars != text "..") =
      (chars != [] && chars != ['.'] && chars != ['.', '.']) := by
    have none : (encode chars = []) = (chars = []) := propext (encode_injective.eq_iff (b := []))
    have dot : (encode chars = text ".") = (chars = ['.']) := propext (encode_injective.eq_iff (b := ['.']))
    have dotDot : (encode chars = text "..") = (chars = ['.', '.']) := propext (encode_injective.eq_iff (b := ['.', '.']))
    simp only [bne, beq_eq_decide, none, dot, dotDot]
  rw [isProjectRelativePath, SourceVerification.isProjectRelativePath, empty, backslash, splitOn_text, List.all_map]
  congr 2
  exact funext segment

theorem dropDotSlash_encode (chars : List Char) :
    dropDotSlash (encode chars) = encode (SourceVerification.dropDotSlash chars) := by
  induction chars using SourceVerification.dropDotSlash.induct with
  | case1 rest ih =>
    have dotted : encode ('.' :: '/' :: rest) = UInt16.ofNat '.'.toNat :: slash :: encode rest := by
      rw [encode_cons, encode_cons, encodeChar_small (by decide), encodeChar_small (by decide)]
      rfl
    rw [dotted, dropDotSlash, if_pos (by decide), ih, SourceVerification.dropDotSlash]
  | case2 chars other =>
    rw [SourceVerification.dropDotSlash]
    · generalize same : encode chars = units
      unfold dropDotSlash
      split
      next first second rest =>
        rw [if_neg]
        intro dots
        obtain ⟨rfl, rfl⟩ : first = UInt16.ofNat '.'.toNat ∧ second = slash := by
          simpa using dots.trans (show text "./" = [UInt16.ofNat '.'.toNat, slash] by decide)
        have decoded := congrArg decode same
        rw [decode_encode, decode_single (by decide), decode_single (by decide)] at decoded
        exact other (decode rest) decoded
      next => rfl
    · exact other

theorem head?_encode (chars : List Char) : (encode chars).head? = some slash ↔ chars.head? = some '/' := by
  cases chars with
  | nil => simp [encode]
  | cons char chars =>
    rw [encode_cons]
    by_cases same : char = '/'
    next =>
      subst same
      rw [encodeChar_small (by decide)]
      simp [slash]
    next =>
      have other : slash ∉ encodeChar char := fun member => same (mem_encodeChar_small (by decide) member)
      cases units : encodeChar char with
      | nil => exact absurd units (encodeChar_ne_nil char)
      | cons first rest =>
        rw [units, List.mem_cons, not_or] at other
        simp [same, Ne.symm other.1]

theorem rdropWhile_encode (chars : List Char) :
    (encode chars).rdropWhile (· = slash) = encode (chars.rdropWhile (· = '/')) := by
  induction chars using List.reverseRecOn with
  | nil => rfl
  | append_singleton chars char ih =>
    have whole : encode [char] = encodeChar char := by simp [encode]
    rw [encode_append, whole]
    by_cases same : char = '/'
    next =>
      subst same
      rw [encodeChar_small (by decide), List.rdropWhile_concat_pos _ _ _ (by decide), ih,
        List.rdropWhile_concat_pos _ _ _ (by decide)]
    next =>
      have other : slash ∉ encodeChar char := fun member => same (mem_encodeChar_small (by decide) member)
      obtain ⟨front, last, units⟩ : ∃ front last, encodeChar char = front ++ [last] :=
        ⟨_, _, (List.dropLast_append_getLast (encodeChar_ne_nil char)).symm⟩
      rw [units] at other
      have kept : last ≠ slash := by
        rintro rfl
        exact other (by simp)
      rw [units, ← List.append_assoc, List.rdropWhile_concat_neg _ _ _ (by simpa using kept),
        List.rdropWhile_concat_neg _ _ _ (by simpa using same), encode_append, whole, units, List.append_assoc]

mutual

def value : Json → Value
  | .null => .null
  | .boolean value => .boolean value
  | .number value => .number value
  | .string string => .string (text string)
  | .array items => .array (values items)
  | .object entries => .object (members entries)

def values : List Json → List Value
  | [] => []
  | item :: items => value item :: values items

def members : List (String × Json) → List (Text × Value)
  | [] => []
  | entry :: entries => member entry :: members entries

def member : String × Json → Text × Value
  | (key, item) => (text key, value item)

end

theorem member_eq : member = fun entry => (text entry.1, value entry.2) :=
  funext fun ⟨_, _⟩ => rfl

theorem value_object (entries : List (String × Json)) : value (.object entries) = .object (entries.map member) := by
  have mapped : members entries = entries.map member := by
    induction entries with
    | nil => rfl
    | cons entry entries ih => rw [members, ih, List.map_cons]
  rw [value, mapped]

theorem normalizeEntrypoint_value (given : Option Json) :
    normalizeEntrypoint (given.map value) = (SourceVerification.normalizeEntrypoint given).map text := by
  cases given with
  | none => rfl
  | some json =>
    cases json with
    | string string =>
      have root (chars : List Char) : encode chars = text "." ↔ chars = ['.'] := encode_injective.eq_iff (b := ['.'])
      have empty (chars : List Char) : encode chars = [] ↔ chars = [] := encode_injective.eq_iff (b := [])
      have path (chars : List Char) : isProjectRelativePath (encode chars) =
          SourceVerification.isProjectRelativePath (String.ofList chars) := by
        rw [← isProjectRelativePath_text, text, String.toList_ofList]
      have units : text string = encode string.toList := rfl
      simp only [Option.map_some, value, normalizeEntrypoint, SourceVerification.normalizeEntrypoint, units,
        dropDotSlash_encode, head?_encode, rdropWhile_encode, path, root, empty]
      split_ifs
      · rfl
      · rfl
      · simp [text]
      · rfl
    | null | boolean | number | array | object => rfl

def file (file : String × String) : Text × Text := (text file.1, text file.2)

def submitted (project : SourceVerification.Project) : Project where
  files := project.files.map file
  entrypoint := text project.entrypoint
  name := text project.name

theorem lookup_map {α β : Type} (write : α → β) (entries : List (String × α)) (key : String) :
    (entries.map fun entry => (text entry.1, write entry.2)).lookup (text key) = (entries.lookup key).map write := by
  induction entries with
  | nil => rfl
  | cons entry entries ih =>
    obtain ⟨other, item⟩ := entry
    have same : (text key == text other) = (key == other) := by
      rw [Bool.eq_iff_iff, beq_iff_eq, beq_iff_eq]
      exact text_injective.eq_iff
    rw [List.map_cons, List.lookup_cons, List.lookup_cons, same, ih]
    cases key == other <;> rfl

theorem projectPath_text (entrypoint file : String) :
    projectPath (text entrypoint) file = text (SourceVerification.projectPath entrypoint file) := by
  simp only [projectPath, SourceVerification.projectPath, text_injective.eq_iff]
  split_ifs
  · rfl
  · have slashed : text "/" = [slash] := by decide
    rw [text_append, text_append, slashed, List.append_assoc, List.singleton_append]

section

variable {parse : Text → Option (List (Text × Value))} {parseText : String → Option (List (String × Json))}
  (same : ∀ cargoToml, parse (text cargoToml) = (parseText cargoToml).map (·.map member))

include same

theorem readCargoPackage_text (cargoToml : String) : readCargoPackage parse (text cargoToml) =
    match SourceVerification.readCargoPackage parseText cargoToml with
    | .named name => .named (text name)
    | .invalidToml => .invalidToml
    | .noPackage => .noPackage := by
  unfold readCargoPackage SourceVerification.readCargoPackage
  rw [same]
  cases parseText cargoToml with
  | none => rfl
  | some parsed =>
    have package := lookup_map value parsed "package"
    simp only [Option.map_some]
    rw [member_eq, package]
    cases parsed.lookup "package" with
    | none => rfl
    | some found =>
      cases found with
      | object fields =>
        have name := lookup_map value fields "name"
        rw [Option.map_some, value_object]
        dsimp only
        rw [member_eq, name]
        cases fields.lookup "name" with
        | none => rfl
        | some name => cases name <;> rfl
      | null | boolean | number | string | array => rfl

omit same in
theorem invalidFile_text (entries : List (String × Json)) :
    invalidFile (entries.map member) = (SourceVerification.invalidFile entries).map text := by
  induction entries with
  | nil => rfl
  | cons entry entries ih =>
    obtain ⟨path, content⟩ := entry
    by_cases clean : SourceVerification.isProjectRelativePath path = true
    next =>
      have written := (isProjectRelativePath_text path).trans clean
      cases content with
      | string => simpa [member, value, invalidFile, SourceVerification.invalidFile, clean, written] using ih
      | null | boolean | number | array | object =>
        simp [member, value, invalidFile, SourceVerification.invalidFile, clean, written, text_append]
    next =>
      have written := (isProjectRelativePath_text path).trans (Bool.eq_false_iff.mpr clean)
      simp [member, invalidFile, SourceVerification.invalidFile, clean, written, text_append]

omit same in
theorem fileContents_text (entries : List (String × Json)) :
    fileContents (entries.map member) = (SourceVerification.fileContents entries).map file := by
  induction entries with
  | nil => rfl
  | cons entry entries ih =>
    obtain ⟨path, content⟩ := entry
    unfold fileContents SourceVerification.fileContents at ih ⊢
    cases content with
    | string content =>
      simp only [List.map_cons, member, value, List.filterMap_cons, ih]
      rfl
    | null | boolean | number | array | object => exact ih

theorem openProject_text (files entrypoint : Option Json) :
    openProject parse (files.map value) (entrypoint.map value) =
      match SourceVerification.openProject parseText files entrypoint with
      | .ok project => .ok (submitted project)
      | .error error => .error (text error) := by
  unfold openProject SourceVerification.openProject
  cases files with
  | none => rfl
  | some files =>
    cases files with
    | object entries =>
      rw [Option.map_some, value_object]
      dsimp only
      rw [invalidFile_text, fileContents_text, normalizeEntrypoint_value]
      cases SourceVerification.invalidFile entries with
      | some error => rfl
      | none =>
        cases SourceVerification.normalizeEntrypoint entrypoint with
        | none => rfl
        | some dir =>
          have looked := lookup_map text (SourceVerification.fileContents entries)
          simp only [Option.map_none, Option.map_some, projectPath_text]
          rw [show (SourceVerification.fileContents entries).map file =
            (SourceVerification.fileContents entries).map fun entry => (text entry.1, text entry.2) from rfl, looked, looked]
          cases (SourceVerification.fileContents entries).lookup (SourceVerification.projectPath dir "Cargo.toml") with
          | none => rfl
          | some cargoToml =>
            rw [Option.map_some, Option.isNone_map]
            dsimp only
            split_ifs
            · rfl
            · rw [readCargoPackage_text same]
              cases SourceVerification.readCargoPackage parseText cargoToml with
              | named name => rfl
              | invalidToml => exact congrArg Except.error (text_append _ _).symm
              | noPackage => exact congrArg Except.error (text_append _ _).symm
    | null | boolean | number | string | array => rfl

end

end SourceVerification.Submitted
