import SourceVerification.Compile.Verifier
import SourceVerification.OpenProject

set_option autoImplicit false

namespace SourceVerification.Compile

structure Toolchain where
  -- The build itself, and what the other tools read from the package.
  build : Project → Bool → Except HttpError Build
  -- The directory of the workspace `cargo locate-project` answers, relative to the root of the files:
  -- empty for the root itself.
  workspace : Project → Option String
  readFile : Project → String → Option String
  -- A directory of the files, or one outside their root.
  relative : ∀ project directory, workspace project = some directory →
    directory = "" ∨ isProjectRelativePath directory = true ∨ "..".toList.isPrefixOf directory.toList = true

def lockPath (directory : String) : String :=
  if directory = "" then "Cargo.lock" else directory ++ "/Cargo.lock"

namespace Toolchain

variable (toolchain : Toolchain)

def readCargoLock (project : Project) : Option (String × String) :=
  match toolchain.workspace project with
  | none => none
  | some directory =>
    let path := lockPath directory
    if "..".toList.isPrefixOf path.toList then none
    else (toolchain.readFile project path).map fun content => (path, content)

def builtFiles (project : Project) : Files :=
  match toolchain.readCargoLock project with
  | some (path, content) => setFile path content project.files
  | none => project.files

def buildProject (project : Project) (debug : Bool) : Except HttpError Build :=
  match toolchain.build project debug with
  | .ok (.built compiled) => .ok (.built { compiled with files := toolchain.builtFiles project })
  | .ok (.failed stderr) => .ok (.failed stderr)
  | .error error => .error error

end Toolchain

def postCompileDebug (api : ApiCompile) (files entrypoint : Option Json) (expectedCommitment : String) :
    Except HttpError DebugBuild :=
  match openProject api.parseToml files entrypoint with
  | .error error => .error ⟨400, error⟩
  | .ok project =>
    if expectedCommitment = "" then .error ⟨400, "missing expectedCommitment"⟩
    else
      match api.queueCompile project true with
      | .error error => .error error
      | .ok (.failed stderr) => .error ⟨400, stderr⟩
      | .ok (.built compiled) =>
        if toLowerCase expectedCommitment ≠ toLowerCase compiled.package.dependencyCommitment.text then
          .error ⟨409, "toolchain no longer reproduces this package"⟩
        else .ok (compiled.debug.getD (.failed "no debug build"))

theorem isLockfile_join {directory : String} (clean : isProjectRelativePath directory = true) :
    IsLockfile (directory ++ "/Cargo.lock") := by
  refine ⟨?_, .inr ⟨directory, rfl⟩⟩
  have slash : "/Cargo.lock" = "/" ++ "Cargo.lock" := by decide
  rw [slash, ← String.append_assoc]
  exact isProjectRelativePath_join.mpr ⟨clean, by decide⟩

theorem lockPath_up {directory : String} (outside : "..".toList.isPrefixOf directory.toList = true) :
    "..".toList.isPrefixOf (lockPath directory).toList = true := by
  have below : directory ≠ "" := by
    rintro rfl
    exact absurd outside (by decide)
  rw [List.isPrefixOf_iff_prefix] at outside ⊢
  rw [lockPath, if_neg below, String.toList_append]
  exact outside.trans (List.prefix_append _ _)

theorem Toolchain.readCargoLock_isLockfile {toolchain : Toolchain} {project : Project} {path content : String}
    (found : toolchain.readCargoLock project = some (path, content)) : IsLockfile path := by
  unfold readCargoLock at found
  split at found
  next => cases found
  next directory located =>
    simp only [Option.ite_none_left_eq_some, Option.map_eq_some_iff, Prod.mk.injEq] at found
    obtain ⟨inside, _, _, rfl, _⟩ := found
    rcases toolchain.relative project directory located with rfl | clean | outside
    · exact ⟨by decide, .inl rfl⟩
    · have below : directory ≠ "" := by
        rintro rfl
        exact absurd clean (by decide)
      rw [lockPath, if_neg below]
      exact isLockfile_join clean
    · exact absurd (lockPath_up outside) inside

end SourceVerification.Compile
