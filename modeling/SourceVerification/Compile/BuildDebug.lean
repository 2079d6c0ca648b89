import SourceVerification.Compile.Verification

set_option autoImplicit false

namespace SourceVerification.Compile

def MAX_DEBUG_MASP_BYTES : Nat := 16 * 1024 * 1024

def procedureExportPaths (manifest : Package) : List String :=
  manifest.procedureExports.map (·.path)

structure DebugSteps where
  cargoMidenError : Option String
  stat : Except String Nat
  readFile : Except String Masp
  midenPackageMetadata : Except String Package

def buildDebug (steps : DebugSteps) (releaseManifest : Package) (builtWith : Option String) : DebugBuild :=
  match steps.cargoMidenError.filter (· ≠ "") with
  | some cargoMidenError => .failed cargoMidenError
  | none =>
    match steps.stat with
    | .error error => .failed error
    | .ok size =>
      if MAX_DEBUG_MASP_BYTES < size then .failed "debug build too large"
      else
        match steps.readFile, steps.midenPackageMetadata with
        | .error error, _ => .failed error
        | .ok _, .error error => .failed error
        | .ok masp, .ok manifest =>
          let debugPaths := procedureExportPaths manifest
          if (procedureExportPaths releaseManifest).all (· ∈ debugPaths) then
            .built masp manifest.dependencyCommitment builtWith
          else .failed "debug build exports differ"

/-- The debug build succeeds, with an artifact that can be read and is not too large. -/
structure DebugSteps.Reads (steps : DebugSteps) (masp : Masp) (manifest : Package) : Prop where
  built : ∀ error, steps.cargoMidenError = some error → error = ""
  small : ∃ size, steps.stat = .ok size ∧ size ≤ MAX_DEBUG_MASP_BYTES
  masp : steps.readFile = .ok masp
  manifest : steps.midenPackageMetadata = .ok manifest

variable {steps : DebugSteps} {release : Package} {builtWith : Option String}

theorem DebugSteps.Reads.buildDebug {masp : Masp} {debug : Package} (reads : steps.Reads masp debug) :
    Compile.buildDebug steps release builtWith =
      if ∀ path ∈ procedureExportPaths release, path ∈ procedureExportPaths debug then
        .built masp debug.dependencyCommitment builtWith
      else .failed "debug build exports differ" := by
  have built : steps.cargoMidenError.filter (· ≠ "") = none := by
    simpa [Option.filter_eq_none_iff] using reads.built
  obtain ⟨size, stat, small⟩ := reads.small
  rw [Compile.buildDebug, built]
  simp [stat, Nat.not_lt.mpr small, reads.masp, reads.manifest]

theorem reads_of_buildDebug {masp : Masp} {commitment : Word} {version : Option String}
    (answered : buildDebug steps release builtWith = .built masp commitment version) :
    ∃ debug, steps.Reads masp debug ∧
      ∀ path ∈ procedureExportPaths release, path ∈ procedureExportPaths debug := by
  unfold buildDebug at answered
  split at answered
  next => cases answered
  next built =>
    split at answered
    next => cases answered
    next size stat =>
      split_ifs at answered with large
      split at answered
      next => cases answered
      next => cases answered
      next found debug readFile metadata =>
        dsimp only at answered
        split_ifs at answered with pairs
        obtain ⟨rfl, -, -⟩ := DebugBuild.built.inj answered
        refine ⟨debug, ⟨?_, ⟨size, stat, Nat.not_lt.mp large⟩, readFile, metadata⟩, ?_⟩
        · simpa [Option.filter_eq_none_iff] using built
        · simpa using pairs

def SameProcedures (release debug : Package) : Prop :=
  ∀ path, path ∈ procedureExportPaths release ↔ path ∈ procedureExportPaths debug

/-- A debug build is answered only with the release build's procedures exactly when one with all of
them, which can be answered, has no others. -/
theorem buildDebug_same_procedures_iff (steps : DebugSteps) (release : Package)
    (builtWith : Option String) :
    (∀ masp commitment version, buildDebug steps release builtWith = .built masp commitment version →
        ∃ debug, steps.midenPackageMetadata = .ok debug ∧ SameProcedures release debug) ↔
      ∀ masp debug, steps.Reads masp debug →
        (∀ path ∈ procedureExportPaths release, path ∈ procedureExportPaths debug) →
          ∀ path ∈ procedureExportPaths debug, path ∈ procedureExportPaths release := by
  constructor
  · intro same masp debug reads pairs path exported
    have answered : buildDebug steps release builtWith = _ := reads.buildDebug
    rw [if_pos pairs] at answered
    obtain ⟨other, metadata, procedures⟩ := same _ _ _ answered
    obtain rfl := Except.ok.inj (reads.manifest.symm.trans metadata)
    exact (procedures path).mpr exported
  · intro no_others masp commitment version answered
    obtain ⟨debug, reads, pairs⟩ := reads_of_buildDebug answered
    exact ⟨debug, reads.manifest, fun path => ⟨pairs path, no_others masp debug reads pairs path⟩⟩

def counterWithHelper : Package where
  exports := counterPackage.exports ++ [.procedure ⟨"::counter::helper", counterRoot, none⟩]
  dependencyCommitment := counterCommitment

def helperSteps : DebugSteps where
  cargoMidenError := none
  stat := .ok 2
  readFile := .ok [2]
  midenPackageMetadata := .ok counterWithHelper

theorem debug_build_with_helper_answered :
    ¬ ∀ (steps : DebugSteps) (release : Package) (builtWith : Option String) (masp : Masp)
        (commitment : Word) (version : Option String),
      buildDebug steps release builtWith = .built masp commitment version →
        ∃ debug, steps.midenPackageMetadata = .ok debug ∧ SameProcedures release debug := by
  intro same
  obtain ⟨debug, metadata, procedures⟩ :=
    same helperSteps counterPackage none [2] counterCommitment none (by rfl)
  obtain rfl := Except.ok.inj metadata
  exact absurd ((procedures "::counter::helper").mpr (by decide)) (by decide)

end SourceVerification.Compile
