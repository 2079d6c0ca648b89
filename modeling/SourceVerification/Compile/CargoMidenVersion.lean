import SourceVerification.Compile.CargoLock
import SourceVerification.Shared.SingleFlight

set_option autoImplicit false

namespace SourceVerification.Compile

open Runs SingleFlight

abbrev Executed := Except String String

def versionOf (stdout : String) : String :=
  let parts := (stdout.toList.splitOn ' ').map Strings.trim
  let numbers := (parts.getD 1 []).splitOn '.'
  let printed (index : Nat) : String := String.ofList (numbers.getD index "undefined".toList)
  s!"{printed 0}.{printed 1}.{printed 2}"

def readCargoMidenVersion (executed : Executed) : Except String String :=
  executed.map versionOf

/-- `cargoMidenVersionPromise`, with what became of each promise it has held. -/
abbrev Versions := SingleFlight.State String String

def cargoMidenVersion : Versions → SingleFlight.Event Executed → Option Versions :=
  SingleFlight.step readCargoMidenVersion

def builtWith (versions : Versions) (read : Nat) : Option (Option String) :=
  versions.reads[read]?.join.map Except.toOption

def Versions.kept (versions : Versions) : Option String :=
  versions.shared.bind fun read => (builtWith versions read).join

def Solid (text : List Char) : Prop :=
  ∀ char ∈ text, Strings.isWhiteSpace char = false ∧ char ≠ '.'

theorem versionOf_printed {name major minor patch after : List Char} (named : ' ' ∉ name)
    (numbers : Solid major ∧ Solid minor ∧ Solid patch) (blank : Strings.Blank after) (line : ' ' ∉ after) :
    versionOf (String.ofList (name ++ ' ' :: (major ++ '.' :: (minor ++ '.' :: patch) ++ after))) =
      String.ofList (major ++ '.' :: (minor ++ '.' :: patch)) := by
  obtain ⟨majorSolid, minorSolid, patchSolid⟩ := numbers
  have undotted : ∀ text, Solid text → '.' ∉ text := fun text solid member => (solid '.' member).2 rfl
  have solid : ∀ char ∈ major ++ '.' :: (minor ++ '.' :: patch), Strings.isWhiteSpace char = false := by
    have dot : Strings.isWhiteSpace '.' = false := by decide
    simp only [List.mem_append, List.mem_cons]
    rintro char (member | rfl | member | rfl | member)
    · exact (majorSolid char member).1
    · exact dot
    · exact (minorSolid char member).1
    · exact dot
    · exact (patchSolid char member).1
  have one : ' ' ∉ major ++ '.' :: (minor ++ '.' :: patch) ++ after := by
    intro member
    rcases List.mem_append.mp member with inside | trailing
    · exact absurd (solid ' ' inside) (by decide)
    · exact line trailing
  have trimmed : Strings.trim (major ++ '.' :: (minor ++ '.' :: patch) ++ after) =
      major ++ '.' :: (minor ++ '.' :: patch) := by
    have inner : Strings.trim ([] ++ (major ++ '.' :: (minor ++ '.' :: patch)) ++ after) = _ :=
      Strings.trim_around _ nofun blank
    rwa [List.nil_append, Strings.trim_eq_self solid] at inner
  have parts : (major ++ '.' :: (minor ++ '.' :: patch)).splitOn '.' = [major, minor, patch] := by
    rw [List.splitOn_append_cons_self_of_not_mem (undotted _ majorSolid),
      List.splitOn_append_cons_self_of_not_mem (undotted _ minorSolid),
      List.splitOn_eq_singleton (undotted _ patchSolid)]
  unfold versionOf
  rw [String.toList_ofList, List.splitOn_append_cons_self_of_not_mem named, List.splitOn_eq_singleton one]
  simp only [List.map_cons, List.map_nil, List.getD_cons_succ, List.getD_cons_zero, trimmed, parts]
  apply String.toList_injective
  simp [toString]

theorem version_of_buildDebug {steps : DebugSteps} {release : Package} {builtWith version : Option String} {masp : Masp}
    {commitment : Word} (answered : buildDebug steps release builtWith = .built masp commitment version) :
    version = builtWith := by
  obtain ⟨debug, reads, pairs⟩ := reads_of_buildDebug answered
  rw [reads.buildDebug, if_pos pairs] at answered
  exact (DebugBuild.built.inj answered).2.2.symm

theorem buildProject_version {steps : BuildSteps} {tmpDir : List Char} {project : Project} {debug : Bool}
    {expectedCommitment : Option String} {compiled : Compiled}
    (built : buildProject steps tmpDir project debug expectedCommitment = .ok (.built compiled)) :
    compiled.cargoMidenVersion = steps.cargoMidenVersion ∧
      ∀ masp commitment version, compiled.debug = some (.built masp commitment version) →
        version = steps.cargoMidenVersion := by
  simp only [buildProject] at built
  split at built
  next => cases built
  next =>
    split at built
    next => cases built
    next =>
      split at built
      next => cases built
      next => cases built
      next =>
        obtain rfl := Build.built.inj (Except.ok.inj built)
        refine ⟨rfl, ?_⟩
        intro masp commitment version debugged
        dsimp only at debugged
        split_ifs at debugged
        exact version_of_buildDebug (Option.some.inj debugged)

theorem kept_of_found {versions : Versions} {read : Nat} {version : String} (shared : versions.shared = some read)
    (found : versions.reads[read]? = some (some (Except.ok version))) : versions.kept = some version := by
  simp [Versions.kept, builtWith, shared, found, Except.toOption]

theorem found_of_kept {versions : Versions} {version : String} (kept : versions.kept = some version) :
    ∃ read : Nat, versions.reads[read]? = some (some (Except.ok version)) := by
  obtain ⟨read, -, recorded⟩ := Option.bind_eq_some_iff.mp kept
  obtain ⟨outcome, found, ok⟩ := Option.map_eq_some_iff.mp (Option.join_eq_some_iff.mp recorded)
  cases outcome with
  | error message => cases ok
  | ok other =>
    obtain rfl := Option.some.inj ok
    exact ⟨read, Option.join_eq_some_iff.mp found⟩

/-- What a build came to records the server's own version, in both of its packages, or none where cargo failed after
it asked. -/
structure Records (versions : Versions) (events later : List (SingleFlight.Event Executed)) (compiled : Compiled) :
    Prop where
  version : ∀ version, compiled.cargoMidenVersion = some version → versions.kept = some version ∧
    ∃ read stdout, .ends read (.ok stdout) ∈ events ∧ version = versionOf stdout
  without : compiled.cargoMidenVersion = none → ∃ read message, .ends read (.error message) ∈ later
  debug : ∀ masp commitment version, compiled.debug = some (.built masp commitment version) →
    version = compiled.cargoMidenVersion

theorem settled_ok {executed : Executed} {version : String} (settled : readCargoMidenVersion executed = .ok version) :
    ∃ stdout, executed = .ok stdout ∧ version = versionOf stdout := by
  cases executed with
  | error message => cases settled
  | ok stdout => exact ⟨stdout, rfl, (Except.ok.inj settled).symm⟩

theorem settled_error {executed : Executed} {message : String}
    (settled : readCargoMidenVersion executed = .error message) : executed = .error message := by
  cases executed with
  | error failure => exact congrArg Except.error (Except.error.inj settled)
  | ok stdout => cases settled

theorem Records.of_answered {versions : Versions} {events later : List (SingleFlight.Event Executed)} {read : Nat}
    (answered : Answered readCargoMidenVersion events later versions read) {steps : BuildSteps}
    (recorded : builtWith versions read = some steps.cargoMidenVersion) {tmpDir : List Char} {project : Project}
    {debug : Bool} {expectedCommitment : Option String} {compiled : Compiled}
    (built : buildProject steps tmpDir project debug expectedCommitment = .ok (.built compiled)) :
    Records versions events later compiled := by
  obtain ⟨same, debugged⟩ := buildProject_version built
  have inDebug : ∀ masp commitment version, compiled.debug = some (.built masp commitment version) →
      version = compiled.cargoMidenVersion :=
    fun masp commitment version also => (debugged masp commitment version also).trans same.symm
  rw [← same] at recorded
  cases answered with
  | waits out shared => simp [builtWith, out] at recorded
  | succeeded printed version ended settled found shared =>
    obtain ⟨stdout, rfl, rfl⟩ := settled_ok settled
    have here : some (versionOf stdout) = compiled.cargoMidenVersion := by
      simpa [builtWith, found, Except.toOption] using recorded
    refine ⟨?_, fun none => (nomatch none.symm.trans here.symm), inDebug⟩
    intro version records
    obtain rfl := Option.some.inj (here.trans records)
    exact ⟨kept_of_found shared found, read, stdout, ended, rfl⟩
  | failed printed message ended settled found =>
    obtain rfl := settled_error settled
    have here : none = compiled.cargoMidenVersion := by
      simpa [builtWith, found, Except.toOption] using recorded
    exact ⟨fun version records => (nomatch here.trans records), fun _ => ⟨read, message, ended⟩, inDebug⟩

/-- However the builds of a server interleave with cargo's answers: cargo runs for one of them at a time and again only
after a failure, what they record is one and the same version, and none only where cargo failed since they asked. -/
theorem builds_share_version {events : List (SingleFlight.Event Executed)} {versions : Versions}
    (run : Run cargoMidenVersion (fun _ _ => True) .initial events versions) :
    (∀ read other : Nat, versions.reads[read]? = some none → versions.reads[other]? = some none →
      read = other) ∧
    versions.reads.length ≤ failures readCargoMidenVersion events + 1 ∧
    (∀ version, versions.kept = some version → ∀ event after, cargoMidenVersion versions event = some after →
      after = versions) ∧
    ∀ earlier later, events = earlier ++ .asks :: later → ∃ before,
      Run cargoMidenVersion (fun _ _ => True) .initial earlier before ∧
        ∀ steps, builtWith versions before.answering = some steps.cargoMidenVersion →
          ∀ tmpDir project debug expectedCommitment compiled,
            buildProject steps tmpDir project debug expectedCommitment = .ok (.built compiled) →
              Records versions events later compiled := by
  have single : Single versions := run_single run
  refine ⟨fun read other => single.one_out, ?_, ?_, ?_⟩
  case refine_1 =>
    have counted : versions.reads.length = failures readCargoMidenVersion events + versions.shared.isSome.toNat :=
      run_length run
    have small := Bool.toNat_le versions.shared.isSome
    omega
  case refine_2 =>
    intro version kept event after taken
    obtain ⟨read, found⟩ := found_of_kept kept
    exact single.settled found taken
  case refine_3 =>
    rintro earlier later rfl
    obtain ⟨before, reached, answered⟩ := run_answered run
    refine ⟨before, reached, ?_⟩
    intro steps recorded tmpDir project debug expectedCommitment compiled built
    exact .of_answered answered recorded built

theorem second_build_versioned : ∃ versions,
    Run cargoMidenVersion (fun _ _ => True) .initial
      [.asks, .ends 0 (.error "cargo timed out"), .asks, .ends 1 (.ok "cargo-miden 0.11.0\n")] versions ∧
      Records versions [.asks, .ends 0 (.error "cargo timed out"), .asks, .ends 1 (.ok "cargo-miden 0.11.0\n")]
        [.ends 1 (.ok "cargo-miden 0.11.0\n")] { crateCompiled [] with cargoMidenVersion := some "0.11.0" } := by
  have failed : Run cargoMidenVersion (fun _ _ => True) .initial
      [.asks, .ends 0 (.error "cargo timed out")] ⟨[some (.error "cargo timed out")], none⟩ := by
    simpa using (Run.nil.snoc trivial rfl).snoc trivial rfl
  have run : Run cargoMidenVersion (fun _ _ => True) .initial
      ([.asks, .ends 0 (.error "cargo timed out")] ++ [.asks] ++ [.ends 1 (.ok "cargo-miden 0.11.0\n")])
      ⟨[some (.error "cargo timed out"), some (.ok (versionOf "cargo-miden 0.11.0\n"))], some 1⟩ :=
    (failed.snoc trivial rfl).snoc trivial rfl
  refine ⟨_, run, ?_⟩
  obtain ⟨before, reached, records⟩ := (builds_share_version run).2.2.2
    [.asks, .ends 0 (.error "cargo timed out")] [.ends 1 (.ok "cargo-miden 0.11.0\n")] rfl
  obtain rfl := reached.functional failed
  exact records { crateSteps copyRoot with
    cargoMidenVersion := some "0.11.0"
    lock := ⟨none, none, fun _ => none⟩ } (by decide +kernel) (Paths.text copyRoot)
    { files := [], entrypoint := ".", name := "counter" } false none _ rfl

end SourceVerification.Compile
