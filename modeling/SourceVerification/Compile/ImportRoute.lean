import SourceVerification.Compile.Verifier
import SourceVerification.Shared.Strings

set_option autoImplicit false

namespace SourceVerification.Compile

inductive ToolExit
  | exited (code : Nat) (stdout stderr message : String)
  | signalled (stderr message : String)
  | timedOut (message : String)
  | notSpawned (message : String)

-- `code` is a number only when the tool exited on its own.
structure ExecFileError where
  code : Option Nat
  stderr : String
  message : String

def execFile : ToolExit → Except ExecFileError String
  | .exited code stdout stderr message =>
    if code = 0 then .ok stdout else .error ⟨some code, stderr, message⟩
  | .signalled stderr message => .error ⟨none, stderr, message⟩
  -- A fresh error, so the partial output is gone.
  | .timedOut message => .error ⟨none, "", message⟩
  | .notSpawned message => .error ⟨none, "", message⟩

def REJECTED_EXIT_CODE : Nat := 2

def trim (text : String) : String :=
  String.ofList (Strings.trim text.toList)

-- Without the prefix `anyhow` adds.
def withoutErrorPrefix (reason : String) : String :=
  if "Error:".toList.isPrefixOf reason.toList then
    String.ofList ((reason.toList.drop "Error:".length).dropWhile Strings.isWhiteSpace)
  else reason

section

variable {α : Type}

-- `parse` is `JSON.parse`, of the results the tool prints.
def run (parse : String → Option α) (name : String) (exit : ToolExit) : ToolRun α :=
  match execFile exit with
  | .error error =>
    let reason := if trim error.stderr = "" then error.message else trim error.stderr
    .error (withoutErrorPrefix reason) (error.code = some REJECTED_EXIT_CODE)
  | .ok stdout =>
    if trim stdout = "" then .error (name ++ " printed no result") false
    else
      match parse stdout with
      | some output => .output output
      | none => .error (name ++ " printed something that isn't JSON") false

def ToolExit.code : ToolExit → Option Nat
  | .exited code _ _ _ => some code
  | .signalled _ _ | .timedOut _ | .notSpawned _ => none

theorem execFile_code {exit : ToolExit} {error : ExecFileError} (failed : execFile exit = .error error) :
    error.code = exit.code := by
  cases exit with
  | exited code stdout stderr message =>
    simp only [execFile] at failed
    split at failed
    · cases failed
    · obtain rfl := Except.error.inj failed
      rfl
  | signalled | timedOut | notSpawned =>
    obtain rfl := Except.error.inj failed
    rfl

theorem execFile_ok {exit : ToolExit} {stdout : String} (ran : execFile exit = .ok stdout) :
    exit.code = some 0 := by
  cases exit with
  | exited code stdout stderr message =>
    simp only [execFile] at ran
    split at ran
    · rename_i zero
      rw [ToolExit.code, zero]
    · cases ran
  | signalled | timedOut | notSpawned => cases ran

theorem run_error {parse : String → Option α} {name : String} {exit : ToolExit} {message : String}
    {rejected : Bool} (failed : run parse name exit = .error message rejected) :
    rejected = decide (exit.code = some REJECTED_EXIT_CODE) := by
  unfold run at failed
  split at failed
  · rename_i error ran
    rw [execFile_code ran] at failed
    exact (ToolRun.error.inj failed).2.symm
  · rename_i stdout ran
    have unrejected : decide (exit.code = some REJECTED_EXIT_CODE) = false := by
      rw [execFile_ok ran]
      rfl
    rw [unrejected]
    split at failed
    · exact (ToolRun.error.inj failed).2.symm
    · split at failed
      · cases failed
      · exact (ToolRun.error.inj failed).2.symm

inductive Body (α : Type)
  | json (content : α)
  | notJson
  | brokeOff

def Body.read : Body α → Option α
  | .json content => some content
  | .notJson | .brokeOff => none

def isOk (status : Nat) : Prop := 200 ≤ status ∧ status ≤ 299

inductive Answer (α : Type)
  | ok (status : Nat) (ok : isOk status) (body : Body α)
  | failed (status : Nat) (failed : ¬ isOk status) (retryAfter : Option String)
      (body : Body (Option String))

def Answer.status : Answer α → Nat
  | .ok status _ _ | .failed status _ _ _ => status

def importAnswer : ToolRun α → Answer α
  | .error message true => .failed 404 (by unfold isOk; omega) none (.json (some message))
  | .error message false => .failed 502 (by unfold isOk; omega) none (.json (some message))
  | .output output => .ok 200 (by unfold isOk; omega) (.json output)

theorem importAnswer_notFound {parse : String → Option α} {name : String} {exit : ToolExit}
    (notFound : (importAnswer (run parse name exit)).status = 404) :
    exit.code = some REJECTED_EXIT_CODE := by
  cases ran : run parse name exit with
  | output output => rw [ran] at notFound; cases notFound
  | error message rejected =>
    have code := run_error ran
    cases rejected with
    | true => exact of_decide_eq_true code.symm
    | false => rw [ran] at notFound; cases notFound

end

end SourceVerification.Compile
