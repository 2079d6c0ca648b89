import SourceVerification.Compile.ImportRoute
import SourceVerification.Registry.Lookup
import SourceVerification.Shared.Results

set_option autoImplicit false

namespace SourceVerification.Registry

open Compile (Answer Body ToolExit importAnswer importAnswer_notFound run REJECTED_EXIT_CODE)

-- How a `fetch` ended: its timeout may pass before there is an answer.
inductive Fetched (α : Type)
  | answered (answer : Answer α)
  | timedOut
  | unreachable (message : String)

structure ApiCompileError where
  status : Nat
  message : String
  retryAfter : Option String

def fetchJson {α : Type} : Fetched α → Except ApiCompileError α
  | .timedOut => .error ⟨504, "api-compile did not answer in time", none⟩
  | .unreachable message => .error ⟨502, "api-compile is unreachable: " ++ message, none⟩
  | .answered (.failed status _ retryAfter body) =>
    .error ⟨status, body.read.join.getD ("api-compile responded " ++ toString status), retryAfter⟩
  | .answered (.ok _ _ body) =>
    match body.read with
    | some data => .ok data
    | none => .error ⟨502, "api-compile answered with invalid JSON", none⟩

inductive VerifiedRecord
  | account (account : VerifiedAccountById)
  | note (note : VerifiedNoteById)

-- An error on its way to `errorHandler`; api-compile's own may carry a `Retry-After`.
structure Thrown where
  error : Error
  retryAfter : Option String

def ImportedResource.kind : ImportedResource → Kind
  | .account _ _ _ => .account
  | .note _ => .note

def readRecord (db : Database) (networkId : String) (kind : Kind) (id : String)
    (resource : ImportedResource) : Except Error VerifiedRecord :=
  match kind with
  | .account => VerifiedRecord.account <$> findVerifiedAccount db networkId id (.ok resource)
  | .note => VerifiedRecord.note <$> findVerifiedNote db networkId id (.ok resource)

def findVerifiedRecord (database : Except String Database) (networkId : String) (kind : Kind)
    (id : String) (imported : Except ApiCompileError ImportedResource) :
    Except Thrown VerifiedRecord :=
  match imported with
  | .error error =>
    -- Only a resource api-compile could not find on chain is a miss.
    if error.status = 404 then .error ⟨notFound kind, none⟩
    else .error ⟨.http ⟨error.status, error.message⟩, error.retryAfter⟩
  | .ok resource =>
    if resource.kind = kind then
      match database with
      | .error message => .error ⟨.message message, none⟩
      | .ok db => (readRecord db networkId kind id resource).mapError (⟨·, none⟩)
    else .error ⟨notFound kind, none⟩

def statusOf : Error → Nat
  | .http error => if 400 ≤ error.status ∧ error.status ≤ 599 then error.status else 500
  | .violation _ | .message _ => 500

def messageOf : Error → Option String
  | .http error => some error.message
  -- PostgreSQL words it.
  | .violation _ => none
  | .message text => some text

inductive RegistryAnswer
  | ok (record : VerifiedRecord)
  | error (status : Nat) (retryAfter message : Option String)

def RegistryAnswer.status : RegistryAnswer → Nat
  | .ok _ => 200
  | .error status _ _ => status

def RegistryAnswer.retryAfter : RegistryAnswer → Option String
  | .ok _ => none
  | .error _ retryAfter _ => retryAfter

def errorHandler (thrown : Thrown) : RegistryAnswer :=
  .error (statusOf thrown.error) thrown.retryAfter (messageOf thrown.error)

def getById (database : Except String Database) (networkId : String) (kind : Kind) (id : String)
    (fetched : Fetched ImportedResource) : RegistryAnswer :=
  match findVerifiedRecord database networkId kind id (fetchJson fetched) with
  | .ok record => .ok record
  | .error thrown => errorHandler thrown

theorem readVerifiedAccount_error {db : Database} {networkId : String} {code : Word} {error : Error}
    (failed : readVerifiedAccount db networkId code = .error error) :
    db.findAccount networkId code = none ∨ error = missingPackage := by
  unfold readVerifiedAccount at failed
  split at failed
  · exact .inl ‹_›
  · right
    rcases Results.bind_eq_error.mp failed with unread | ⟨components, -, done⟩
    · obtain ⟨component, -, stuck⟩ := Results.mapM_error unread
      rcases Results.bind_eq_error.mp stuck with missing | ⟨package, -, done⟩
      · unfold Database.packageOf at missing
        split at missing
        · cases missing
        · exact (Except.error.inj missing).symm
      · cases done
    · cases done

theorem readVerifiedNote_error {db : Database} {networkId : String} {script : Word} {error : Error}
    (failed : readVerifiedNote db networkId script = .error error) :
    db.findNote networkId script = none ∨ error = missingPackage := by
  unfold readVerifiedNote at failed
  split at failed
  · exact .inl ‹_›
  · right
    rcases Results.bind_eq_error.mp failed with missing | ⟨package, -, done⟩
    · unfold Database.packageOf at missing
      split at missing
      · cases missing
      · exact (Except.error.inj missing).symm
    · cases done

def Unrecorded (db : Database) (networkId : String) : ImportedResource → Prop
  | .account code _ _ => db.findAccount networkId code = none
  | .note script => db.findNote networkId script = none

theorem readRecord_error {db : Database} {networkId id : String} {resource : ImportedResource}
    {error : Error} (failed : readRecord db networkId resource.kind id resource = .error error) :
    Unrecorded db networkId resource ∨ error = missingPackage := by
  cases resource with
  | account code standardAccountComponents procedures =>
    have unread := Results.map_eq_error.mp failed
    have stuck : readVerifiedAccount db networkId code = .error error := by
      rcases Results.bind_eq_error.mp unread with unimported | ⟨_, imported, later⟩
      · cases unimported
      · obtain rfl := Except.ok.inj imported
        rcases Results.bind_eq_error.mp later with stuck | ⟨account, -, done⟩
        · exact stuck
        · cases done
    exact readVerifiedAccount_error stuck
  | note script =>
    have unread := Results.map_eq_error.mp failed
    have stuck : readVerifiedNote db networkId script = .error error := by
      rcases Results.bind_eq_error.mp unread with unimported | ⟨_, imported, later⟩
      · cases unimported
      · obtain rfl := Except.ok.inj imported
        rcases Results.bind_eq_error.mp later with stuck | ⟨note, -, done⟩
        · exact stuck
        · cases done
    exact readVerifiedNote_error stuck

theorem statusOf_notFound {error : Error} (missed : statusOf error = 404) :
    ∃ message, error = .http ⟨404, message⟩ := by
  cases error with
  | http error =>
    obtain ⟨status, message⟩ := error
    simp only [statusOf] at missed
    split at missed
    · exact ⟨message, by rw [missed]⟩
    · cases missed
  | violation violation => cases missed
  | message text => cases missed

theorem errorHandler_status (thrown : Thrown) :
    400 ≤ (errorHandler thrown).status ∧ (errorHandler thrown).status ≤ 599 := by
  simp only [errorHandler, RegistryAnswer.status, statusOf]
  split
  · split <;> omega
  · omega
  · omega

theorem fetchJson_notFound {α : Type} {fetched : Fetched α} {error : ApiCompileError}
    (failed : fetchJson fetched = .error error) (missed : error.status = 404) :
    ∃ answer, fetched = .answered answer ∧ answer.status = 404 := by
  cases fetched with
  | timedOut => obtain rfl := Except.error.inj failed; cases missed
  | unreachable message => obtain rfl := Except.error.inj failed; cases missed
  | answered answer =>
    refine ⟨answer, rfl, ?_⟩
    cases answer with
    | ok status ok body =>
      simp only [fetchJson] at failed
      split at failed
      · cases failed
      · obtain rfl := Except.error.inj failed; cases missed
    | failed status notOk retryAfter body =>
      obtain rfl := Except.error.inj failed
      exact missed

section

variable (parse : String → Option ImportedResource)

/-- How the import behind a lookup ends: api-compile's answer to a run of the tool arrives, or the
call ends in any other way, with an answer or without. -/
inductive ImportCall
  | tool (exit : ToolExit)
  | other (fetched : Fetched ImportedResource)

def ImportCall.fetched : ImportCall → Fetched ImportedResource
  | .tool exit => .answered (importAnswer (run parse "miden-import" exit))
  | .other fetched => fetched

variable (database : Except String Database) (networkId : String) (kind : Kind) (id : String)

inductive Miss : ImportCall → Prop
  | rejected (exit : ToolExit) (code : exit.code = some REJECTED_EXIT_CODE) : Miss (.tool exit)
  | notFound (answer : Answer ImportedResource) (status : answer.status = 404) :
    Miss (.other (.answered answer))
  | otherKind (call : ImportCall) (resource : ImportedResource)
    (imported : fetchJson (call.fetched parse) = .ok resource) (other : resource.kind ≠ kind) :
    Miss call
  | unrecorded (call : ImportCall) (resource : ImportedResource) (db : Database)
    (imported : fetchJson (call.fetched parse) = .ok resource) (same : resource.kind = kind)
    (read : database = .ok db) (none : Unrecorded db networkId resource) : Miss call

theorem getById_notFound {call : ImportCall}
    (missed : (getById database networkId kind id (call.fetched parse)).status = 404) :
    Miss parse database networkId kind call := by
  unfold getById findVerifiedRecord at missed
  cases fetched : fetchJson (call.fetched parse) with
  | error error =>
    simp only [fetched] at missed
    by_cases status : error.status = 404
    · obtain ⟨answer, answered, notFound⟩ := fetchJson_notFound fetched status
      cases call with
      | tool exit =>
        obtain rfl := Fetched.answered.inj answered
        exact .rejected exit (importAnswer_notFound notFound)
      | other ended =>
        obtain rfl : ended = .answered answer := answered
        exact .notFound answer notFound
    · rw [if_neg status] at missed
      have missed : statusOf (.http ⟨error.status, error.message⟩) = 404 := missed
      obtain ⟨message, same⟩ := statusOf_notFound missed
      injection same with same
      exact absurd (congrArg HttpError.status same) status
  | ok resource =>
    simp only [fetched] at missed
    by_cases same : resource.kind = kind
    · rw [if_pos same] at missed
      cases database with
      | error message => cases missed
      | ok db =>
        subst same
        refine .unrecorded call resource db fetched rfl rfl ?_
        cases read : readRecord db networkId resource.kind id resource with
        | ok record => simp only [read] at missed; cases missed
        | error error =>
          simp only [read] at missed
          rcases readRecord_error read with none | rfl
          · exact none
          · cases missed
    · exact .otherKind call resource fetched same

/-- What a lookup answers, by how its import ended. An answer whose body breaks off is only known to
be no success and no miss. -/
structure Classified (call : ImportCall) (answer : RegistryAnswer) : Prop where
  notFound : answer.status = 404 → Miss parse database networkId kind call
  tool : ∀ exit, call = .tool exit → exit.code ≠ some REJECTED_EXIT_CODE →
    (∀ resource, run parse "miden-import" exit ≠ .output resource) → answer.status = 502
  timedOut : call = .other .timedOut → answer.status = 504
  unreachable : ∀ message, call = .other (.unreachable message) → answer.status = 502
  notJson : ∀ status ok, call = .other (.answered (.ok status ok .notJson)) → answer.status = 502
  failed : ∀ status notOk retryAfter body,
    call = .other (.answered (.failed status notOk retryAfter body)) → status ≠ 404 →
      answer.status = (if 400 ≤ status ∧ status ≤ 599 then status else 500) ∧
        answer.retryAfter = retryAfter
  error : ∀ failure, fetchJson (call.fetched parse) = .error failure →
    400 ≤ answer.status ∧ answer.status ≤ 599
  success : ∀ record, answer = .ok record → ∃ db resource, database = .ok db ∧
    fetchJson (call.fetched parse) = .ok resource ∧ resource.kind = kind ∧
      readRecord db networkId kind id resource = .ok record

theorem getById_failed {fetched : Fetched ImportedResource} {error : ApiCompileError}
    (failed : fetchJson fetched = .error error) (miss : error.status ≠ 404) :
    getById database networkId kind id fetched =
      errorHandler ⟨.http ⟨error.status, error.message⟩, error.retryAfter⟩ := by
  simp only [getById, findVerifiedRecord, failed, if_neg miss]

theorem getById_error {fetched : Fetched ImportedResource} {error : ApiCompileError}
    (failed : fetchJson fetched = .error error) :
    400 ≤ (getById database networkId kind id fetched).status ∧
      (getById database networkId kind id fetched).status ≤ 599 := by
  by_cases miss : error.status = 404
  · simp only [getById, findVerifiedRecord, failed, if_pos miss]
    exact errorHandler_status _
  · rw [getById_failed database networkId kind id failed miss]
    exact errorHandler_status _

theorem getById_ok {fetched : Fetched ImportedResource} {record : VerifiedRecord}
    (found : getById database networkId kind id fetched = .ok record) :
    ∃ db resource, database = .ok db ∧ fetchJson fetched = .ok resource ∧ resource.kind = kind ∧
      readRecord db networkId kind id resource = .ok record := by
  unfold getById at found
  split at found
  · rename_i read
    obtain rfl := RegistryAnswer.ok.inj found
    unfold findVerifiedRecord at read
    split at read
    · split at read <;> cases read
    · rename_i resource fetched_ok
      split at read
      · rename_i same
        cases database with
        | error message => cases read
        | ok db => exact ⟨db, resource, rfl, fetched_ok, same, Results.mapError_eq_ok.mp read⟩
      · cases read
  · cases found

theorem getById_classified (call : ImportCall) :
    Classified parse database networkId kind id call
      (getById database networkId kind id (call.fetched parse)) where
  notFound := getById_notFound parse database networkId kind id
  tool := by
    rintro exit rfl code unprinted
    cases ran : run parse "miden-import" exit with
    | output resource => exact absurd ran (unprinted resource)
    | error message rejected =>
      obtain rfl : rejected = false := (Compile.run_error ran).trans (decide_eq_false code)
      simp only [ImportCall.fetched, ran]
      rfl
  timedOut := by rintro rfl; rfl
  unreachable := by rintro message rfl; rfl
  notJson := by rintro status ok rfl; rfl
  failed := by
    rintro status notOk retryAfter body rfl miss
    simp only [ImportCall.fetched]
    rw [getById_failed database networkId kind id rfl miss]
    exact ⟨rfl, rfl⟩
  error _ := getById_error database networkId kind id
  success _ := getById_ok database networkId kind id

end

end SourceVerification.Registry
