import SourceVerification.Compile.PackageMetadata
import SourceVerification.Registry.Imported
import SourceVerification.StatusPage.Notify

set_option autoImplicit false

namespace SourceVerification.StatusPage

open Compile (Answer Body isOk TargetType.asStr)
open Registry (Database Fetched ImportedResource Package RowId StandardAccountComponent Thrown Timestamp VerifiedAccount
  VerifiedAccountById VerifiedAccountComponent VerifiedNote VerifiedNoteById VerifiedRecord fetchJson)

/-- What the `fetch` of a check comes to: it may throw, and the body may not be JSON. -/
inductive Fetch
  | failed (message : String)
  | response (status : Nat) (statusText : String) (payload : Option Json)

structure EndpointCheck where
  id : String
  showPayload : Bool
  summarize : Bool
  -- An error message when the response is wrong.
  assert : Option (Json → Option String)

structure EndpointStatus where
  id : String
  health : CheckHealth
  httpStatus : Option Nat
  error : Option String

def ok (status : Nat) : Bool := 200 ≤ status && status ≤ 299

def probeEndpoint (check : EndpointCheck) : Fetch → EndpointStatus
  | .failed message => ⟨check.id, .unhealthy, none, some message⟩
  | .response status statusText payload =>
    if !ok status then
      let text := Strings.trim s!"HTTP {status} {statusText}".toList
      ⟨check.id, .unhealthy, some status, some (String.ofList text)⟩
    -- Nothing to inspect.
    else if !check.showPayload && !check.summarize && check.assert.isNone then
      ⟨check.id, .healthy, some status, none⟩
    else
      match payload with
      | none => ⟨check.id, .unhealthy, some status, some "Response body was not valid JSON"⟩
      | some payload =>
        let assertion := check.assert.bind fun assert => assert payload
        ⟨check.id, if assertion.isNone then .healthy else .unhealthy, some status, assertion⟩

def Fetch.Spoilt : Fetch → Prop
  | .failed _ | .response _ _ none => True
  | .response status _ (some _) => ok status = false

/-- What becomes of a check's request: it reaches the service and its answer comes back; or there is no connection, the
check's timeout passes first, the answer breaks off, or what is in front of the service refuses in its place. -/
inductive Delivery
  | delivered
  | lost (fetch : Fetch) (spoilt : fetch.Spoilt)

def Delivery.fetch (delivery : Delivery) (own : Fetch) : Fetch :=
  match delivery with
  | .delivered => own
  | .lost fetch _ => fetch

-- A field of `asRecord(payload)`.
def field (payload : Json) (name : String) : Option Json :=
  match payload with
  | .object entries => entries.lookup name
  | _ => none

def IsText (value : Option Json) (text : String) : Bool :=
  match value with
  | some (.string found) => found = text
  | _ => false

def items (value : Option Json) : List Json :=
  match value with
  | some (.array items) => items
  | _ => []

def NETWORK_ID : String := "mtst"

structure Fixtures where
  accountId : String
  accountCode : Word
  noteId : String
  noteScript : Word

def Fixtures.id (fixtures : Fixtures) : Kind → String
  | .account => fixtures.accountId
  | .note => fixtures.noteId

def Fixtures.root (fixtures : Fixtures) : Kind → Word
  | .account => fixtures.accountCode
  | .note => fixtures.noteScript

def rootCheck : EndpointCheck where
  id := "root"
  showPayload := true
  summarize := false
  assert := none

def verifiedAccountCheck (fixtures : Fixtures) (byId : Bool) : EndpointCheck where
  id := if byId then "verified-account-by-id" else "verified-account-by-code"
  showPayload := false
  summarize := true
  assert := some fun body =>
    if !IsText (field body "code") fixtures.accountCode.text then
      some "returned a record for a different code root"
    else if !IsText (field body "networkId") NETWORK_ID then some "returned a record for a different network"
    else if (items (field body "verifiedAccountComponents")).length = 0 then
      some "record has no verified components"
    else if byId && !IsText (field body "accountId") fixtures.accountId then some "echoed a different accountId"
    else none

def verifiedNoteCheck (fixtures : Fixtures) (byId : Bool) : EndpointCheck where
  id := if byId then "verified-note-by-id" else "verified-note-by-script"
  showPayload := false
  summarize := true
  assert := some fun body =>
    if !IsText (field body "script") fixtures.noteScript.text then
      some "returned a record for a different script root"
    else if !IsText (field body "networkId") NETWORK_ID then some "returned a record for a different network"
    else if !IsText ((field body "package").bind (field · "type")) "note" then some "record's package is not a note"
    else if byId && !IsText (field body "noteId") fixtures.noteId then some "echoed a different noteId"
    else none

def recordCheck (fixtures : Fixtures) : Kind → Bool → EndpointCheck
  | .account => verifiedAccountCheck fixtures
  | .note => verifiedNoteCheck fixtures

def importCheck (fixtures : Fixtures) : EndpointCheck where
  id := "import"
  showPayload := false
  summarize := true
  assert := some fun body =>
    if !IsText (field body "type") "account" then some "expected an account"
    else if IsText (field body "code") fixtures.accountCode.text then none
    else some "code root does not match the known fixture"

def orNull (value : Option String) : Json :=
  value.elim .null .string

section

variable (uuid : RowId → String) (iso : Timestamp → String) (statusText : Nat → String)

def packageJson (package : Package) : Json :=
  .object [
    ("id", .string (uuid package.id)),
    ("name", .string package.name),
    ("type", .string (TargetType.asStr package.type)),
    ("files", .object (package.files.map fun (path, content) => (path, .string content))),
    ("commitment", .string package.commitment.text),
    ("manifest", package.manifest),
    ("entrypoint", orNull package.entrypoint),
    ("builtWith", orNull package.builtWith),
    ("debugCommitment", orNull (package.debugCommitment.map (·.text))),
    ("debugBuiltWith", orNull package.debugBuiltWith),
    ("readOnly", package.readOnly),
    ("createdAt", .string (iso package.createdAt)),
    ("updatedAt", .string (iso package.updatedAt))]

def componentJson (component : VerifiedAccountComponent) : Json :=
  .object [
    ("id", .string (uuid component.id)),
    ("verifiedAccountId", .string (uuid component.verifiedAccountId)),
    ("packageId", .string (uuid component.packageId)),
    ("packageCommitment", .string component.packageCommitment.text),
    ("source", .string component.source),
    ("createdAt", .string (iso component.createdAt)),
    ("updatedAt", .string (iso component.updatedAt)),
    ("package", packageJson uuid iso component.package),
    ("debugPackage", component.debugPackage.elim .null fun commitment =>
      .object [("commitment", .string commitment.text)])]

def accountFields (account : VerifiedAccount) : List (String × Json) := [
  ("id", .string (uuid account.id)),
  ("networkId", .string account.networkId),
  ("code", .string account.code.text),
  ("createdAt", .string (iso account.createdAt)),
  ("updatedAt", .string (iso account.updatedAt)),
  ("verifiedAccountComponents", .array (account.verifiedAccountComponents.map (componentJson uuid iso)))]

def noteFields (note : VerifiedNote) : List (String × Json) := [
  ("id", .string (uuid note.id)),
  ("networkId", .string note.networkId),
  ("script", .string note.script.text),
  ("source", .string note.source),
  ("packageId", .string (uuid note.packageId)),
  ("packageCommitment", .string note.packageCommitment.text),
  ("createdAt", .string (iso note.createdAt)),
  ("updatedAt", .string (iso note.updatedAt)),
  ("package", packageJson uuid iso note.package)]

def standardComponentJson (component : StandardAccountComponent) : Json :=
  .object [("name", .string component.name), ("procedures", .array (component.procedures.map .string))]

def recordJson : VerifiedRecord → Json
  | .account account => .object (accountFields uuid iso account.toVerifiedAccount ++ [
      ("accountId", .string account.accountId),
      ("standardAccountComponents", .array (account.standardAccountComponents.map standardComponentJson)),
      ("procedures", .array (account.procedures.map .string))])
  | .note note => .object (noteFields uuid iso note.toVerifiedNote ++ [("noteId", .string note.noteId)])

def importedJson : ImportedResource → Json
  | .account code standardAccountComponents procedures => .object [
      ("type", .string "account"),
      ("code", .string code.text),
      ("standardAccountComponents", .array (standardAccountComponents.map standardComponentJson)),
      ("procedures", .array (procedures.map .string))]
  | .note code => .object [("type", .string "note"), ("code", .string code.text)]

-- api-compile's answer to the import, as the check's own `fetch` finds it.
def fetchImport : Fetched ImportedResource → Fetch
  | .answered (.ok status _ body) => .response status (statusText status) (body.read.map importedJson)
  | .answered (.failed status _ _ body) =>
    .response status (statusText status) (body.read.map fun error => .object [("error", orNull error)])
  | .timedOut => .failed "The operation was aborted due to timeout"
  | .unreachable message => .failed message

def findRecord (database : Except String Database) (fixtures : Fixtures) (kind : Kind) (byId : Bool)
    (imported : Fetched ImportedResource) : Except Thrown Json :=
  if byId then
    recordJson uuid iso <$> Registry.findVerifiedRecord database NETWORK_ID kind (fixtures.id kind) (fetchJson imported)
  else
    match database, kind with
    | .error message, _ => .error ⟨.message message, none⟩
    | .ok db, .account =>
      ((fun account => .object (accountFields uuid iso account)) <$>
        Registry.getAccountByCode db NETWORK_ID fixtures.accountCode.text).mapError (⟨·, none⟩)
    | .ok db, .note =>
      ((fun note => .object (noteFields uuid iso note)) <$>
        Registry.getNoteByScript db NETWORK_ID fixtures.noteScript.text).mapError (⟨·, none⟩)

def fetchRecord (database : Except String Database) (fixtures : Fixtures) (kind : Kind) (byId : Bool)
    (imported : Fetched ImportedResource) : Fetch :=
  match findRecord uuid iso database fixtures kind byId imported with
  | .ok payload => .response 200 (statusText 200) (some payload)
  | .error thrown =>
    let status := Registry.statusOf thrown.error
    .response status (statusText status) (some (.object [("error", orNull (Registry.messageOf thrown.error))]))

/-- What a check meets: the calls before it, the database when it is out, the registry's own import of the resource,
and what becomes of the request. -/
structure Circumstances where
  calls : List Registry.ServiceCall
  outage : Option String
  imported : Fetched ImportedResource
  delivery : Delivery

def Circumstances.database (met : Circumstances) : Except String Database :=
  match met.outage with
  | none => .ok (Registry.serveAll met.calls).db
  | some message => .error message

def probeRecord (fixtures : Fixtures) (kind : Kind) (byId : Bool) (met : Circumstances) : EndpointStatus :=
  probeEndpoint (recordCheck fixtures kind byId)
    (met.delivery.fetch (fetchRecord uuid iso statusText met.database fixtures kind byId met.imported))

def probeRegistry (root : Fetch) (fixtures : Fixtures) (met : Kind → Bool → Circumstances) : ProbedService :=
  let record (kind : Kind) (byId : Bool) := probeRecord uuid iso statusText fixtures kind byId (met kind byId)
  probeService "api-registry" "api-registry" ([
    probeEndpoint rootCheck root,
    record .account false,
    record .account true,
    record .note false,
    record .note true].map (·.health))

end

variable {uuid : RowId → String} {iso : Timestamp → String} {statusText : Nat → String} {fixtures : Fixtures}

def Wrong (check : EndpointCheck) (payload : Json) : Option String :=
  check.assert.bind fun assert => assert payload

theorem probe_response {check : EndpointCheck} (asserts : check.assert.isSome) {status : Nat} {text : String}
    {payload : Option Json} :
    (probeEndpoint check (.response status text payload)).health = .healthy ↔
      ok status = true ∧ ∃ found, payload = some found ∧ Wrong check found = none := by
  obtain ⟨assert, has⟩ := Option.isSome_iff_exists.mp asserts
  unfold probeEndpoint Wrong
  by_cases good : ok status = true
  next =>
    cases payload with
    | none => simp [good, has]
    | some found => cases assertion : assert found <;> simp [good, has, assertion]
  next => simp [good]

theorem statusOf_not_ok (error : Registry.Error) : ok (Registry.statusOf error) = false := by
  unfold Registry.statusOf ok
  cases error with
  | http error =>
    dsimp only
    split_ifs with within
    next => simp; omega
    next => rfl
  | violation violation => rfl
  | message text => rfl

theorem recordCheck_asserts (kind : Kind) (byId : Bool) : (recordCheck fixtures kind byId).assert.isSome := by
  cases kind <;> rfl

theorem record_healthy_iff {database : Except String Database} {kind : Kind} {byId : Bool}
    {imported : Fetched ImportedResource} :
    (probeEndpoint (recordCheck fixtures kind byId)
        (fetchRecord uuid iso statusText database fixtures kind byId imported)).health = .healthy ↔
      ∃ payload, findRecord uuid iso database fixtures kind byId imported = .ok payload ∧
        Wrong (recordCheck fixtures kind byId) payload = none := by
  unfold fetchRecord
  cases found : findRecord uuid iso database fixtures kind byId imported with
  | error thrown => simp [probe_response (recordCheck_asserts kind byId), statusOf_not_ok]
  | ok payload => simp [probe_response (recordCheck_asserts kind byId), ok]

@[simp] theorem isText_string (found text : String) : IsText (some (.string found)) text = decide (found = text) := rfl

@[simp] theorem items_array (elements : List Json) : items (some (.array elements)) = elements := rfl

theorem text_eq_iff {word other : Word} : word.text = other.text ↔ word = other :=
  ⟨Word.eq_of_text, congrArg _⟩

theorem account_wrong (account : VerifiedAccount) (extra : List (String × Json)) (byId : Bool) :
    Wrong (verifiedAccountCheck fixtures byId) (.object (accountFields uuid iso account ++ extra)) = none ↔
      account.code = fixtures.accountCode ∧ account.networkId = NETWORK_ID ∧
        account.verifiedAccountComponents ≠ [] ∧
          (byId = true → IsText (extra.lookup "accountId") fixtures.accountId = true) := by
  have code : field (.object (accountFields uuid iso account ++ extra)) "code" = some (.string account.code.text) := rfl
  have networkId : field (.object (accountFields uuid iso account ++ extra)) "networkId" =
      some (.string account.networkId) := rfl
  have components : field (.object (accountFields uuid iso account ++ extra)) "verifiedAccountComponents" =
      some (.array (account.verifiedAccountComponents.map (componentJson uuid iso))) := rfl
  have accountId : field (.object (accountFields uuid iso account ++ extra)) "accountId" = extra.lookup "accountId" :=
    rfl
  simp only [Wrong, verifiedAccountCheck, Option.bind_some, code, networkId, components, accountId, isText_string,
    items_array, text_eq_iff, List.length_eq_zero_iff]
  split_ifs <;> simp_all

theorem note_wrong (note : VerifiedNote) (extra : List (String × Json)) (byId : Bool) :
    Wrong (verifiedNoteCheck fixtures byId) (.object (noteFields uuid iso note ++ extra)) = none ↔
      note.script = fixtures.noteScript ∧ note.networkId = NETWORK_ID ∧ note.package.type = .note ∧
        (byId = true → IsText (extra.lookup "noteId") fixtures.noteId = true) := by
  have script : field (.object (noteFields uuid iso note ++ extra)) "script" = some (.string note.script.text) := rfl
  have networkId : field (.object (noteFields uuid iso note ++ extra)) "networkId" = some (.string note.networkId) :=
    rfl
  have type : (field (.object (noteFields uuid iso note ++ extra)) "package").bind (field · "type") =
      some (.string (TargetType.asStr note.package.type)) := rfl
  have noteId : field (.object (noteFields uuid iso note ++ extra)) "noteId" = extra.lookup "noteId" := rfl
  have named : TargetType.asStr note.package.type = "note" ↔ note.package.type = .note := by
    cases note.package.type <;> simp [TargetType.asStr]
  simp only [Wrong, verifiedNoteCheck, Option.bind_some, script, networkId, type, noteId, isText_string, text_eq_iff,
    named]
  split_ifs <;> simp_all

def OnRecord (db : Database) : Kind → Word → Prop
  | .account, code => (db.ledger .account NETWORK_ID code).Nonempty
  | .note, script => ∃ entry ∈ db.ledger .note NETWORK_ID script, ∃ row ∈ db.packages,
      row.commitment = entry.packageCommitment ∧ row.type = .note

def Imports (imported : Fetched ImportedResource) (kind : Kind) (root : Word) : Prop :=
  ∃ resource, fetchJson imported = .ok resource ∧ resource.kind = kind ∧ resource.root = root

theorem findVerifiedRecord_ok_iff {database : Except String Database} {networkId : String} {kind : Kind} {id : String}
    {imported : Fetched ImportedResource} {record : VerifiedRecord} :
    Registry.findVerifiedRecord database networkId kind id (fetchJson imported) = .ok record ↔
      ∃ db resource, database = .ok db ∧ fetchJson imported = .ok resource ∧ resource.kind = kind ∧
        Registry.readRecord db networkId kind id resource = .ok record := by
  constructor
  · intro found
    have answered : Registry.getById database networkId kind id imported = .ok record := by
      rw [Registry.getById, found]
    exact Registry.getById_ok database networkId kind id answered
  · rintro ⟨db, resource, rfl, read, same, recorded⟩
    simp [Registry.findVerifiedRecord, read, same, recorded, Except.mapError]

theorem readRecord_account {db : Database} {networkId id : String} {code : Word}
    {standard : List StandardAccountComponent} {procedures : List String} {record : VerifiedRecord} :
    Registry.readRecord db networkId .account id (.account code standard procedures) = .ok record ↔
      ∃ account, Registry.readVerifiedAccount db networkId code = .ok account ∧
        record = .account ⟨account, id, standard, procedures⟩ := by
  unfold Registry.readRecord Registry.findVerifiedAccount
  cases read : Registry.readVerifiedAccount db networkId code with
  | error error => simp [Registry.importedAs, bind, Except.bind, read, Functor.map, Except.map]
  | ok account =>
    simp [Registry.importedAs, bind, Except.bind, read, Functor.map, Except.map, eq_comm]

theorem readRecord_note {db : Database} {networkId id : String} {script : Word} {record : VerifiedRecord} :
    Registry.readRecord db networkId .note id (.note script) = .ok record ↔
      ∃ note, Registry.readVerifiedNote db networkId script = .ok note ∧ record = .note ⟨note, id⟩ := by
  unfold Registry.readRecord Registry.findVerifiedNote
  cases read : Registry.readVerifiedNote db networkId script with
  | error error => simp [Registry.importedAs, bind, Except.bind, read, Functor.map, Except.map]
  | ok note => simp [Registry.importedAs, bind, Except.bind, read, Functor.map, Except.map, eq_comm]

theorem read_account_iff {db : Database} (sound : db.Sound) {code : Word} {passes : VerifiedAccount → Prop}
    (same : ∀ account, passes account ↔ account.code = fixtures.accountCode ∧ account.networkId = NETWORK_ID ∧
      account.verifiedAccountComponents ≠ []) :
    (∃ account, Registry.readVerifiedAccount db NETWORK_ID code = .ok account ∧ passes account) ↔
      code = fixtures.accountCode ∧ OnRecord db .account fixtures.accountCode := by
  have answer := Registry.readVerifiedAccount_answer sound NETWORK_ID code
  cases read : Registry.readVerifiedAccount db NETWORK_ID code with
  | error error =>
    rw [read] at answer
    constructor
    · rintro ⟨account, ⟨⟩, -⟩
    · rintro ⟨rfl, recorded⟩
      exact absurd answer.2 recorded.ne_empty
  | ok account =>
    rw [read] at answer
    obtain ⟨network, sameCode, recorded, -, entries, -⟩ := answer
    have components : account.verifiedAccountComponents ≠ [] := by
      intro empty
      obtain ⟨entry, member⟩ := recorded
      simpa [empty] using (entries entry).mpr member
    constructor
    · rintro ⟨_, ⟨⟩, passed⟩
      obtain rfl := sameCode.symm.trans ((same _).mp passed).1
      exact ⟨rfl, recorded⟩
    · rintro ⟨rfl, -⟩
      exact ⟨account, rfl, (same account).mpr ⟨sameCode, network, components⟩⟩

theorem read_note_iff {db : Database} (sound : db.Sound) {script : Word} {passes : VerifiedNote → Prop}
    (same : ∀ note, passes note ↔ note.script = fixtures.noteScript ∧ note.networkId = NETWORK_ID ∧
      note.package.type = .note) :
    (∃ note, Registry.readVerifiedNote db NETWORK_ID script = .ok note ∧ passes note) ↔
      script = fixtures.noteScript ∧ OnRecord db .note fixtures.noteScript := by
  have answer := Registry.readVerifiedNote_answer sound.toKeyed NETWORK_ID script
  cases read : Registry.readVerifiedNote db NETWORK_ID script with
  | error error =>
    rw [read] at answer
    constructor
    · rintro ⟨note, ⟨⟩, -⟩
    · rintro ⟨rfl, entry, member, -⟩
      exact absurd member (answer.2 ▸ Set.notMem_empty entry)
  | ok note =>
    rw [read] at answer
    obtain ⟨network, sameScript, only, row, stored, commitment, package⟩ := answer
    constructor
    · rintro ⟨_, ⟨⟩, passed⟩
      obtain ⟨scripted, -, typed⟩ := (same _).mp passed
      obtain rfl := sameScript.symm.trans scripted
      have member : note.entry ∈ db.ledger .note NETWORK_ID fixtures.noteScript := only ▸ rfl
      exact ⟨rfl, note.entry, member, row, stored, commitment, by rw [package] at typed; exact typed⟩
    · rintro ⟨rfl, entry, member, other, kept, key, typed⟩
      rw [only] at member
      obtain rfl : entry = note.entry := member
      obtain rfl : row = other :=
        List.inj_on_of_nodup_map sound.packageCommitments stored kept (commitment.trans key.symm)
      exact ⟨note, rfl, (same note).mpr ⟨sameScript, network, by rw [package]; exact typed⟩⟩

theorem account_by_id {db : Database} (sound : db.Sound) {imported : Fetched ImportedResource} :
    (∃ payload, findRecord uuid iso (.ok db) fixtures .account true imported = .ok payload ∧
      Wrong (verifiedAccountCheck fixtures true) payload = none) ↔
      OnRecord db .account fixtures.accountCode ∧ Imports imported .account fixtures.accountCode := by
  have echoed (standard : List StandardAccountComponent) (procedures : List String) (account : VerifiedAccount) :
      Wrong (verifiedAccountCheck fixtures true)
          (recordJson uuid iso (.account ⟨account, fixtures.accountId, standard, procedures⟩)) = none ↔
        account.code = fixtures.accountCode ∧ account.networkId = NETWORK_ID ∧
          account.verifiedAccountComponents ≠ [] := by
    refine (account_wrong account _ true).trans ?_
    simp [List.lookup_cons_self]
  constructor
  · rintro ⟨payload, found, passed⟩
    obtain ⟨record, read, rfl⟩ := Results.map_eq_ok.mp found
    obtain ⟨_, resource, ⟨⟩, imports, kind, recorded⟩ := findVerifiedRecord_ok_iff.mp read
    cases resource with
    | note code => cases kind
    | account code standard procedures =>
      obtain ⟨account, stored, rfl⟩ := readRecord_account.mp recorded
      obtain ⟨rfl, onRecord⟩ := (read_account_iff sound (echoed standard procedures)).mp ⟨account, stored, passed⟩
      exact ⟨onRecord, _, imports, rfl, rfl⟩
  · rintro ⟨onRecord, resource, imports, kind, root⟩
    cases resource with
    | note code => cases kind
    | account code standard procedures =>
      obtain rfl : code = fixtures.accountCode := root
      obtain ⟨account, stored, passed⟩ := (read_account_iff sound (echoed standard procedures)).mpr ⟨rfl, onRecord⟩
      refine ⟨_, Results.map_eq_ok.mpr ⟨_, findVerifiedRecord_ok_iff.mpr ⟨db, _, rfl, imports, rfl, ?_⟩, rfl⟩, passed⟩
      exact readRecord_account.mpr ⟨account, stored, rfl⟩

theorem note_by_id {db : Database} (sound : db.Sound) {imported : Fetched ImportedResource} :
    (∃ payload, findRecord uuid iso (.ok db) fixtures .note true imported = .ok payload ∧
      Wrong (verifiedNoteCheck fixtures true) payload = none) ↔
      OnRecord db .note fixtures.noteScript ∧ Imports imported .note fixtures.noteScript := by
  have echoed (note : VerifiedNote) :
      Wrong (verifiedNoteCheck fixtures true) (recordJson uuid iso (.note ⟨note, fixtures.noteId⟩)) = none ↔
        note.script = fixtures.noteScript ∧ note.networkId = NETWORK_ID ∧ note.package.type = .note := by
    refine (note_wrong note _ true).trans ?_
    simp [List.lookup_cons_self]
  constructor
  · rintro ⟨payload, found, passed⟩
    obtain ⟨record, read, rfl⟩ := Results.map_eq_ok.mp found
    obtain ⟨_, resource, ⟨⟩, imports, kind, recorded⟩ := findVerifiedRecord_ok_iff.mp read
    cases resource with
    | account code standard procedures => cases kind
    | note script =>
      obtain ⟨note, stored, rfl⟩ := readRecord_note.mp recorded
      obtain ⟨rfl, onRecord⟩ := (read_note_iff sound echoed).mp ⟨note, stored, passed⟩
      exact ⟨onRecord, _, imports, rfl, rfl⟩
  · rintro ⟨onRecord, resource, imports, kind, root⟩
    cases resource with
    | account code standard procedures => cases kind
    | note script =>
      obtain rfl : script = fixtures.noteScript := root
      obtain ⟨note, stored, passed⟩ := (read_note_iff sound echoed).mpr ⟨rfl, onRecord⟩
      refine ⟨_, Results.map_eq_ok.mpr ⟨_, findVerifiedRecord_ok_iff.mpr ⟨db, _, rfl, imports, rfl, ?_⟩, rfl⟩, passed⟩
      exact readRecord_note.mpr ⟨note, stored, rfl⟩

theorem account_by_root {db : Database} (sound : db.Sound) {imported : Fetched ImportedResource} :
    (∃ payload, findRecord uuid iso (.ok db) fixtures .account false imported = .ok payload ∧
      Wrong (verifiedAccountCheck fixtures false) payload = none) ↔ OnRecord db .account fixtures.accountCode := by
  have unechoed (account : VerifiedAccount) :
      Wrong (verifiedAccountCheck fixtures false) (.object (accountFields uuid iso account)) = none ↔
        account.code = fixtures.accountCode ∧ account.networkId = NETWORK_ID ∧
          account.verifiedAccountComponents ≠ [] := by
    rw [← List.append_nil (accountFields uuid iso account)]
    refine (account_wrong account [] false).trans ?_
    simp
  have parsed : Registry.getAccountByCode db NETWORK_ID fixtures.accountCode.text =
      Registry.readVerifiedAccount db NETWORK_ID fixtures.accountCode := by
    rw [Registry.getAccountByCode, parseRoot_text]
  refine Iff.trans ?_ ((read_account_iff sound unechoed).trans (and_iff_right rfl))
  simp only [findRecord, parsed, Bool.false_eq_true, if_false]
  cases Registry.readVerifiedAccount db NETWORK_ID fixtures.accountCode with
  | error error => simp [Functor.map, Except.map, Except.mapError]
  | ok account => simp [Functor.map, Except.map, Except.mapError]

theorem note_by_root {db : Database} (sound : db.Sound) {imported : Fetched ImportedResource} :
    (∃ payload, findRecord uuid iso (.ok db) fixtures .note false imported = .ok payload ∧
      Wrong (verifiedNoteCheck fixtures false) payload = none) ↔ OnRecord db .note fixtures.noteScript := by
  have unechoed (note : VerifiedNote) :
      Wrong (verifiedNoteCheck fixtures false) (.object (noteFields uuid iso note)) = none ↔
        note.script = fixtures.noteScript ∧ note.networkId = NETWORK_ID ∧ note.package.type = .note := by
    rw [← List.append_nil (noteFields uuid iso note)]
    refine (note_wrong note [] false).trans ?_
    simp
  have parsed : Registry.getNoteByScript db NETWORK_ID fixtures.noteScript.text =
      Registry.readVerifiedNote db NETWORK_ID fixtures.noteScript := by
    rw [Registry.getNoteByScript, parseRoot_text]
  refine Iff.trans ?_ ((read_note_iff sound unechoed).trans (and_iff_right rfl))
  simp only [findRecord, parsed, Bool.false_eq_true, if_false]
  cases Registry.readVerifiedNote db NETWORK_ID fixtures.noteScript with
  | error error => simp [Functor.map, Except.map, Except.mapError]
  | ok note => simp [Functor.map, Except.map, Except.mapError]

theorem record_probed {db : Database} (sound : db.Sound) (kind : Kind) (byId : Bool)
    (imported : Fetched ImportedResource) :
    (probeEndpoint (recordCheck fixtures kind byId)
        (fetchRecord uuid iso statusText (.ok db) fixtures kind byId imported)).health = .healthy ↔
      OnRecord db kind (fixtures.root kind) ∧ (byId = true → Imports imported kind (fixtures.root kind)) := by
  rw [record_healthy_iff]
  cases kind with
  | account =>
    cases byId with
    | false => exact (account_by_root sound).trans (by simp [Fixtures.root])
    | true => exact (account_by_id sound).trans (by simp [Fixtures.root])
  | note =>
    cases byId with
    | false => exact (note_by_root sound).trans (by simp [Fixtures.root])
    | true => exact (note_by_id sound).trans (by simp [Fixtures.root])

theorem record_unread (kind : Kind) (byId : Bool) (message : String) (imported : Fetched ImportedResource) :
    (probeEndpoint (recordCheck fixtures kind byId)
        (fetchRecord uuid iso statusText (.error message) fixtures kind byId imported)).health ≠ .healthy := by
  rw [Ne, record_healthy_iff]
  rintro ⟨payload, found, -⟩
  unfold findRecord at found
  split at found
  next =>
    obtain ⟨record, read, -⟩ := Results.map_eq_ok.mp found
    obtain ⟨_, resource, ⟨⟩, -⟩ := findVerifiedRecord_ok_iff.mp read
  next => cases found

theorem imported_wrong (resource : ImportedResource) :
    Wrong (importCheck fixtures) (importedJson resource) = none ↔
      resource.kind = .account ∧ resource.root = fixtures.accountCode := by
  cases resource with
  | note code =>
    have type : field (importedJson (.note code)) "type" = some (.string "note") := rfl
    simp [Wrong, importCheck, type, ImportedResource.kind]
  | account code standard procedures =>
    have type : field (importedJson (.account code standard procedures)) "type" = some (.string "account") := rfl
    have root : field (importedJson (.account code standard procedures)) "code" = some (.string code.text) := rfl
    simp [Wrong, importCheck, type, root, text_eq_iff, ImportedResource.kind, ImportedResource.root]

theorem import_probed {imported : Fetched ImportedResource} :
    (probeEndpoint (importCheck fixtures) (fetchImport statusText imported)).health = .healthy ↔
      Imports imported .account fixtures.accountCode := by
  have asserts : (importCheck fixtures).assert.isSome := rfl
  unfold Imports
  cases imported with
  | timedOut => simp [fetchImport, probeEndpoint, fetchJson]
  | unreachable message => simp [fetchImport, probeEndpoint, fetchJson]
  | answered answer =>
    cases answer with
    | failed status failed retryAfter body =>
      have bad : ok status = false := by
        simpa [ok, isOk] using failed
      simp [fetchImport, probe_response asserts, bad, fetchJson]
    | ok status good body =>
      have fine : ok status = true := by
        simpa [ok, isOk] using good
      cases read : body.read with
      | none => simp [fetchImport, probe_response asserts, fetchJson, read]
      | some resource => simp [fetchImport, probe_response asserts, fine, fetchJson, read, imported_wrong]

theorem rollUp_healthy_iff {endpoints : List CheckHealth} :
    rollUp endpoints = .healthy ↔ ∀ health ∈ endpoints, health = .healthy := by
  have everybody : (endpoints.filter (· = .healthy)).length = endpoints.length ↔
      ∀ health ∈ endpoints, health = .healthy := by
    simp [List.length_filter_eq_length_iff]
  unfold rollUp
  dsimp only
  split_ifs with all none
  next => exact iff_of_true rfl (everybody.mp all)
  next => exact iff_of_false nofun fun good => all (everybody.mpr good)
  next => exact iff_of_false nofun fun good => all (everybody.mpr good)

theorem rollUp_unhealthy_iff {endpoints : List CheckHealth} (checked : endpoints ≠ []) :
    rollUp endpoints = .unhealthy ↔ ∀ health ∈ endpoints, health ≠ .healthy := by
  have nobody : (endpoints.filter (· = .healthy)).length = 0 ↔ ∀ health ∈ endpoints, health ≠ .healthy := by
    simp [List.filter_eq_nil_iff]
  have some : 0 < endpoints.length := List.length_pos_iff.mpr checked
  unfold rollUp
  dsimp only
  split_ifs with all none
  next =>
    refine iff_of_false nofun fun bad => ?_
    have empty := nobody.mpr bad
    omega
  next => exact iff_of_true rfl (nobody.mp none)
  next => exact iff_of_false nofun fun bad => none (nobody.mpr bad)

theorem forall_kind {holds : Kind → Prop} : (∀ kind, holds kind) ↔ holds .account ∧ holds .note := by
  constructor
  · intro all
    exact ⟨all .account, all .note⟩
  · rintro ⟨account, note⟩ kind
    cases kind with
    | account => exact account
    | note => exact note

theorem probe_lost {check : EndpointCheck} (asserts : check.assert.isSome) {fetch : Fetch} (spoilt : fetch.Spoilt) :
    (probeEndpoint check fetch).health ≠ .healthy := by
  cases fetch with
  | failed message => simp [probeEndpoint]
  | response status text payload =>
    rw [Ne, probe_response asserts]
    rintro ⟨good, found, rfl, -⟩
    rw [show ok status = false from spoilt] at good
    cases good

/-- The check arrives, the database can be read and has the record, and the import, where it is needed, finds it. -/
structure Found (fixtures : Fixtures) (kind : Kind) (byId : Bool) (met : Circumstances) : Prop where
  delivered : met.delivery = .delivered
  running : met.outage = none
  recorded : OnRecord (Registry.serveAll met.calls).db kind (fixtures.root kind)
  imports : byId = true → Imports met.imported kind (fixtures.root kind)

theorem probeRecord_healthy_iff {kind : Kind} {byId : Bool} {met : Circumstances} :
    (probeRecord uuid iso statusText fixtures kind byId met).health = .healthy ↔ Found fixtures kind byId met := by
  obtain ⟨calls, outage, imported, delivery⟩ := met
  unfold probeRecord
  cases delivery with
  | lost fetch spoilt =>
    refine iff_of_false (probe_lost (recordCheck_asserts kind byId) spoilt) fun found => ?_
    cases found.delivered
  | delivered =>
    cases outage with
    | some message =>
      refine iff_of_false (record_unread kind byId message imported) fun found => ?_
      cases found.running
    | none =>
      have sound := Registry.serves_integrity Registry.integrity_empty calls
      refine (record_probed sound.toSound kind byId imported).trans ?_
      constructor
      · rintro ⟨recorded, imports⟩
        exact ⟨rfl, rfl, recorded, imports⟩
      · intro found
        exact ⟨found.recorded, found.imports⟩

theorem importCheck_healthy_iff {imported : Fetched ImportedResource} {delivery : Delivery} :
    (probeEndpoint (importCheck fixtures) (delivery.fetch (fetchImport statusText imported))).health = .healthy ↔
      delivery = .delivered ∧ Imports imported .account fixtures.accountCode := by
  cases delivery with
  | lost fetch spoilt =>
    refine iff_of_false (probe_lost rfl spoilt) fun found => ?_
    cases found.1
  | delivered => exact import_probed.trans (by simp)

theorem forall_check {holds : Kind → Bool → Prop} : (∀ kind byId, holds kind byId) ↔
    holds .account false ∧ holds .account true ∧ holds .note false ∧ holds .note true := by
  simp only [forall_kind, Bool.forall_bool, and_assoc]

/-- Whatever the registry is called with before and between the checks, and whatever of it, of its database and of
api-compile is out at which of them: each check of a record passes exactly where the record is found, api-compile's own
check of the import exactly where the import finds the account; the registry is shown as healthy exactly where `GET /`
answers and every check finds its record, and as unhealthy exactly where nothing does. -/
theorem registry_probed (uuid : RowId → String) (iso : Timestamp → String) (statusText : Nat → String)
    (fixtures : Fixtures) (root : Fetch) (met : Kind → Bool → Circumstances) (imported : Fetched ImportedResource)
    (delivery : Delivery) :
    (∀ kind byId, (probeRecord uuid iso statusText fixtures kind byId (met kind byId)).health = .healthy ↔
      Found fixtures kind byId (met kind byId)) ∧
    ((probeEndpoint (importCheck fixtures) (delivery.fetch (fetchImport statusText imported))).health = .healthy ↔
      delivery = .delivered ∧ Imports imported .account (fixtures.root .account)) ∧
    ((probeRegistry uuid iso statusText root fixtures met).health = .healthy ↔
      (probeEndpoint rootCheck root).health = .healthy ∧ ∀ kind byId, Found fixtures kind byId (met kind byId)) ∧
    ((probeRegistry uuid iso statusText root fixtures met).health = .unhealthy ↔
      (probeEndpoint rootCheck root).health ≠ .healthy ∧ ∀ kind byId, ¬ Found fixtures kind byId (met kind byId)) := by
  refine ⟨fun kind byId => probeRecord_healthy_iff, importCheck_healthy_iff, ?_, ?_⟩
  case refine_1 =>
    refine rollUp_healthy_iff.trans ?_
    simp only [List.map_cons, List.map_nil, List.forall_mem_cons, List.not_mem_nil, false_implies, implies_true, and_true,
      probeRecord_healthy_iff, forall_check]
  case refine_2 =>
    refine (rollUp_unhealthy_iff (by simp)).trans ?_
    simp only [List.map_cons, List.map_nil, List.forall_mem_cons, List.not_mem_nil, false_implies, implies_true, and_true,
      probeRecord_healthy_iff, forall_check, Ne]

end SourceVerification.StatusPage
