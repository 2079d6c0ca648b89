import SourceVerification.Concurrent.Sequential
import SourceVerification.Registry.Ledger
import SourceVerification.Registry.LookupById
import SourceVerification.Registry.MaspStore
import SourceVerification.Registry.Reopening

set_option autoImplicit false

namespace SourceVerification.Registry

open Concurrent (Download DownloadPc World debugCommitmentOf maspNotFound)

theorem serve_integrity {state : State} (sound : Integrity state) (call : ServiceCall) :
    Integrity (state.serve call) := by
  cases call with
  | post request =>
    unfold State.serve postVerified
    dsimp only
    split
    next => exact sound
    next =>
      split
      next => exact sound
      next => exact verifyResource_integrity _ _ _ _ sound
  | debugBuild commitment api outage faults now => exact postDebugBuild_integrity _ _ _ _ _ sound
  | cleanup faults now => exact cleanupPlaygroundResources_integrity _ _ sound

theorem serves_integrity {state : State} (sound : Integrity state) (calls : List ServiceCall) :
    Integrity (calls.foldl State.serve state) := by
  induction calls generalizing state with
  | nil => exact sound
  | cons call rest ih => exact ih (serve_integrity sound call)

theorem ledger_verify_cases (faults : Faults) (ledger : Ledger) (input : VerifyInput)
    (answer : Except Error VerifyResponse) (now : Time) :
    (∃ build, answer = .ok build ∧ build.verified = true ∧
      ¬ ledger.Recorded input.resource.kind input.networkId build.root build.commitment ∧
      (ledger.verify faults input answer now).1 = .ok true ∧
      (ledger.verify faults input answer now).2 =
        ledger.record input.resource.kind input.networkId build.root
          { packageCommitment := build.commitment, source := input.source, createdAt := now }) ∨
    ((ledger.verify faults input answer now).1 ≠ .ok true ∧
      (ledger.verify faults input answer now).2 = ledger) := by
  cases answer with
  | error error => exact .inr ⟨by simp [Ledger.verify], rfl⟩
  | ok build =>
    unfold Ledger.verify
    dsimp only
    split_ifs with unverified _ _ recorded
    · exact .inr ⟨by simp, rfl⟩
    · exact .inr ⟨by simp, rfl⟩
    · exact .inr ⟨by simp, rfl⟩
    · exact .inr ⟨by simp, rfl⟩
    · exact .inr ⟨by simp, rfl⟩
    · exact .inl ⟨build, rfl, by simpa using unverified, recorded, rfl, rfl⟩

def PostRequest.entry (request : PostRequest) (build : VerifyResponse) : Entry where
  packageCommitment := build.commitment
  source := sourceOf request.source
  createdAt := request.now

/-- The verification goes on record, where none of the package was. -/
def PostRequest.Records (request : PostRequest) (build : VerifyResponse) (before after : Ledger) : Prop :=
  ∃ project, openProject request.api.parseToml request.files request.entrypoint = .ok project ∧
    request.answer project = .ok build ∧ build.verified = true ∧
    ¬ before.Recorded request.kind request.networkId build.root build.commitment ∧
    after = before.record request.kind request.networkId build.root (request.entry build)

theorem postVerified_ledger (request : PostRequest) {state : State} (sound : Integrity state) :
    ((postVerified state request).1 = .ok true ∧
      ∃ build, request.Records build state.db.ledger (postVerified state request).2.db.ledger) ∨
    ((postVerified state request).1 ≠ .ok true ∧
      (postVerified state request).2.db.ledger = state.db.ledger) := by
  unfold postVerified
  split
  next => exact .inr ⟨by simp, rfl⟩
  next =>
    split
    next => exact .inr ⟨by simp, rfl⟩
    next project opened =>
      have stands := verifyResource_ledger request.faults (request.input project)
        (request.answer project) request.now sound
      have kind : (request.input project).resource.kind = request.kind := request.resource_kind
      rcases ledger_verify_cases request.faults state.db.ledger (request.input project)
        (request.answer project) request.now with
        ⟨build, built, verified, absent, answered, recorded⟩ | ⟨other, same⟩
      next =>
        rw [← stands] at answered recorded
        rw [kind] at absent recorded
        exact .inl ⟨answered, build, project, opened, built, verified, absent, recorded⟩
      next =>
        rw [← stands] at other same
        exact .inr ⟨other, same⟩

/-- A cleanup spares an entry it does not find expired, and all of them when it fails. -/
def Spares (entry : Entry) : ServiceCall → Prop
  | .cleanup faults now => faults .transaction = true ∨
      expired (now - PLAYGROUND_TTL_MS) entry.source entry.createdAt = false
  | .post _ | .debugBuild .. => True

theorem serve_keeps {state : State} (sound : Integrity state) {kind : Kind} {networkId : String}
    {root : Word} {entry : Entry} (recorded : entry ∈ state.db.ledger kind networkId root)
    {call : ServiceCall} (spares : Spares entry call) :
    entry ∈ (state.serve call).db.ledger kind networkId root := by
  cases call with
  | post request =>
    rcases postVerified_ledger request sound with ⟨_, _, _, _, _, _, _, ledger⟩ | ⟨_, same⟩
    next => exact ledger ▸ .inl recorded
    next => exact same ▸ recorded
  | debugBuild commitment api outage faults now =>
    rw [State.serve, postDebugBuild_ledger]
    exact recorded
  | cleanup faults now =>
    rw [State.serve, cleanupPlaygroundResources_ledger]
    split_ifs with failed
    · exact recorded
    · exact ⟨recorded, spares.resolve_left failed⟩

theorem serves_keep {calls : List ServiceCall} {state : State} (sound : Integrity state) {kind : Kind}
    {networkId : String} {root : Word} {entry : Entry}
    (recorded : entry ∈ state.db.ledger kind networkId root) (spared : ∀ call ∈ calls, Spares entry call) :
    entry ∈ (calls.foldl State.serve state).db.ledger kind networkId root := by
  induction calls generalizing state with
  | nil => exact recorded
  | cons call rest ih =>
    have first := serve_keeps sound recorded (spared call (List.mem_cons_self ..))
    exact ih (serve_integrity sound call) first fun other later =>
      spared other (List.mem_cons_of_mem _ later)

def getMasp (state : State) (file : String) : Except Error Download :=
  match parseMaspKey file with
  | none => .error (.http ⟨400, "invalid package commitment"⟩)
  | some (commitment, variant) =>
    let dbPackage := state.db.getPackage commitment
    let debugCommitment := debugCommitmentOf variant dbPackage
    if variant = .debug ∧ debugCommitment.isNone then .error (maspNotFound variant)
    else
      match state.store.get commitment variant with
      | none => .error (maspNotFound variant)
      | some masp => .ok {
          masp := masp
          debugCommitment := debugCommitment
          name := maspDownloadName ((dbPackage.map (·.name)).getD "") commitment variant }

theorem download_alone (world : World) (file : String) :
    DownloadPc.reading.next world file = some (.idle, .ended (getMasp world.committed file)) ∨
      ∃ pc, DownloadPc.reading.next world file = some (.idle, pc) ∧
        pc.next world file = some (.idle, .ended (getMasp world.committed file)) := by
  unfold getMasp
  cases parsed : parseMaspKey file with
  | none => exact .inl (by simp [DownloadPc.next, parsed])
  | some key =>
    obtain ⟨commitment, variant⟩ := key
    dsimp only
    split
    next unbuilt =>
      left
      simp only [DownloadPc.next, parsed]
      exact if_pos unbuilt
    next built =>
      right
      refine ⟨.getting commitment variant (world.committed.db.getPackage commitment), ?_, ?_⟩
      · simp only [DownloadPc.next, parsed]
        exact if_neg built
      · simp only [DownloadPc.next]
        split
        next missing => simp only [World.committed, missing]
        next masp stored => simp only [World.committed, stored]

theorem parseMaspKey_word (commitment : Word) (variant : MaspVariant) :
    parseMaspKey (maspKey commitment.text variant) = some (commitment, variant) := by
  have root : rootPattern commitment.text = true := by
    have parsed := parseRoot_text commitment
    unfold parseRoot at parsed
    split at parsed
    next root => exact root
    next => cases parsed
  have same := Storage.parseMaspKey_maspKey ⟨commitment.text, root⟩ variant
  rw [same]
  exact congrArg (fun word => some (word, variant)) (Word.eq_of_text commitment.toLowerCase_text)

structure Links (state : State) (package : Package) : Prop where
  release : ∃ download, getMasp state (maspKey package.commitment.text .release) = .ok download ∧
    state.store.get package.commitment .release = some download.masp ∧
    download.debugCommitment = none ∧
    download.name = maspDownloadName package.name package.commitment .release
  debug : ∀ debugCommitment, package.debugCommitment = some debugCommitment →
    ∃ download, getMasp state (maspKey package.commitment.text .debug) = .ok download ∧
      state.store.get package.commitment .debug = some download.masp ∧
      download.debugCommitment = some debugCommitment ∧
      download.name = maspDownloadName package.name package.commitment .debug
  unbuilt : package.debugCommitment = none →
    getMasp state (maspKey package.commitment.text .debug) = .error (maspNotFound .debug)

theorem getPackage_of_mem {db : Database} (keyed : db.Keyed) {row : PackageRow}
    (member : row ∈ db.packages) : db.getPackage row.commitment = some row :=
  Tables.find?_of_mem (fun row : PackageRow => row.commitment) keyed.packageCommitments member

theorem links_of_mem {state : State} (sound : Integrity state) {row : PackageRow}
    (member : row ∈ state.db.packages) : Links state (toPackage row) := by
  have found := getPackage_of_mem sound.toKeyed member
  constructor
  case release =>
    obtain ⟨masp, stored⟩ := Option.isSome_iff_exists.mp (sound.released row member)
    refine ⟨⟨masp, none, maspDownloadName row.name row.commitment .release⟩, ?_, stored, rfl, rfl⟩
    simp [getMasp, toPackage, parseMaspKey_word, stored, found, debugCommitmentOf]
  case debug =>
    intro debugCommitment built
    have has : row.debugCommitment = some debugCommitment := built
    obtain ⟨masp, stored⟩ := Option.isSome_iff_exists.mp (sound.debugged row member (by simp [has]))
    refine ⟨⟨masp, some debugCommitment, maspDownloadName row.name row.commitment .debug⟩, ?_, stored,
      rfl, rfl⟩
    simp [getMasp, toPackage, parseMaspKey_word, stored, found, debugCommitmentOf, has]
  case unbuilt =>
    intro none
    have without : row.debugCommitment = .none := none
    simp [getMasp, toPackage, parseMaspKey_word, found, debugCommitmentOf, without]

theorem Database.Serves.links {state : State} (sound : Integrity state) {package : Package}
    {commitment : Word} (serves : state.db.Serves package commitment) :
    package.commitment = commitment ∧ Links state package := by
  obtain ⟨row, member, rfl, rfl⟩ := serves
  exact ⟨rfl, links_of_mem sound member⟩

def ImportedResource.root : ImportedResource → Word
  | .account code _ _ => code
  | .note code => code

def VerifiedRecord.Shows (state : State) (id : String) (entry : Entry) : VerifiedRecord → Prop
  | .account found => found.accountId = id ∧
      ∃ component ∈ found.verifiedAccountComponents, component.entry = entry ∧
        component.package.commitment = entry.packageCommitment ∧ Links state component.package
  | .note found => found.noteId = id ∧ found.toVerifiedNote.entry = entry ∧
      found.package.commitment = entry.packageCommitment ∧ Links state found.package

theorem readVerifiedAccount_shows {state : State} (sound : Integrity state) {networkId : String}
    {code : Word} {entry : Entry} (recorded : entry ∈ state.db.ledger .account networkId code) :
    ∃ account, readVerifiedAccount state.db networkId code = .ok account ∧
      ∃ component ∈ account.verifiedAccountComponents, component.entry = entry ∧
        component.package.commitment = entry.packageCommitment ∧ Links state component.package := by
  have answer := readVerifiedAccount_answer sound.toSound networkId code
  cases read : readVerifiedAccount state.db networkId code with
  | error error =>
    rw [read] at answer
    exact absurd recorded (answer.2 ▸ Set.notMem_empty entry)
  | ok account =>
    rw [read] at answer
    obtain ⟨-, -, -, -, entries, serves⟩ := answer
    obtain ⟨component, member, same⟩ := List.mem_map.mp ((entries entry).mpr recorded)
    obtain ⟨commitment, links⟩ := (serves component member).links sound
    exact ⟨account, rfl, component, member, same, commitment.trans (congrArg (·.packageCommitment) same),
      links⟩

theorem readVerifiedNote_shows {state : State} (sound : Integrity state) {networkId : String}
    {script : Word} {entry : Entry} (recorded : entry ∈ state.db.ledger .note networkId script) :
    ∃ note, readVerifiedNote state.db networkId script = .ok note ∧ note.entry = entry ∧
      note.package.commitment = entry.packageCommitment ∧ Links state note.package := by
  have answer := readVerifiedNote_answer sound.toKeyed networkId script
  cases read : readVerifiedNote state.db networkId script with
  | error error =>
    rw [read] at answer
    exact absurd recorded (answer.2 ▸ Set.notMem_empty entry)
  | ok note =>
    rw [read] at answer
    obtain ⟨-, -, only, serves⟩ := answer
    rw [only] at recorded
    obtain rfl : entry = note.entry := recorded
    obtain ⟨commitment, links⟩ := serves.links sound
    exact ⟨note, rfl, rfl, commitment, links⟩

theorem getById_shows {state : State} (sound : Integrity state) {networkId : String} {entry : Entry}
    {resource : ImportedResource} {fetched : Fetched ImportedResource}
    (recorded : entry ∈ state.db.ledger resource.kind networkId resource.root)
    (imported : fetchJson fetched = .ok resource) (id : String) :
    ∃ record, getById (.ok state.db) networkId resource.kind id fetched = .ok record ∧
      record.Shows state id entry := by
  unfold getById findVerifiedRecord
  unfold ImportedResource.root ImportedResource.kind at recorded
  cases resource with
  | account code standardAccountComponents procedures =>
    obtain ⟨account, read, component⟩ := readVerifiedAccount_shows sound recorded
    simp only [imported, if_true, ImportedResource.kind, readRecord, findVerifiedAccount, importedAs,
      bind, Except.bind, read]
    exact ⟨_, rfl, rfl, component⟩
  | note script =>
    obtain ⟨note, read, shown⟩ := readVerifiedNote_shows sound recorded
    simp only [imported, if_true, ImportedResource.kind, readRecord, findVerifiedNote, importedAs,
      bind, Except.bind, read]
    exact ⟨_, rfl, rfl, shown⟩

theorem verified_kept {calls : List ServiceCall} (later : List ServiceCall) {request : PostRequest}
    (verified : (postVerified (serveAll calls) request).1 = .ok true) :
    ∃ project build, openProject request.api.parseToml request.files request.entrypoint = .ok project ∧
      request.answer project = .ok build ∧ build.verified = true ∧
      ((∀ call ∈ later, Spares (request.entry build) call) → request.entry build ∈
        (serveAll (calls ++ .post request :: later)).db.ledger request.kind request.networkId build.root) := by
  have sound : Integrity (serveAll calls) := serves_integrity integrity_empty calls
  rcases postVerified_ledger request sound with ⟨_, build, project, opened, built, holds, _, ledger⟩ | ⟨no, _⟩
  next =>
    refine ⟨project, build, opened, built, holds, fun spared => ?_⟩
    have served : serveAll (calls ++ .post request :: later) =
        later.foldl State.serve ((serveAll calls).serve (.post request)) := by
      rw [serveAll, List.foldl_append, List.foldl_cons, ← serveAll]
    have there : request.entry build ∈
        ((serveAll calls).serve (.post request)).db.ledger request.kind request.networkId build.root :=
      ledger ▸ .inr ⟨rfl, rfl, rfl, rfl⟩
    rw [served]
    exact serves_keep (serve_integrity sound (.post request)) there spared
  next => exact absurd verified no

/-- A project that verified is found by the resource's id for as long as no cleanup finds it expired,
whatever else is called, and what its record links to downloads. -/
theorem verified_found (calls later : List ServiceCall) (request : PostRequest)
    (verified : (postVerified (serveAll calls) request).1 = .ok true) :
    ∃ project build, openProject request.api.parseToml request.files request.entrypoint = .ok project ∧
      request.answer project = .ok build ∧ build.verified = true ∧
      ((∀ call ∈ later, Spares (request.entry build) call) →
        ∀ id fetched resource, fetchJson fetched = .ok resource → resource.kind = request.kind →
          resource.root = build.root →
            ∃ record, getById (.ok (serveAll (calls ++ .post request :: later)).db) request.networkId
                request.kind id fetched = .ok record ∧
              record.Shows (serveAll (calls ++ .post request :: later)) id (request.entry build)) := by
  obtain ⟨project, build, opened, built, holds, kept⟩ := verified_kept later verified
  refine ⟨project, build, opened, built, holds, ?_⟩
  intro spared id fetched resource imported kind root
  have still := kept spared
  rw [← kind, ← root] at still
  rw [← kind]
  exact getById_shows (serves_integrity integrity_empty _) still imported id

-- What `miden-import` reads of the counter.
def counterImported : ImportedResource :=
  .account Compile.counterCode [] []

def counterFetched : Fetched ImportedResource :=
  .answered (.ok 200 ⟨by decide, by decide⟩ (.json counterImported))

def dayAfter : List ServiceCall :=
  [.cleanup (fun _ => false) 90000000, .post { counterPost Compile.counterAccountId with now := 90000000 }]

theorem dayAfter_spares {entry : Entry} (source : entry.source = "unknown") : ∀ call ∈ dayAfter, Spares entry call := by
  intro call member
  simp only [dayAfter, List.mem_cons, List.not_mem_nil, or_false] at member
  rcases member with rfl | rfl
  · right
    rw [source]
    rfl
  · trivial

theorem counter_found :
    ∃ record, getById (.ok (serveAll (.post (counterPost Compile.counterAccountId) :: dayAfter)).db) "mtst" .account
        Compile.counterAccountId counterFetched = .ok record ∧
      record.Shows (serveAll (.post (counterPost Compile.counterAccountId) :: dayAfter)) Compile.counterAccountId
        { packageCommitment := Compile.counterCommitment, source := "unknown", createdAt := 0 } := by
  obtain ⟨project, build, opened, built, _, found⟩ :=
    verified_found [] dayAfter (counterPost Compile.counterAccountId) rfl
  obtain rfl := Except.ok.inj opened
  obtain rfl := Except.ok.inj built
  exact found (dayAfter_spares rfl) _ counterFetched counterImported rfl rfl rfl

end SourceVerification.Registry
