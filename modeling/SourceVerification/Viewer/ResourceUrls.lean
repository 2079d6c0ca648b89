import SourceVerification.Registry.Routes
import SourceVerification.ResourceForms
import SourceVerification.Shared.UrlComponents

set_option autoImplicit false

namespace SourceVerification.Viewer.ResourceUrls

open Alphabet Registry.ImportUrl Registry.Routes ResourceIds Strings Urls

def collectionOf : ResourceId → Collection
  | .account _ => .verifiedAccounts
  | .note _ => .verifiedNotes

def pagePath (networkId : List Char) (collection : Collection) (id : List Char) : List Char :=
  '/' :: networkId ++ '/' :: collection.segment ++ '/' :: id

def resourcePath (bech32m : Bech32mCodec) (value : List Char) (network : NetworkId) : Option (List Char) :=
  match parseResourceId bech32m value with
  | none => none
  | some resource =>
    if (resourceIdError bech32m value network).isSome then none
    else some (pagePath network.value (collectionOf resource) (idOf resource))

-- `:networkId/<collection>/:id` of the page
def pageRoute (collection : Collection) (pathname : List Char) : Option (List Char × List Char) :=
  match pathname.splitOn '/' with
  | [] :: segments => params collection.segment segments
  | _ => none

def switchNetwork (pathname : List Char) (next : NetworkId) : List Char :=
  match pathname with
  | '/' :: rest =>
    if rest.takeWhile (· ≠ '/') = [] then pathname else '/' :: next.value ++ rest.dropWhile (· ≠ '/')
  | _ => pathname

def recordUrl (baseUrl networkId : List Char) (collection : Collection) (id : List Char) : List Char :=
  baseUrl ++ "/v1/".toList ++ encodeURIComponent networkId ++ '/' :: collection.segment ++
    '/' :: encodeURIComponent id

/-- What the page's request asks the registry for, when that is at `baseUrl`. -/
def getVerifiedRecord (baseUrl : Origin) (networkId : List Char) (collection : Collection)
    (id : List Char) : Option Asked :=
  match parse (recordUrl baseUrl.text networkId collection id) with
  | some parsed =>
    if parsed.scheme = baseUrl.scheme ∧ parsed.host = baseUrl.host then some (get parsed.pathname) else none
  | none => none

theorem segment_unreserved (collection : Collection) : ∀ char ∈ collection.segment, unreserved char = true := by
  cases collection <;> exact forall_mem_of_all (by decide)

def components (networkId : List Char) (collection : Collection) (id : List Char) : List Char :=
  encodeURIComponent "v1".toList ++ '/' :: (encodeURIComponent networkId ++
    '/' :: (encodeURIComponent collection.segment ++ '/' :: encodeURIComponent id))

theorem recordUrl_eq (baseUrl networkId : List Char) (collection : Collection) (id : List Char) :
    recordUrl baseUrl networkId collection id = baseUrl ++ '/' :: components networkId collection id := by
  have version : "/v1/".toList = '/' :: ("v1".toList ++ ['/']) := by decide
  have kept : encodeURIComponent "v1".toList = "v1".toList := by decide +kernel
  rw [recordUrl, version, components, kept, encodeURIComponent_of_unreserved (segment_unreserved collection)]
  simp

theorem components_clean (networkId : List Char) (collection : Collection) {id : List Char} (nonempty : id ≠ []) :
    cleanEnd (components networkId collection id) = components networkId collection id := by
  have plain {text : List Char} : ∀ char ∈ encodeURIComponent text, Plain char := plain_encodeURIComponent
  have last : (components networkId collection id).getLast? = (encodeURIComponent id).getLast? := by
    have shape : components networkId collection id = encodeURIComponent "v1".toList ++
        '/' :: (encodeURIComponent networkId ++ '/' :: (encodeURIComponent collection.segment ++ ['/'])) ++
          encodeURIComponent id := by simp [components]
    rw [shape, List.getLast?_append_of_ne_nil _ (mt encodeURIComponent_eq_nil_iff.mp nonempty)]
  refine cleanEnd_eq_self (fun char member => ?_) fun char ends => ?_
  · simp only [components, List.mem_append, List.mem_cons] at member
    rcases member with inside | rfl | inside | rfl | inside | rfl | inside
    · exact (plain char inside).visible
    · decide
    · exact (plain char inside).visible
    · decide
    · exact (plain char inside).visible
    · decide
    · exact (plain char inside).visible
  · rw [last] at ends
    exact (plain char (List.mem_of_getLast? ends)).printable

def resolved (networkId : List Char) (collection : Collection) (id : List Char) : List (List Char) :=
  endSegment (endSegment (endSegment ["v1".toList] (encodeURIComponent networkId) true)
    (encodeURIComponent collection.segment) true) (encodeURIComponent id) false

theorem pathState_components (networkId : List Char) (collection : Collection) (id : List Char) :
    pathState [] [] (components networkId collection id) = resolved networkId collection id := by
  have version : endSegment [] (encodeURIComponent "v1".toList) true = ["v1".toList] := by decide +kernel
  rw [components, pathState_component, version, pathState_component, pathState_component, pathState_component_last,
    resolved]

theorem resolved_plain (networkId : List Char) (collection : Collection) (id : List Char) :
    ∀ segment ∈ resolved networkId collection id, '/' ∉ segment := by
  have escaped (text : List Char) : '/' ∉ encodeURIComponent text :=
    fun member => absurd (plain_encodeURIComponent '/' member).inside (by decide)
  have version : '/' ∉ "v1".toList := by decide
  intro segment member
  rcases mem_endSegment member with middle | rfl | rfl
  · rcases mem_endSegment middle with first | rfl | rfl
    · rcases mem_endSegment first with start | rfl | rfl
      · exact List.mem_singleton.mp start ▸ version
      · simp
      · exact escaped networkId
    · simp
    · exact escaped collection.segment
  · simp
  · exact escaped id

theorem getVerifiedRecord_resolved (baseUrl : Origin) (networkId : List Char) (collection : Collection)
    {id : List Char} (nonempty : id ≠ []) : getVerifiedRecord baseUrl networkId collection id =
      some (routes (resolved networkId collection id)) := by
  have parsed := parse_origin baseUrl (components networkId collection id)
  rw [components_clean networkId collection nonempty, pathState_components] at parsed
  rw [getVerifiedRecord, recordUrl_eq, parsed]
  simp only [and_self, if_true]
  exact congrArg some (get_pathname _ _ (resolved_plain networkId collection id))

theorem routes_collection (collection : Collection) (segments : List (List Char)) :
    routes (collection.segment :: segments) = .notFound := by
  have other : isLiteral "v1".toList collection.segment = false ∧ isLiteral "admin".toList collection.segment = false := by
    cases collection <;> decide
  have named : collection.segment ≠ [] := by cases collection <;> decide
  rw [routes, other.1, other.2]
  · rfl
  · simp [named]
  · simp [named]

theorem versioned_short {segments : List (List Char)} (short : (withoutSlash segments).length < 3) :
    versioned segments = .notFound := by
  unfold versioned
  match withoutSlash segments, short with
  | [], _ | [_], _ | [_, _], _ => rfl

theorem versioned_record {networkId id : List Char} (collection : Collection) (network : networkId ≠ [])
    (resource : id ≠ []) : versioned [networkId, collection.segment, id] = .of (.record collection) networkId id := by
  have kept : withoutSlash [networkId, collection.segment, id] = [networkId, collection.segment, id] := by
    simp [withoutSlash, resource]
  have literal (other : Collection) : isLiteral other.segment collection.segment = decide (other = collection) := by
    cases other <;> cases collection <;> decide
  rw [versioned, kept]
  cases collection <;> simp [collectionRoutes, literal, network, resource]

theorem endSegment_collection (path : List (List Char)) (collection : Collection) :
    endSegment path (encodeURIComponent collection.segment) true = path ++ [collection.segment] := by
  have dots : collection.segment ≠ "..".toList ∧ collection.segment ≠ ".".toList := by
    cases collection <;> decide
  rw [endSegment_component, if_neg dots.1, if_neg dots.2,
    encodeURIComponent_of_unreserved (segment_unreserved collection)]

theorem decodeParams_components (networkId id : List Char) :
    decodeParams (encodeURIComponent networkId) (encodeURIComponent id) = some (networkId, id) := by
  rw [decodeParams, decodeURIComponent_encodeURIComponent, decodeURIComponent_encodeURIComponent]
  rfl

theorem asked_components (collection : Collection) (networkId id : List Char) :
    Asked.of (.record collection) (encodeURIComponent networkId) (encodeURIComponent id) =
      .record collection networkId id := by
  rw [Asked.of, decodeParams_components]

theorem routes_resolved {networkId id : List Char} (collection : Collection) (network : networkId ≠ [])
    (resource : id ≠ []) : routes (resolved networkId collection id) =
      if networkId = "..".toList ∧ id = "..".toList then .home
      else if isDots networkId ∨ isDots id then .notFound
      else .record collection networkId id := by
  rw [resolved, endSegment_collection, endSegment_component, endSegment_component]
  simp only [Bool.false_eq_true, if_true, if_false, List.append_nil]
  have written : encodeURIComponent id ≠ [] := mt encodeURIComponent_eq_nil_iff.mp resource
  by_cases double : networkId = "..".toList
  next =>
    -- The version is gone, so the collection comes first, or nothing does.
    have dots : isDots networkId ∨ isDots id := .inl (.inr double)
    rw [if_pos double, if_pos dots]
    by_cases doubleToo : id = "..".toList
    next =>
      have both : networkId = "..".toList ∧ id = "..".toList := ⟨double, doubleToo⟩
      rw [if_pos doubleToo, if_pos both]
      rfl
    next =>
      have apart : ¬ (networkId = "..".toList ∧ id = "..".toList) := fun both => doubleToo both.2
      rw [if_neg doubleToo, if_neg apart]
      split_ifs
      · exact routes_collection collection [[]]
      · exact routes_collection collection [encodeURIComponent id]
  next =>
    have apart : ¬ (networkId = "..".toList ∧ id = "..".toList) := fun both => double both.1
    rw [if_neg double, if_neg apart]
    by_cases single : networkId = ".".toList
    next =>
      -- The network is gone, so there are two segments behind the version at most.
      have dots : isDots networkId ∨ isDots id := .inl (.inl single)
      rw [if_pos single, if_pos dots]
      split_ifs
      · exact (routes_v1 [[]]).trans (versioned_short (by simp [withoutSlash]))
      · exact (routes_v1 [collection.segment, []]).trans (versioned_short (by simp [withoutSlash]))
      · refine (routes_v1 [collection.segment, encodeURIComponent id]).trans (versioned_short ?_)
        simp [withoutSlash, written]
    next =>
      rw [if_neg single]
      by_cases doubleToo : id = "..".toList
      next =>
        rw [if_pos doubleToo, if_pos (.inr (.inr doubleToo))]
        exact (routes_v1 [encodeURIComponent networkId, []]).trans (versioned_short (by simp [withoutSlash]))
      next =>
        rw [if_neg doubleToo]
        by_cases singleToo : id = ".".toList
        next =>
          rw [if_pos singleToo, if_pos (.inr (.inl singleToo))]
          refine (routes_v1 [encodeURIComponent networkId, collection.segment, []]).trans (versioned_short ?_)
          simp [withoutSlash]
        next =>
          have plain : ¬ (isDots networkId ∨ isDots id) := by
            rintro ((dots | dots) | dots | dots)
            · exact single dots
            · exact double dots
            · exact singleToo dots
            · exact doubleToo dots
          rw [if_neg singleToo, if_neg plain]
          refine (routes_v1 [encodeURIComponent networkId, collection.segment, encodeURIComponent id]).trans ?_
          rw [versioned_record collection (mt encodeURIComponent_eq_nil_iff.mp network) written, asked_components]

/-- The registry is asked for the record that the page is about, except where its network or its id is `.` or `..`. Then
it is asked for nothing that it has, and where both are `..`, for its own `GET /`. -/
theorem getVerifiedRecord_eq (baseUrl : Origin) {networkId id : List Char} (collection : Collection)
    (network : networkId ≠ []) (resource : id ≠ []) : getVerifiedRecord baseUrl networkId collection id =
      some (if networkId = "..".toList ∧ id = "..".toList then .home
        else if isDots networkId ∨ isDots id then .notFound
        else .record collection networkId id) :=
  (getVerifiedRecord_resolved baseUrl networkId collection resource).trans
    (congrArg some (routes_resolved collection network resource))

theorem getVerifiedRecord_counter : getVerifiedRecord localhost "mtst".toList .verifiedAccounts counterId =
    some (.record .verifiedAccounts "mtst".toList counterId) :=
  getVerifiedRecord_eq localhost .verifiedAccounts (by decide) (by decide)

theorem hexId {bech32m : Bech32mCodec} {limit : Option Nat} (follows : bech32m.Follows limit) {value : List Char}
    {resource : ResourceId} (parsed : parseResourceId bech32m value = some resource) :
    ∃ count, hexPattern count (idOf resource) = true := by
  rw [parseResourceId] at parsed
  split_ifs at parsed with note account
  · obtain rfl := Option.some.inj parsed
    exact ⟨64, note⟩
  · obtain rfl := Option.some.inj parsed
    exact ⟨30, account⟩
  · obtain ⟨address, decoded, rfl⟩ := Option.map_eq_some_iff.mp parsed
    obtain ⟨id, canonical, decodes⟩ := decodeAddress_decodes follows decoded
    exact ⟨30, canonical ▸ canonicalId_pattern decodes.length⟩

structure Segment (text : List Char) : Prop where
  nonempty : text ≠ []
  free : ∀ char ∈ text, unreserved char = true
  asIs : AsIs text
  visible : EndsVisibly text

theorem segment_of {text : List Char} (nonempty : text ≠ []) (dots : '.' ∉ text)
    (free : ∀ char ∈ text, unreserved char = true) : Segment text where
  nonempty
  free
  asIs := by
    refine ⟨?_, ?_, fun char member => ?_⟩
    · rintro rfl
      exact dots (by decide)
    · rintro rfl
      exact dots (by decide)
    · obtain ⟨plain, other⟩ := plain_of_unreserved (free char member)
      exact special_of plain.inside other plain.visible
  visible last ends := (plain_of_unreserved (free last (List.mem_of_getLast? ends))).1.printable

theorem hexPattern_segment {count : Nat} {id : List Char} (pattern : hexPattern count id = true) : Segment id := by
  obtain ⟨digits, rfl, -, all⟩ := hexPattern_iff.mp pattern
  have known : ∀ char ∈ hexDigits ++ upperHexDigits, unreserved char = true ∧ '.' ≠ char :=
    fun char member => by
      have each : (hexDigits ++ upperHexDigits).all (fun char => unreserved char && '.' ≠ char) = true := by decide
      simpa using List.all_eq_true.mp each char member
  have start : ∀ char ∈ "0x".toList, unreserved char = true := forall_mem_of_all (by decide)
  refine segment_of (by simp) ?_ fun char member => ?_
  · rw [List.mem_append, not_or]
    exact ⟨by decide, fun member => (known '.' (all '.' member)).2 rfl⟩
  · exact (List.mem_append.mp member).elim (start char) fun digit => (known char (all char digit)).1

theorem network_segment (network : NetworkId) : Segment network.value := by
  cases network <;> exact segment_of (by decide) (by decide) (forall_mem_of_all (by decide))

theorem Segment.noSlash {text : List Char} (segment : Segment text) : '/' ∉ text :=
  fun member => absurd (segment.free '/' member) (by decide)

theorem Segment.decoded {text : List Char} (segment : Segment text) : decodeURIComponent text = some text := by
  have escaped := decodeURIComponent_encodeURIComponent text
  rwa [encodeURIComponent_of_unreserved segment.free] at escaped

theorem getVerifiedRecord_segments (baseUrl : Origin) {networkId id : List Char} (network : Segment networkId)
    (collection : Collection) (resource : Segment id) :
    getVerifiedRecord baseUrl networkId collection id = some (.record collection networkId id) := by
  have plain {text : List Char} (segment : Segment text) : ¬ isDots text :=
    fun dots => dots.elim segment.asIs.1 segment.asIs.2.1
  have below : ¬ (networkId = "..".toList ∧ id = "..".toList) := fun both => resource.asIs.2.1 both.2
  rw [getVerifiedRecord_resolved baseUrl networkId collection resource.nonempty,
    routes_resolved collection network.nonempty resource.nonempty, if_neg below,
    if_neg (not_or.mpr ⟨plain network, plain resource⟩)]

theorem collection_segment (collection : Collection) : Segment collection.segment := by
  cases collection <;> exact segment_of (by decide) (by decide) (segment_unreserved _)

theorem Segment.encoded {text : List Char} (segment : Segment text) : encode text = text :=
  encode_eq_self fun char member => (plain_of_unreserved (segment.free char member)).1.kept

theorem Segment.noTab {text : List Char} (segment : Segment text) : ∀ char ∈ text, isTabOrNewline char = false :=
  fun char member => (plain_of_unreserved (segment.free char member)).1.visible

theorem pageRoute_pagePath {networkId id : List Char} (network : Segment networkId) (resource : Segment id)
    (collection other : Collection) : pageRoute other (pagePath networkId collection id) =
      if other = collection then some (networkId, id) else none := by
  have path : pagePath networkId collection id =
      (⟨.http, [], [networkId, collection.segment, id]⟩ : Url).pathname := by simp [pagePath, Url.pathname]
  have middle : '/' ∉ collection.segment :=
    fun member => absurd (segment_unreserved collection '/' member) (by decide)
  have split := Url.splitOn_pathname ⟨.http, [], [networkId, collection.segment, id]⟩
    (List.forall_mem_cons.mpr ⟨network.noSlash, List.forall_mem_cons.mpr ⟨middle,
      List.forall_mem_singleton.mpr resource.noSlash⟩⟩)
  have literal : isLiteral other.segment collection.segment = decide (other = collection) := by
    cases other <;> cases collection <;> decide
  rw [pageRoute, path, split]
  simp only [params, literal, decide_eq_true_eq]
  by_cases same : other = collection
  next =>
    rw [if_pos ⟨network.nonempty, same, resource.nonempty⟩, if_pos same, decodeParams, network.decoded, resource.decoded]
    rfl
  next => rw [if_neg fun reached => same reached.2.1, if_neg same]

theorem switchNetwork_pagePath {networkId : List Char} (network : Segment networkId) (next : NetworkId)
    (collection : Collection) (id : List Char) :
    switchNetwork (pagePath networkId collection id) next = pagePath next.value collection id := by
  have inside : ∀ char ∈ networkId, decide (char ≠ '/') = true := by
    intro char member
    refine decide_eq_true fun slash => network.noSlash ?_
    exact slash ▸ member
  have path : pagePath networkId collection id = '/' :: (networkId ++ '/' :: (collection.segment ++ '/' :: id)) := by
    simp [pagePath]
  rw [path, switchNetwork, List.takeWhile_append_of_pos inside, List.dropWhile_append_of_pos inside]
  simp [network.nonempty, pagePath]

def visited (origin : Origin) (url : List Char) : Option (List Char) :=
  match parse url with
  | some parsed =>
    if parsed.scheme = origin.scheme ∧ parsed.host = origin.host then some parsed.pathname else none
  | none => none

theorem visited_pagePath (origin : Origin) {networkId id : List Char} (network : Segment networkId)
    (resource : Segment id) (collection : Collection) :
    visited origin (origin.text ++ pagePath networkId collection id) = some (pagePath networkId collection id) := by
  have middle := collection_segment collection
  have shape : pagePath networkId collection id = '/' :: (networkId ++ '/' :: (collection.segment ++ '/' :: id)) := by
    simp [pagePath]
  have last : (networkId ++ '/' :: (collection.segment ++ '/' :: id)).getLast? = id.getLast? := by
    have front : networkId ++ '/' :: (collection.segment ++ '/' :: id) =
        networkId ++ '/' :: (collection.segment ++ ['/']) ++ id := by simp
    rw [front, List.getLast?_append_of_ne_nil _ resource.nonempty]
  have clean : cleanEnd (networkId ++ '/' :: (collection.segment ++ '/' :: id)) =
      networkId ++ '/' :: (collection.segment ++ '/' :: id) := by
    refine cleanEnd_eq_self (fun char member => ?_) (last ▸ resource.visible)
    simp only [List.mem_append, List.mem_cons] at member
    rcases member with inside | rfl | inside | rfl | inside
    · exact network.noTab char inside
    · decide
    · exact middle.noTab char inside
    · decide
    · exact resource.noTab char inside
  have path : pathState [] [] (networkId ++ '/' :: (collection.segment ++ '/' :: id)) =
      [networkId, collection.segment, id] := by
    rw [pathState_segment network.asIs.typed.2, pathState_segment middle.asIs.typed.2,
      pathState_last resource.asIs.typed.2, network.encoded, middle.encoded, resource.encoded]
    rfl
  rw [visited, shape, parse_origin, clean, path]
  simp [Url.pathname]

/-- Whatever the form takes, its link opens the page of that very resource, which asks the registry and, through it,
api-compile for the same one on the same network; and the navbar's switch keeps the resource. -/
theorem resourcePath_reaches (bech32m : Bech32mCodec) (limit : Option Nat) (follows : bech32m.Follows limit)
    (registry compile : Origin) (value : List Char) (network : NetworkId) (path : List Char)
    (linked : resourcePath bech32m value network = some path) :
    ∃ resource, parseResourceId bech32m value = some resource ∧
      (∀ collection, pageRoute collection path =
        if collection = collectionOf resource then some (network.value, idOf resource) else none) ∧
      getVerifiedRecord registry network.value (collectionOf resource) (idOf resource) =
        some (.record (collectionOf resource) network.value (idOf resource)) ∧
      importResource compile network.value (idOf resource) = some (network.value, idOf resource) ∧
      ∀ next collection, pageRoute collection (switchNetwork path next) =
        if collection = collectionOf resource then some (next.value, idOf resource) else none := by
  rw [resourcePath] at linked
  split at linked
  next => cases linked
  next resource parsed =>
    split_ifs at linked
    obtain rfl := Option.some.inj linked
    obtain ⟨count, pattern⟩ := hexId follows parsed
    have id := hexPattern_segment pattern
    have here := network_segment network
    refine ⟨resource, parsed, fun collection => pageRoute_pagePath here id _ collection, ?_, ?_, fun next collection => ?_⟩
    · exact getVerifiedRecord_segments registry here _ id
    · exact importResource_of compile here.nonempty id.nonempty here.asIs id.asIs id.visible
    · rw [switchNetwork_pagePath here]
      exact pageRoute_pagePath (network_segment next) id _ collection

def counterAddress : List Char := "mtst1azk5rtvwvam2rytnv68sg07qsy44y4ed".toList

theorem counter_reaches : ∃ resource, parseResourceId (bip350 none) counterAddress = some resource ∧
    (∀ collection, pageRoute collection (pagePath "mtst".toList .verifiedAccounts counterId) =
      if collection = collectionOf resource then some ("mtst".toList, idOf resource) else none) ∧
    getVerifiedRecord localhost "mtst".toList (collectionOf resource) (idOf resource) =
      some (.record (collectionOf resource) "mtst".toList (idOf resource)) ∧
    importResource localhost "mtst".toList (idOf resource) = some ("mtst".toList, idOf resource) ∧
    ∀ next collection, pageRoute collection
      (switchNetwork (pagePath "mtst".toList .verifiedAccounts counterId) next) =
        if collection = collectionOf resource then some (NetworkId.value next, idOf resource) else none :=
  resourcePath_reaches (bip350 none) none (bip350_follows none) localhost localhost counterAddress .mtst
    (pagePath "mtst".toList .verifiedAccounts counterId) (by decide +kernel)

end SourceVerification.Viewer.ResourceUrls
