import SourceVerification.Shared.Urls

set_option autoImplicit false

namespace SourceVerification.Registry.ImportUrl

open Urls

def importUrl (baseUrl networkId resourceId : List Char) : List Char :=
  baseUrl ++ "/".toList ++ networkId ++ "/import/".toList ++ resourceId

def isLiteral (literal segment : List Char) : Bool :=
  segment.map Char.toLower = literal

def decodeParams (networkId id : List Char) : Option (List Char × List Char) :=
  (decodeURIComponent networkId).bind fun networkId => (decodeURIComponent id).map fun id => (networkId, id)

def params (literal : List Char) : List (List Char) → Option (List Char × List Char)
  | [networkId, middle, id] | [networkId, middle, id, []] =>
    if networkId ≠ [] ∧ isLiteral literal middle ∧ id ≠ [] then decodeParams networkId id else none
  | _ => none

-- `GET /:networkId/import/:resourceId` of api-compile
def importRoute (pathname : List Char) : Option (List Char × List Char) :=
  match pathname.splitOn '/' with
  | [] :: segments => params "import".toList segments
  | _ => none

-- `GET /v1/:networkId/<collection>/:id` of the registry
def lookupRoute (collection pathname : List Char) : Option (List Char × List Char) :=
  match pathname.splitOn '/' with
  | [] :: version :: segments => if isLiteral "v1".toList version then params collection segments else none
  | _ => none

def received (baseUrl : Origin) (url : List Char) : Option (List Char × List Char) :=
  match parse url with
  | some parsed =>
    if parsed.scheme = baseUrl.scheme ∧ parsed.host = baseUrl.host then importRoute parsed.pathname else none
  | none => none

def importResource (baseUrl : Origin) (networkId resourceId : List Char) : Option (List Char × List Char) :=
  received baseUrl (importUrl baseUrl.text networkId resourceId)

def special : List Char := "/\\?#%\t\n\r".toList

def AsIs (segment : List Char) : Prop :=
  segment ≠ ".".toList ∧ segment ≠ "..".toList ∧ ∀ char ∈ segment, char ∉ special

instance (segment : List Char) : Decidable (AsIs segment) :=
  decidable_of_iff (segment ≠ ".".toList ∧ segment ≠ "..".toList ∧ segment.all (fun char => char ∉ special) = true)
    (by simp [AsIs])

def EndsVisibly (text : List Char) : Prop :=
  ∀ last ∈ text.getLast?, isControlOrSpace last = false

instance (text : List Char) : Decidable (EndsVisibly text) :=
  decidable_of_iff (text.getLast?.all (fun last => !isControlOrSpace last) = true)
    (by unfold EndsVisibly; cases text.getLast? <;> simp)

theorem special_eq_false {char : Char} (plain : char ∉ special) :
    inHost char = true ∧ char ≠ '%' ∧ isTabOrNewline char = false := by
  have all : special = ['/', '\\', '?', '#', '%', '\t', '\n', '\r'] := by decide
  simp only [all, List.mem_cons, List.not_mem_nil, or_false, not_or] at plain
  simp [inHost, isSlash, endsPath, isTabOrNewline, plain]

theorem special_of {char : Char} (inside : inHost char = true) (unescaped : char ≠ '%')
    (plain : isTabOrNewline char = false) : char ∉ special := by
  have all : special = ['/', '\\', '?', '#', '%', '\t', '\n', '\r'] := by decide
  simp only [inHost, isSlash, endsPath, isTabOrNewline, Bool.and_eq_true, Bool.not_eq_true', Bool.or_eq_false_iff,
    decide_eq_false_iff_not, List.contains_eq_mem, List.mem_cons, List.not_mem_nil, or_false, not_or] at inside plain
  simp only [all, List.mem_cons, List.not_mem_nil, or_false, not_or]
  exact ⟨inside.1.1, inside.1.2, inside.2.1, inside.2.2, unescaped, plain⟩

def rest (networkId resourceId : List Char) : List Char :=
  networkId ++ '/' :: ("import".toList ++ '/' :: resourceId)

theorem importUrl_eq (baseUrl networkId resourceId : List Char) :
    importUrl baseUrl networkId resourceId = baseUrl ++ '/' :: rest networkId resourceId := by
  have slash : "/".toList = ['/'] := rfl
  have literal : "/import/".toList = '/' :: ("import".toList ++ ['/']) := by decide
  rw [importUrl, slash, literal, rest]
  simp

theorem length_rest (networkId resourceId : List Char) :
    (utf8 (rest networkId resourceId)).length = (utf8 networkId).length + (utf8 resourceId).length + 8 := by
  have slash : (String.utf8EncodeChar '/').length = 1 := rfl
  have literal : (utf8 "import".toList).length = 6 := by decide
  simp only [rest, utf8_append, utf8_cons, List.length_append, slash, literal]
  omega

theorem getLast?_rest (networkId : List Char) {resourceId : List Char} (resource : resourceId ≠ []) :
    (rest networkId resourceId).getLast? = resourceId.getLast? := by
  have shape : rest networkId resourceId = networkId ++ '/' :: ("import".toList ++ ['/']) ++ resourceId := by
    simp [rest]
  rw [shape, List.getLast?_append_of_ne_nil _ resource]

theorem importResource_eq (baseUrl : Origin) {networkId resourceId : List Char} {segments : List (List Char)}
    (path : pathState [] [] (cleanEnd (rest networkId resourceId)) = segments.map encode)
    (typed : ∀ segment ∈ segments, Typed segment) :
    importResource baseUrl networkId resourceId = params "import".toList (segments.map encode) := by
  have parsed := parse_origin baseUrl (rest networkId resourceId)
  rw [path] at parsed
  have plain : ∀ segment ∈ segments.map encode, '/' ∉ segment := by
    intro segment member
    obtain ⟨one, inside, rfl⟩ := List.mem_map.mp member
    exact encode_slash (typed one inside).inside
  have split := Url.splitOn_pathname ⟨baseUrl.scheme, baseUrl.host, segments.map encode⟩ plain
  rw [importResource, received, importUrl_eq, parsed]
  simp only [and_self, if_true, importRoute, split]

theorem length_literal {segment : List Char} (literal : isLiteral "import".toList (encode segment) = true) :
    6 ≤ (utf8 segment).length := by
  have lower : (encode segment).map Char.toLower = "import".toList := of_decide_eq_true literal
  have plain : '%' ∉ encode segment := by
    intro member
    have lowered : Char.toLower '%' ∈ (encode segment).map Char.toLower := List.mem_map_of_mem member
    rw [lower] at lowered
    exact absurd lowered (by decide)
  have length := congrArg List.length lower
  rw [List.length_map, encode_plain plain] at length
  have six : "import".toList.length = 6 := by decide
  have bytes := length_le_utf8 segment
  omega

theorem params_eq_some {literal : List Char} {segments : List (List Char)} {networkId id : List Char}
    (matched : params literal segments = some (networkId, id)) : ∃ first middle second last,
      segments = first :: middle :: second :: last ∧ isLiteral literal middle = true ∧
        decodeURIComponent first = some networkId ∧ decodeURIComponent second = some id := by
  have decoded {first second : List Char} (read : decodeParams first second = some (networkId, id)) :
      decodeURIComponent first = some networkId ∧ decodeURIComponent second = some id := by
    obtain ⟨left, here, others⟩ := Option.bind_eq_some_iff.mp read
    obtain ⟨right, there, both⟩ := Option.map_eq_some_iff.mp others
    obtain ⟨rfl, rfl⟩ := Prod.mk.inj both
    exact ⟨here, there⟩
  unfold params at matched
  split at matched
  next first middle second =>
    split_ifs at matched with shape
    exact ⟨first, middle, second, [], rfl, shape.2.1, decoded matched⟩
  next first middle second =>
    split_ifs at matched with shape
    exact ⟨first, middle, second, [[]], rfl, shape.2.1, decoded matched⟩
  next => cases matched

theorem asIs_of {segment : List Char} (typed : Typed segment) (unescaped : '%' ∉ segment)
    (tabs : ∀ char ∈ segment, isTabOrNewline char = false) : AsIs segment := by
  refine ⟨typed.ne.1, typed.ne.2, fun char member => ?_⟩
  exact special_of (typed.inside char member) (fun percent => unescaped (percent ▸ member)) (tabs char member)

theorem AsIs.typed {segment : List Char} (asIs : AsIs segment) : '%' ∉ segment ∧ Typed segment := by
  obtain ⟨single, double, plain⟩ := asIs
  have unescaped : '%' ∉ segment := fun member => (special_eq_false (plain '%' member)).2.1 rfl
  exact ⟨unescaped, typed_of (fun char member => (special_eq_false (plain char member)).1) unescaped single double⟩

theorem importResource_of (baseUrl : Origin) {networkId resourceId : List Char} (network : networkId ≠ [])
    (resource : resourceId ≠ []) (plain : AsIs networkId) (plainToo : AsIs resourceId)
    (visible : EndsVisibly resourceId) :
    importResource baseUrl networkId resourceId = some (networkId, resourceId) := by
  obtain ⟨unescaped, typed⟩ := plain.typed
  obtain ⟨unescapedToo, typedToo⟩ := plainToo.typed
  have literal : Typed "import".toList :=
    typed_of (forall_mem_of_all (by decide)) (by decide) (by decide) (by decide)
  have clean : cleanEnd (rest networkId resourceId) = rest networkId resourceId := by
    refine cleanEnd_eq_self (fun char member => ?_) ?_
    · have between : ∀ char ∈ "import".toList, isTabOrNewline char = false := forall_mem_of_all (by decide)
      simp only [rest, List.mem_append, List.mem_cons] at member
      rcases member with inside | rfl | inside | rfl | inside
      · exact (special_eq_false (plain.2.2 char inside)).2.2
      · decide
      · exact between char inside
      · decide
      · exact (special_eq_false (plainToo.2.2 char inside)).2.2
    · rw [getLast?_rest networkId resource]
      exact visible
  have path : pathState [] [] (cleanEnd (rest networkId resourceId)) =
      [networkId, "import".toList, resourceId].map encode := by
    rw [clean, rest, pathState_segment typed, pathState_segment literal, pathState_last typedToo]
    rfl
  have all : ∀ segment ∈ [networkId, "import".toList, resourceId], Typed segment :=
    List.forall_mem_cons.mpr ⟨typed, List.forall_mem_cons.mpr ⟨literal, List.forall_mem_singleton.mpr typedToo⟩⟩
  have word : isLiteral "import".toList (encode "import".toList) = true := by decide
  rw [importResource_eq baseUrl path all]
  simp only [List.map_cons, List.map_nil, params]
  rw [if_pos ⟨by simpa [encode_eq_nil_iff] using network, word, by simpa [encode_eq_nil_iff] using resource⟩,
    decodeParams, decodeURIComponent_encode unescaped, decodeURIComponent_encode unescapedToo]
  rfl

theorem of_importResource (baseUrl : Origin) {networkId resourceId : List Char} (resource : resourceId ≠ [])
    (same : importResource baseUrl networkId resourceId = some (networkId, resourceId)) :
    AsIs networkId ∧ AsIs resourceId ∧ EndsVisibly resourceId := by
  have nothing : ∀ segment ∈ ([] : List (List Char)), Typed segment := by simp
  have empty : ∀ char ∈ ([] : List Char), inHost char = true := by simp
  obtain ⟨segments, path, typed, light⟩ := pathState_typed nothing empty (cleanEnd (rest networkId resourceId))
  rw [importResource_eq baseUrl path typed] at same
  obtain ⟨first, middle, second, last, shape, literal, left, right⟩ := params_eq_some same
  obtain ⟨network, behind, rfl, rfl, following⟩ := List.map_eq_cons_iff.mp shape
  obtain ⟨between, others, rfl, rfl, final⟩ := List.map_eq_cons_iff.mp following
  obtain ⟨id, more, rfl, rfl, -⟩ := List.map_eq_cons_iff.mp final
  obtain ⟨short, whole⟩ := decodeURIComponent_length left
  obtain ⟨shortToo, wholeToo⟩ := decodeURIComponent_length right
  obtain ⟨cleaned, kept⟩ := length_cleanEnd (rest networkId resourceId)
  have six := length_literal literal
  have total := length_rest networkId resourceId
  have none : weight [] = 0 := rfl
  have empty : (utf8 []).length = 0 := rfl
  simp only [weight, List.map_cons, List.sum_cons] at light none
  obtain ⟨tabs, visible⟩ := kept (by omega)
  obtain ⟨unescaped, rfl⟩ := whole (by omega)
  obtain ⟨unescapedToo, rfl⟩ := wholeToo (by omega)
  have front : ∀ char ∈ networkId, isTabOrNewline char = false :=
    fun char member => tabs char (List.mem_append_left _ member)
  have back : ∀ char ∈ resourceId, isTabOrNewline char = false := by
    intro char member
    exact tabs char (List.mem_append_right _ (List.mem_cons_of_mem _ (List.mem_append_right _ (List.mem_cons_of_mem _ member))))
  rw [getLast?_rest networkId resource] at visible
  exact ⟨asIs_of (typed _ (by simp)) unescaped front, asIs_of (typed _ (by simp)) unescapedToo back, visible⟩

theorem importResource_iff (baseUrl : Origin) {networkId resourceId : List Char} (network : networkId ≠ [])
    (resource : resourceId ≠ []) : importResource baseUrl networkId resourceId = some (networkId, resourceId) ↔
      AsIs networkId ∧ AsIs resourceId ∧ EndsVisibly resourceId := by
  constructor
  · exact of_importResource baseUrl resource
  · rintro ⟨plain, plainToo, visible⟩
    exact importResource_of baseUrl network resource plain plainToo visible

-- `API_COMPILE_URL`, as it is by default.
def localhost : Origin where
  scheme := .http
  host := "localhost:8080".toList
  nonempty := by decide
  plain := forall_mem_of_all (by decide)

theorem importResource_counter :
    importResource localhost "mtst".toList "0xad41ad8e6776a19173668f043fc081".toList =
      some ("mtst".toList, "0xad41ad8e6776a19173668f043fc081".toList) :=
  (importResource_iff localhost (by decide) (by decide)).mpr (by decide)

/-- A lookup by id on one network resolves a resource of another one. -/
theorem importResource_other_network : ¬ ∀ baseUrl pathname networkId resourceId,
    lookupRoute "verified-accounts".toList pathname = some (networkId, resourceId) →
      networkId ≠ [] → resourceId ≠ [] →
        importResource baseUrl networkId resourceId = some (networkId, resourceId) := by
  intro same
  have read := same localhost
    "/v1/mtst/verified-accounts/..%2F..%2Fmm%2Fimport%2F0xad41ad8e6776a19173668f043fc081".toList "mtst".toList
    "../../mm/import/0xad41ad8e6776a19173668f043fc081".toList (by decide +kernel) (by decide) (by decide)
  have other : importResource localhost "mtst".toList "../../mm/import/0xad41ad8e6776a19173668f043fc081".toList =
      some ("mm".toList, "0xad41ad8e6776a19173668f043fc081".toList) := by decide +kernel
  rw [other] at read
  exact absurd read (by decide)

end SourceVerification.Registry.ImportUrl
