import SourceVerification.Registry.ImportUrl

set_option autoImplicit false

namespace SourceVerification.Registry.Routes

open ImportUrl Urls

inductive Collection
  | verifiedAccounts
  | verifiedNotes
deriving DecidableEq

def Collection.segment : Collection → List Char
  | .verifiedAccounts => "verified-accounts".toList
  | .verifiedNotes => "verified-notes".toList

def Collection.rootSegment : Collection → List Char
  | .verifiedAccounts => "code".toList
  | .verifiedNotes => "script".toList

inductive Asked
  -- `GET /`
  | home
  | record (collection : Collection) (networkId id : List Char)
  | recordByRoot (collection : Collection) (networkId root : List Char)
  | masp (networkId file : List Char)
  -- Below `/admin`, where the token is asked for first.
  | admin
  -- A parameter that can't be decoded, answered 400.
  | malformed
  | notFound
deriving DecidableEq

def Asked.of (ask : List Char → List Char → Asked) (networkId param : List Char) : Asked :=
  match decodeParams networkId param with
  | some (networkId, param) => ask networkId param
  | none => .malformed

def withoutSlash (segments : List (List Char)) : List (List Char) :=
  if segments.getLast? = some [] then segments.dropLast else segments

def collectionRoutes (collection : Collection) : List (List Char) → Option Asked
  | [networkId, middle, id] =>
    if networkId ≠ [] ∧ isLiteral collection.segment middle ∧ id ≠ [] then
      some (.of (.record collection) networkId id)
    else none
  | [networkId, middle, below, root] =>
    if networkId ≠ [] ∧ isLiteral collection.segment middle ∧ isLiteral collection.rootSegment below ∧ root ≠ [] then
      some (.of (.recordByRoot collection) networkId root)
    else none
  | _ => none

def packagesRoutes : List (List Char) → Option Asked
  | [networkId, middle, below, file] =>
    if networkId ≠ [] ∧ isLiteral "packages".toList middle ∧ isLiteral "masp".toList below ∧ file ≠ [] then
      some (.of .masp networkId file)
    else none
  | _ => none

-- Behind `/v1`.
def versioned (segments : List (List Char)) : Asked :=
  ((collectionRoutes .verifiedAccounts (withoutSlash segments)).or
    ((collectionRoutes .verifiedNotes (withoutSlash segments)).or
      (packagesRoutes (withoutSlash segments)))).getD .notFound

def routes : List (List Char) → Asked
  | [[]] | [[], []] => .home
  | first :: segments =>
    if isLiteral "v1".toList first then versioned segments
    else if isLiteral "admin".toList first then .admin
    else .notFound
  | [] => .notFound

def get (pathname : List Char) : Asked :=
  match pathname.splitOn '/' with
  | [] :: segments => routes segments
  | _ => .notFound

theorem get_pathname (scheme : Scheme) (host : List Char) {path : List (List Char)}
    (plain : ∀ segment ∈ path, '/' ∉ segment) : get ((⟨scheme, host, path⟩ : Url).pathname) = routes path := by
  rw [get, Url.splitOn_pathname _ plain]

theorem routes_v1 (segments : List (List Char)) : routes ("v1".toList :: segments) = versioned segments := by
  have version : isLiteral "v1".toList "v1".toList = true := by decide
  rw [routes, if_pos version]
  · simp
  · simp

end SourceVerification.Registry.Routes
