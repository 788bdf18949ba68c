import Btfind.Store.FileFilter
import Btfind.Store.TorrentSearch
import Btfind.Web.Magnet

/-!
# The request handlers

The handlers of the web interface: their parameters, the checks on them, the queries that they make
and the responses. A query meets a connection, which is an error or the tables at that moment; a
handler that makes two queries meets two.
-/

namespace Btfind

open OffsetPages

inductive ApiError
  | badRequest (message : String)
  | notFound (message : String)
  | db (message : String)
  deriving DecidableEq

/-- What a handler returns, and how many database errors it recorded. -/
structure Handled (α : Type) where
  response : Except ApiError α
  databaseErrors : Nat := 0

/-- `.await.map_err(|error| state.database_error(error))?` -/
def readStore {α β : Type} (answer : Except StoreError α) (next : α → Handled β) : Handled β :=
  match answer with
  | .ok a => next a
  | .error _ => ⟨.error (.db "database temporarily unavailable"), 1⟩

/-- `?` on a check that has no part in the database. -/
def checkRequest {α β : Type} (checked : Except ApiError α) (next : α → Handled β) : Handled β :=
  match checked with
  | .ok a => next a
  | .error e => ⟨.error e, 0⟩

theorem readStore_ok {α β : Type} {answer : Except StoreError α} {next : α → Handled β} {b : β}
    (h : (readStore answer next).response = .ok b) :
    ∃ a, answer = .ok a ∧ (next a).response = .ok b := by
  cases answer with
  | ok a => exact ⟨a, rfl, h⟩
  | error e => cases h

theorem checkRequest_ok {α β : Type} {checked : Except ApiError α} {next : α → Handled β} {b : β}
    (h : (checkRequest checked next).response = .ok b) :
    ∃ a, checked = .ok a ∧ (next a).response = .ok b := by
  cases checked with
  | ok a => exact ⟨a, rfl, h⟩
  | error e => cases h

abbrev Connection := Except StoreError Catalogue

/-! ## Search -/

/-- `SearchQuery`, with its defaults. -/
structure SearchQuery where
  q : Option String := none
  limit : Nat := 50
  offset : Nat := 0
  sort : Option String := none
  completeOnly : Option Bool := none
  minSize : Option Int := none
  maxSize : Option Int := none

structure SearchResult where
  infoHash : String
  name : Option String
  totalSize : Int
  fileCount : Int
  firstSeen : Int
  lastSeen : Int
  magnet : String
  deriving DecidableEq

structure SearchResponse where
  results : List SearchResult
  limit : Nat
  offset : Nat
  hasNext : Bool
  effectiveSort : String
  deriving DecidableEq

/-- `torrent_to_search_result` -/
def torrentToSearchResult (encode : String → String) (t : TorrentRecord) : SearchResult where
  infoHash := hexEncode t.infoHash
  name := t.name
  totalSize := t.totalSize
  fileCount := t.fileCount
  firstSeen := t.firstSeen
  lastSeen := t.lastSeen
  magnet := magnetUriFromHash encode t.infoHash t.name

/-- `validate_sort` -/
def validateSort (sort : String) : Except ApiError Unit :=
  if sort = "rank" ∨ sort = "last_seen" ∨ sort = "total_size" then .ok ()
  else .error (.badRequest ("invalid sort: " ++ sort))

/-- `clamp_limit` -/
def clampLimit (limit : Nat) : Nat := max 1 (min limit 500)

/-- `clamp_offset` -/
def clampOffset (offset : Nat) : Nat := min offset (2 ^ 63 - 1)

theorem clampLimit_pos (limit : Nat) : 0 < clampLimit limit := by
  unfold clampLimit
  omega

theorem lt_fetchLimit (limit : Nat) : clampLimit limit < fetchLimit (clampLimit limit) := by
  unfold fetchLimit clampLimit
  omega

/-- `effective_sort` -/
def effectiveSort (query : String) (requestedSort : Option String) : String :=
  match requestedSort with
  | some sort =>
    if sort = "total_size" then "total_size"
    else if sort = "last_seen" then "last_seen"
    else if sort = "rank" ∧ 2 ≤ (trim query).length then "rank"
    else "last_seen"
  | none => if 2 ≤ (trim query).length then "rank" else "last_seen"

/-- `validate_search_filters` -/
def validateSearchFilters (params : SearchQuery) : Except ApiError TorrentSearchFilters :=
  if params.minSize.any fun size => decide (size < 0) then
    .error (.badRequest "min_size must be non-negative")
  else if params.maxSize.any fun size => decide (size < 0) then
    .error (.badRequest "max_size must be non-negative")
  else if params.minSize.any fun minSize => params.maxSize.any fun maxSize =>
      decide (maxSize < minSize) then
    .error (.badRequest "max_size must be greater than or equal to min_size")
  else
    .ok {
      completeOnly := params.completeOnly.getD false
      minSize := params.minSize
      maxSize := params.maxSize }

/-- `search_query(&query).map_err(ApiError::BadRequest)` -/
def validateQuery (u : Unicode) (query : String) : Except ApiError String :=
  (searchQuery u query).mapError .badRequest

/-- `api_search` -/
def apiSearch (u : Unicode) (ft : FullText) (encode : String → String) (connection : Connection)
    (params : SearchQuery) : Handled SearchResponse :=
  let limit := clampLimit params.limit
  let offset := clampOffset params.offset
  checkRequest (validateSearchFilters params) fun filters =>
  checkRequest (params.sort.elim (.ok ()) validateSort) fun _ =>
  let query := params.q.getD ""
  let sort := effectiveSort query params.sort
  checkRequest (validateQuery u query) fun _ =>
  readStore (searchTorrentsFilteredPage u ft connection query limit offset sort filters) fun page =>
  { response := .ok {
      results := page.rows.map (torrentToSearchResult encode)
      limit
      offset
      hasNext := page.hasNext
      effectiveSort := sort } }

/-! ## One torrent -/

structure TorrentDetail where
  infoHash : String
  name : Option String
  totalSize : Int
  fileCount : Int
  firstSeen : Int
  lastSeen : Int
  metadataComplete : Bool
  magnet : String
  deriving DecidableEq

structure Web.FileEntry where
  path : String
  size : Int
  deriving DecidableEq

/-- `FileSearchQuery`, with its defaults. -/
structure FileSearchQuery where
  q : Option String := none
  limit : Nat := 100
  offset : Nat := 0

structure FileSearchResponse where
  files : List Web.FileEntry
  limit : Nat
  offset : Nat
  hasNext : Bool
  deriving DecidableEq

/-- `get_torrent_by_hex`; the key column holds the text of the hash. -/
def getTorrentByHex (connection : Connection) (hash : String) :
    Except StoreError (Option TorrentRecord) :=
  connection.map fun c =>
    (c.torrents.entries.find? fun e => hexEncode e.1 = toAsciiLowercase hash).map rowToTorrent

/-- `validate_info_hash_hex` -/
def validateInfoHashHex (text : String) : Except ApiError Unit :=
  if isInfoHashHex text then .ok ()
  else .error (.badRequest "invalid info_hash: must be 40 hex characters")

/-- The twenty bytes of a hash, decoded after the check of its text. -/
def decodeInfoHash (decode : String → Except String Bytes) (text : String) :
    Except ApiError InfoHash :=
  match decode text with
  | .error e => .error (.badRequest e)
  | .ok bytes =>
    if bytes.length = 20 then .ok (idOfBytes bytes) else .error (.badRequest "invalid hash length")

/-- `api_torrent` -/
def apiTorrent (encode : String → String) (connection : Connection) (infoHashHex : String) :
    Handled TorrentDetail :=
  checkRequest (validateInfoHashHex infoHashHex) fun _ =>
  readStore (getTorrentByHex connection infoHashHex) fun result =>
  match result with
  | some t =>
    { response := .ok {
        infoHash := hexEncode t.infoHash
        name := t.name
        totalSize := t.totalSize
        fileCount := t.fileCount
        firstSeen := t.firstSeen
        lastSeen := t.lastSeen
        metadataComplete := t.metadataComplete
        magnet := magnetUriFromHash encode t.infoHash t.name } }
  | none => { response := .error (.notFound "torrent not found") }

/-- `api_torrent_files`; the torrent is looked up before its files are listed. -/
def apiTorrentFiles (decode : String → Except String Bytes) (coll : Collation)
    (first second : Connection) (infoHashHex : String) (params : FileSearchQuery) :
    Handled FileSearchResponse :=
  checkRequest (validateInfoHashHex infoHashHex) fun _ =>
  checkRequest (decodeInfoHash decode infoHashHex) fun hash =>
  let limit := clampLimit params.limit
  let offset := clampOffset params.offset
  let query := params.q.getD ""
  readStore (getTorrentByHex first infoHashHex) fun result =>
  if result.isNone then { response := .error (.notFound "torrent not found") }
  else
    readStore (second.map fun c => searchFilesPage coll hash query limit offset c) fun page =>
    { response := .ok {
        files := page.results.map fun f => ⟨f.1, f.2⟩
        limit
        offset
        hasNext := page.hasNext } }

/-- `api_magnet`; a torrent that is not there has a link without a name. -/
def apiMagnet (decode : String → Except String Bytes) (encode : String → String)
    (connection : Connection) (infoHashHex : String) : Handled String :=
  checkRequest (validateInfoHashHex infoHashHex) fun _ =>
  checkRequest (decodeInfoHash decode infoHashHex) fun hash =>
  readStore (getTorrentByHex connection infoHashHex) fun result =>
  { response := .ok (magnetUriFromHash encode hash (result.bind (·.name))) }

end Btfind
