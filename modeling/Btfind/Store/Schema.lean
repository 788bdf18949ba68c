import Btfind.Library.KeyedTable
import Btfind.Library.Transaction
import Btfind.Types

/-!
# The catalogue database

The tables of the migrations with the columns that the modelled operations read
or write. A primary key is the key of a keyed table; the two tables with an
auto-increment key are lists in id order. Address and hash columns hold the
values themselves rather than their text, and `discovery_sources` holds the list
that its text joins with commas.
-/

namespace Btfind

structure TorrentRow where
  name : Option String
  pieceLength : Option Int
  totalSize : Int
  fileCount : Int
  source : String
  firstSeen : Int
  lastSeen : Int
  lastAttempt : Int
  metadataComplete : Bool
  deriving DecidableEq

structure FileRow where
  torrentId : InfoHash
  path : String
  size : Int
  deriving DecidableEq

inductive JobStatus
  | queued
  | retryAt
  | waitingPeers
  | complete
  | invalid
  | unsupported
  deriving DecidableEq

/-- `status IN ('complete','invalid','unsupported')` -/
def JobStatus.isTerminal : JobStatus → Bool
  | .complete | .invalid | .unsupported => true
  | _ => false

/-- `status IN ('queued','retry_at')` -/
def JobStatus.isSchedulable : JobStatus → Bool
  | .queued | .retryAt => true
  | _ => false

structure HashJobRow where
  status : JobStatus
  attemptCount : Int
  nextAttemptAt : Int
  lastFailure : Option String
  lastSuccessAt : Option Int
  lastNewPeerAt : Option Int
  discoverySources : List String
  updatedAt : Int
  deriving DecidableEq

structure PeerAttemptRow where
  lastAttempt : Int
  lastError : Option String
  deriving DecidableEq

structure DhtNodeRow where
  addr : SocketAddrV4
  lastSeen : Int
  deriving DecidableEq

structure SampleObservationRow where
  firstSeen : Int
  lastSeen : Int
  sampleCount : Int
  samplingNodeId : NodeId
  samplingAddr : SocketAddrV4
  sweepId : Int
  deriving DecidableEq

structure SearchDocumentRow where
  name : String
  paths : String
  deriving DecidableEq

structure CrawlStatRow where
  timestamp : Int
  nodesKnown : Int
  queriesSent : Int
  infoHashesFound : Int
  metadataFetched : Int
  deriving DecidableEq

structure CatalogTotals where
  totalTorrents : Int
  totalMetadataComplete : Int
  totalFiles : Int
  totalSize : Int
  deriving DecidableEq

structure Catalogue where
  torrents : KeyedTable InfoHash TorrentRow
  files : List FileRow
  hashJobs : KeyedTable InfoHash HashJobRow
  hashJobPeers : KeyedTable (InfoHash × SocketAddrV4) Int
  metadataPeerAttempts : KeyedTable (InfoHash × SocketAddrV4) PeerAttemptRow
  metadataFailureCounts : KeyedTable String Int
  dhtNodes : KeyedTable NodeId DhtNodeRow
  sampleObservations : KeyedTable InfoHash SampleObservationRow
  searchDocuments : KeyedTable InfoHash SearchDocumentRow
  crawlStats : List CrawlStatRow
  catalogTotals : CatalogTotals
  deriving DecidableEq

structure DiscoveryPersistence where
  torrentInserted : Bool := false
  hashJobCreated : Bool := false
  peerlessJobSkipped : Bool := false
  peersInserted : Nat := 0
  peersUpdated : Nat := 0
  peersDeleted : Nat := 0
  deriving DecidableEq

structure RuntimeBatchPersistence where
  torrentsInserted : Nat := 0
  hashJobsCreated : Nat := 0
  peerlessJobsSkipped : Nat := 0
  deriving DecidableEq

/-- The JSON text of the `result` column, decoded. -/
inductive PersistenceResult
  | discovery (persisted : DiscoveryPersistence)
  | runtime (persisted : RuntimeBatchPersistence)
  deriving DecidableEq

abbrev Uuid := BitVec 128

structure ReceiptRow where
  createdAt : Int
  acknowledgedAt : Option Int
  result : Option PersistenceResult
  deriving DecidableEq

/-- The database: the catalogue and the receipts of the operations applied to it. -/
structure Store where
  catalogue : Catalogue
  persistenceReceipts : KeyedTable Uuid ReceiptRow
  deriving DecidableEq

inductive StoreError
  /-- An error of the database or of the connection to it. -/
  | database (retryable : Bool) (message : String)
  | documentTooLarge (hash : InfoHash) (budget : Nat)
  | invalid (message : String)
  deriving DecidableEq

/-- The error of `fetch_one` on no row. -/
def rowNotFound : StoreError :=
  .database false "no rows returned by a query that expected to return at least one row"

/-- What one transaction meets: the clock, the server's packet limit and its fate. -/
structure Turn where
  now : Int
  maxAllowedPacket : Nat
  fate : Transaction.Fate StoreError

/-- The tables right after the migrations. -/
def Catalogue.migrated : Catalogue where
  torrents := ∅
  files := []
  hashJobs := ∅
  hashJobPeers := ∅
  metadataPeerAttempts := ∅
  metadataFailureCounts := ∅
  dhtNodes := ∅
  sampleObservations := ∅
  searchDocuments := ∅
  crawlStats := []
  catalogTotals := ⟨0, 0, 0, 0⟩

def Store.migrated : Store := ⟨.migrated, ∅⟩

/-- A transaction that touches no receipt. -/
def Store.onCatalogue {α : Type} (body : Catalogue → Except StoreError (α × Catalogue))
    (s : Store) : Except StoreError (α × Store) :=
  match body s.catalogue with
  | .ok (a, c) => .ok (a, { s with catalogue := c })
  | .error e => .error e

theorem Store.onCatalogue_ok {α : Type} {body : Catalogue → Except StoreError (α × Catalogue)}
    {s s' : Store} {a : α} (h : s.onCatalogue body = .ok (a, s')) :
    body s.catalogue = .ok (a, s'.catalogue) ∧
      s'.persistenceReceipts = s.persistenceReceipts := by
  rw [Store.onCatalogue] at h
  split at h
  · next hb =>
    cases h
    exact ⟨hb, rfl⟩
  · cases h

/-! ## Text of hashes -/

def hexDigit (n : Nat) : Char :=
  if n < 10 then Char.ofNat ('0'.toNat + n) else Char.ofNat ('a'.toNat + (n - 10))

/-- The text of a hash, which `hex::encode` writes: two digits in lower case for each byte. -/
def hexEncode (hash : InfoHash) : String :=
  String.ofList ((List.range 40).map fun i => hexDigit (hash.toNat / 16 ^ (39 - i) % 16))

end Btfind
