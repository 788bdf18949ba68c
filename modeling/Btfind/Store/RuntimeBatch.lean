import Mathlib.Data.List.Sort
import Btfind.Store.Discover

/-!
# Runtime batches and receipts

The transaction that applies a batch of crawler events, the acknowledgement of
its receipt and the deletion of old receipts.
-/

namespace Btfind

structure RuntimeSnapshot where
  nodesKnown : Int
  queriesSent : Int
  infoHashesFound : Int
  metadataFetched : Int
  deriving DecidableEq

/-- What the event loop of `persist_runtime_batch` carries along. -/
structure BatchProgress where
  outcome : RuntimeBatchPersistence
  nodes : KeyedTable NodeId SocketAddrV4
  catalogue : Catalogue

/-- A peerless discovery inside a batch, counted. -/
def BatchProgress.discover (now : Int) (hash : InfoHash) (source : String)
    (p : BatchProgress) : BatchProgress :=
  let discovery := Btfind.discover now hash source false p.catalogue
  { p with
    outcome := {
      torrentsInserted :=
        p.outcome.torrentsInserted + discovery.1.torrentInserted.toNat
      hashJobsCreated := p.outcome.hashJobsCreated + discovery.1.hashJobCreated.toNat
      peerlessJobsSkipped :=
        p.outcome.peerlessJobsSkipped + discovery.1.peerlessJobSkipped.toNat }
    catalogue := discovery.2 }

def observeSample (now : Int) (hash : InfoHash) (nodeId : NodeId) (addr : SocketAddrV4)
    (roundId : Nat) (c : Catalogue) : Catalogue :=
  let sweepId := min (roundId : Int) i64Max
  { c with sampleObservations :=
    c.sampleObservations.upsert hash ⟨now, now, 1, nodeId, addr, sweepId⟩ fun row =>
      { row with
        lastSeen := now
        sampleCount := row.sampleCount + 1
        samplingNodeId := nodeId
        samplingAddr := addr
        sweepId := sweepId } }

/-- One event of a batch; events without a table are skipped. -/
def BatchProgress.apply (now : Int) (p : BatchProgress) : CrawlStatsEvent → BatchProgress
  | .metadataFetchFailed reason =>
    { p with catalogue.metadataFailureCounts :=
      p.catalogue.metadataFailureCounts.upsert reason.asStr 1 (· + 1) }
  | .dhtNodeSeen id addr => { p with nodes := p.nodes.insert id addr }
  | .hashObserved infoHash source _ false _ => p.discover now infoHash source.asStr
  | .sampleObserved infoHash nodeId addr roundId =>
    let p := p.discover now infoHash "sample_infohashes"
    { p with catalogue := observeSample now infoHash nodeId addr roundId p.catalogue }
  | _ => p

def recordNode (now : Int) (c : Catalogue) (node : Σ _ : NodeId, SocketAddrV4) : Catalogue :=
  { c with dhtNodes := c.dhtNodes.insert node.1 ⟨node.2, now⟩ }

def recordSnapshot (now : Int) (snapshot : Option RuntimeSnapshot) (c : Catalogue) : Catalogue :=
  match snapshot with
  | none => c
  | some s =>
    { c with crawlStats := c.crawlStats ++
      [⟨now, s.nodesKnown, s.queriesSent, s.infoHashesFound, s.metadataFetched⟩] }

/-- The effects of a batch on the catalogue. The nodes are written in key order. -/
def recordRuntimeBatch (now : Int) (events : List CrawlStatsEvent)
    (snapshot : Option RuntimeSnapshot) (c : Catalogue) : RuntimeBatchPersistence × Catalogue :=
  let p := events.foldl (BatchProgress.apply now) ⟨{}, ∅, c⟩
  let before (a b : Σ _ : NodeId, SocketAddrV4) : Prop := a.1.toNat ≤ b.1.toNat
  have : DecidableRel before := fun _ _ => inferInstanceAs (Decidable (_ ≤ _))
  let c := (p.nodes.entries.insertionSort before).foldl (recordNode now) p.catalogue
  (p.outcome, recordSnapshot now snapshot c)

/-- The tables that a runtime batch changes only through `discover` agree. -/
structure SameCore (c c' : Catalogue) : Prop where
  torrents : c'.torrents = c.torrents
  files : c'.files = c.files
  hashJobs : c'.hashJobs = c.hashJobs
  hashJobPeers : c'.hashJobPeers = c.hashJobPeers
  metadataPeerAttempts : c'.metadataPeerAttempts = c.metadataPeerAttempts
  searchDocuments : c'.searchDocuments = c.searchDocuments
  catalogTotals : c'.catalogTotals = c.catalogTotals

/-- The event is an observation of the hash. -/
def CrawlStatsEvent.observes (hash : InfoHash) : CrawlStatsEvent → Bool
  | .sampleObserved infoHash _ _ _ => infoHash = hash
  | .hashObserved infoHash _ _ _ _ => infoHash = hash
  | _ => false

/-- A property of the core tables that peerless discoveries of the observed hashes keep is
kept by a batch. -/
theorem recordRuntimeBatch_observed {now : Int} {events : List CrawlStatsEvent}
    {snapshot : Option RuntimeSnapshot} {P : Catalogue → Prop} {c : Catalogue} (hc : P c)
    (hdiscover : ∀ event ∈ events, ∀ c hash source, event.observes hash = true → P c →
      P (discover now hash source false c).2)
    (hframe : ∀ c c', P c → SameCore c c' → P c') :
    P (recordRuntimeBatch now events snapshot c).2 := by
  have hevents : P (events.foldl (BatchProgress.apply now) ⟨{}, ∅, c⟩).catalogue := by
    refine List.foldlRecOn (motive := fun p : BatchProgress => P p.catalogue) events _ hc ?_
    intro p hp event hevent
    have hstep := hdiscover event hevent p.catalogue
    unfold BatchProgress.apply
    split
    · exact hframe _ _ hp ⟨rfl, rfl, rfl, rfl, rfl, rfl, rfl⟩
    · exact hp
    · next hash source _ _ => exact hstep hash source.asStr (decide_eq_true rfl) hp
    · next hash _ _ _ =>
      exact hframe _ _ (hstep hash "sample_infohashes" (decide_eq_true rfl) hp)
        ⟨rfl, rfl, rfl, rfl, rfl, rfl, rfl⟩
    · exact hp
  have hnodes : ∀ (nodes : List (Σ _ : NodeId, SocketAddrV4)) (c : Catalogue), P c →
      P (nodes.foldl (recordNode now) c) := by
    intro nodes c hc
    refine List.foldlRecOn nodes _ hc ?_
    intro c hc node _
    exact hframe _ _ hc ⟨rfl, rfl, rfl, rfl, rfl, rfl, rfl⟩
  unfold recordRuntimeBatch recordSnapshot
  cases snapshot with
  | none => exact hnodes _ _ hevents
  | some s => exact hframe _ _ (hnodes _ _ hevents) ⟨rfl, rfl, rfl, rfl, rfl, rfl, rfl⟩

/-- A property of the core tables that peerless discoveries keep is kept by a batch. -/
theorem recordRuntimeBatch_induction {now : Int} {events : List CrawlStatsEvent}
    {snapshot : Option RuntimeSnapshot} {P : Catalogue → Prop} {c : Catalogue} (hc : P c)
    (hdiscover : ∀ c hash source, P c → P (discover now hash source false c).2)
    (hframe : ∀ c c', P c → SameCore c c' → P c') :
    P (recordRuntimeBatch now events snapshot c).2 :=
  recordRuntimeBatch_observed hc (fun _ _ c hash source _ => hdiscover c hash source) hframe

/-- `persist_runtime_batch`: a batch whose receipt is stored is not applied again,
and the stored result is returned. -/
def persistRuntimeBatchTx (now : Int) (events : List CrawlStatsEvent)
    (snapshot : Option RuntimeSnapshot) (receipt : Uuid) (s : Store) :
    Except StoreError (RuntimeBatchPersistence × Store) :=
  match s.persistenceReceipts.lookup receipt with
  | some row =>
    match row.result with
    | none => .ok ({}, s)
    | some (.runtime persisted) => .ok (persisted, s)
    | some (.discovery _) => .error (.invalid "failed to decode persistence result")
  | none =>
    let recorded := recordRuntimeBatch now events snapshot s.catalogue
    .ok (recorded.1, {
      catalogue := recorded.2
      persistenceReceipts :=
        (s.persistenceReceipts.insert receipt ⟨now, none, none⟩).adjust receipt
          fun row => { row with result := some (.runtime recorded.1) } })

def acknowledgeReceiptTx (now : Int) (receipt : Uuid) (s : Store) :
    Except StoreError (Unit × Store) :=
  .ok ((), { s with persistenceReceipts := s.persistenceReceipts.adjust receipt fun row =>
    if row.acknowledgedAt.isNone then { row with acknowledgedAt := some now } else row })

/-- One `DELETE … LIMIT 500` of `prune_receipts`; the server picks the rows. -/
def pruneReceiptsTx (now : Int) (picked : Uuid → Bool) (s : Store) :
    Except StoreError (Nat × Store) :=
  let cutoff := now - 7 * 86400
  let kept := s.persistenceReceipts.keep fun id row =>
    !(picked id && row.acknowledgedAt.any fun t => t < cutoff)
  .ok (s.persistenceReceipts.count - kept.count, { s with persistenceReceipts := kept })

end Btfind
