import Mathlib.Logic.Function.Basic
import Btfind.Types

/-!
# The counters of the crawler process

`CrawlerMetrics` as a function from its atomic fields to their values. Every method is a
list of atomic updates, one after the other: other tasks can update and read in between.
-/

namespace Btfind

/-- The atomic fields. -/
inductive Counter
  | knownNodes
  | queriesSent
  | rpcResponses
  | rpcTimeouts
  | rpcMalformed
  | rpcUnsolicited
  | rpcUnexpectedSource
  | hashesDiscovered
  | samplingResponses
  | metadataFetched
  | metadataFailed
  | backpressureEvents
  | persistenceErrors
  | activeMetadataJobs
  | queuedMetadataJobs
  | pendingMetadataPeers
  | discoveryQueueDepth
  | discoveryQueueCapacity
  | discoveryObservations
  | discoveryPeerBearingObservations
  | discoveryPeerlessObservations
  | discoveryChannelAccepted
  | discoveryChannelRejected
  | discoveryPeerBearingRejected
  | discoveryPeerAddressesLost
  | discoveryBySource (source : DiscoverySource)
  | lookupQueueAccepted
  | lookupQueueDuplicate
  | lookupQueueCapacityRejected
  | realLookupsInitiated
  | realLookupsSucceeded
  | realLookupsFailed
  | realLookupRpcTimeouts
  | realLookupRpcFailures
  | realLookupRpcUnsent
  | getPeersResponsesWithPeers
  | getPeersResponsesNodesOnly
  | metadataJobAdmissions (admission : MetadataJobAdmission)
  | metadataRetrievalOutcomes (outcome : MetadataRetrievalOutcome)
  | metadataFetchedLastEmit
  | torrentsInserted
  | hashJobsCreated
  | peerlessJobsSkipped
  | peerBearingDiscoveriesPersisted
  | peerRecordsInserted
  | peerRecordsUpdated
  | peerRecordsDeleted
  deriving DecidableEq

abbrev CrawlerMetrics := Counter → UInt64

/-- `fetch_add` and `store`. -/
inductive MetricUpdate
  | add (counter : Counter) (n : UInt64)
  | store (counter : Counter) (value : UInt64)
  deriving DecidableEq

namespace MetricUpdate

def counter : MetricUpdate → Counter
  | .add counter _ => counter
  | .store counter _ => counter

def run (m : CrawlerMetrics) : MetricUpdate → CrawlerMetrics
  | .add counter n => Function.update m counter (m counter + n)
  | .store counter value => Function.update m counter value

end MetricUpdate

namespace CrawlerMetrics

open MetricUpdate

def default : CrawlerMetrics := fun _ => 0

/-- `usize as u64` -/
def ofUsize (n : Nat) : UInt64 := UInt64.ofNat n

def increment (counter : Counter) : MetricUpdate := .add counter 1

/-- The updates of `apply` for an observation. -/
def observe (source : DiscoverySource) (hasPeers accepted : Bool) (peers : Nat) :
    List MetricUpdate :=
  [increment .hashesDiscovered, increment .discoveryObservations,
    increment (.discoveryBySource source),
    if hasPeers then increment .discoveryPeerBearingObservations
    else increment .discoveryPeerlessObservations] ++
  if accepted then [increment .discoveryChannelAccepted]
  else
    increment .discoveryChannelRejected ::
      if hasPeers then
        [increment .discoveryPeerBearingRejected, .add .discoveryPeerAddressesLost (ofUsize peers)]
      else []

def apply : CrawlStatsEvent → List MetricUpdate
  | .dhtSnapshot nodesKnown queriesSent infoHashesFound =>
    [.store .knownNodes (ofUsize nodesKnown), .store .queriesSent (ofUsize queriesSent),
      .store .hashesDiscovered (ofUsize infoHashesFound)]
  | .metadataFetched => [increment .metadataFetched]
  | .metadataFetchFailed _ => [increment .metadataFailed]
  | .rpcAnswered => [increment .rpcResponses]
  | .rpcTimedOut => [increment .rpcTimeouts]
  | .rpcMalformed => [increment .rpcMalformed]
  | .rpcUnsolicited => [increment .rpcUnsolicited]
  | .rpcUnexpectedSource => [increment .rpcUnexpectedSource]
  | .discoveryBackpressure => [increment .backpressureEvents]
  | .hashObserved _ source hasPeers accepted peers => observe source hasPeers accepted peers
  | .samplingResponse _ => [increment .samplingResponses]
  | .metadataQueue activeJobs queuedJobs pendingPeers =>
    [.store .activeMetadataJobs (ofUsize activeJobs), .store .queuedMetadataJobs (ofUsize queuedJobs),
      .store .pendingMetadataPeers (ofUsize pendingPeers)]
  | .dhtNodeSeen _ _ | .sampleObserved _ _ _ _ => []

/-! ## The other methods -/

def recordPersistenceError : List MetricUpdate := [increment .persistenceErrors]

def setDiscoveryQueueCapacity (capacity : Nat) : List MetricUpdate :=
  [.store .discoveryQueueCapacity (ofUsize capacity)]

def setDiscoveryQueueDepth (depth : Nat) : List MetricUpdate :=
  [.store .discoveryQueueDepth (ofUsize depth)]

def recordLookupQueueAccepted : List MetricUpdate := [increment .lookupQueueAccepted]

def recordLookupQueueDuplicate : List MetricUpdate := [increment .lookupQueueDuplicate]

def recordLookupQueueCapacityRejected : List MetricUpdate :=
  [increment .lookupQueueCapacityRejected]

def recordRealLookupInitiated : List MetricUpdate := [increment .realLookupsInitiated]

def recordRealLookupSucceeded : List MetricUpdate := [increment .realLookupsSucceeded]

def recordRealLookupFailed : List MetricUpdate := [increment .realLookupsFailed]

def recordRealLookupRpcTimeout : List MetricUpdate := [increment .realLookupRpcTimeouts]

def recordRealLookupRpcFailure : List MetricUpdate := [increment .realLookupRpcFailures]

def recordRealLookupRpcUnsent : List MetricUpdate := [increment .realLookupRpcUnsent]

def recordGetPeersResponse (withPeers : Bool) : List MetricUpdate :=
  if withPeers then [increment .getPeersResponsesWithPeers]
  else [increment .getPeersResponsesNodesOnly]

def recordMetadataJobAdmission (admission : MetadataJobAdmission) : List MetricUpdate :=
  [increment (.metadataJobAdmissions admission)]

def recordMetadataRetrievalOutcome (outcome : MetadataRetrievalOutcome) : List MetricUpdate :=
  [increment (.metadataRetrievalOutcomes outcome)]

def recordTorrentsInserted (count : UInt64) : List MetricUpdate := [.add .torrentsInserted count]

def recordHashJobsCreated (count : UInt64) : List MetricUpdate := [.add .hashJobsCreated count]

def recordPeerlessJobsSkipped (count : UInt64) : List MetricUpdate :=
  [.add .peerlessJobsSkipped count]

def recordPeerBearingDiscoveriesPersisted (count : UInt64) : List MetricUpdate :=
  [.add .peerBearingDiscoveriesPersisted count]

def recordPeerRecords (inserted updated deleted : UInt64) : List MetricUpdate :=
  [.add .peerRecordsInserted inserted, .add .peerRecordsUpdated updated,
    .add .peerRecordsDeleted deleted]

/-- The `swap` of `metadata_fetched_interval`. -/
def metadataFetchedInterval (total : UInt64) : List MetricUpdate :=
  [.store .metadataFetchedLastEmit total]

/-! ## The status record -/

/-- The fields of `crawler_status` that `emit` names `*_total`, and the counter each reads. -/
def totalFields : List (String × Counter) :=
  [("queries_sent_total", .queriesSent),
    ("rpc_responses_total", .rpcResponses),
    ("rpc_timeouts_total", .rpcTimeouts),
    ("rpc_malformed_total", .rpcMalformed),
    ("rpc_unsolicited_total", .rpcUnsolicited),
    ("rpc_unexpected_source_total", .rpcUnexpectedSource),
    ("hashes_discovered_total", .hashesDiscovered),
    ("sampling_responses_total", .samplingResponses),
    ("metadata_fetched_total", .metadataFetched),
    ("metadata_failed_total", .metadataFailed),
    ("backpressure_events_total", .backpressureEvents),
    ("persistence_errors_total", .persistenceErrors),
    ("discovery_observations_total", .discoveryObservations),
    ("discovery_peer_bearing_observations_total", .discoveryPeerBearingObservations),
    ("discovery_peerless_observations_total", .discoveryPeerlessObservations),
    ("discovery_channel_accepted_total", .discoveryChannelAccepted),
    ("discovery_channel_rejected_total", .discoveryChannelRejected),
    ("discovery_peer_bearing_rejected_total", .discoveryPeerBearingRejected),
    ("discovery_peer_addresses_lost_total", .discoveryPeerAddressesLost),
    ("discovery_observed_inbound_get_peers_total", .discoveryBySource .inboundGetPeers),
    ("discovery_observed_announce_peer_total", .discoveryBySource .announcePeer),
    ("discovery_observed_resume_total", .discoveryBySource .resume),
    ("discovery_observed_sample_infohashes_total", .discoveryBySource .sampleInfohashes),
    ("discovery_observed_outbound_get_peers_total", .discoveryBySource .outboundGetPeers),
    ("lookup_queue_accepted_total", .lookupQueueAccepted),
    ("lookup_queue_duplicate_total", .lookupQueueDuplicate),
    ("lookup_queue_capacity_rejected_total", .lookupQueueCapacityRejected),
    ("real_lookups_initiated_total", .realLookupsInitiated),
    ("real_lookups_succeeded_total", .realLookupsSucceeded),
    ("real_lookups_failed_total", .realLookupsFailed),
    ("real_lookup_rpc_timeouts_total", .realLookupRpcTimeouts),
    ("real_lookup_rpc_failures_total", .realLookupRpcFailures),
    ("real_lookup_rpc_unsent_total", .realLookupRpcUnsent),
    ("get_peers_responses_with_peers_total", .getPeersResponsesWithPeers),
    ("get_peers_responses_nodes_only_total", .getPeersResponsesNodesOnly),
    ("metadata_job_admissions_accepted_total", .metadataJobAdmissions .accepted),
    ("metadata_job_admissions_unchanged_total", .metadataJobAdmissions .unchanged),
    ("metadata_job_admissions_no_peers_total", .metadataJobAdmissions .noPeers),
    ("metadata_job_admissions_at_capacity_total", .metadataJobAdmissions .atCapacity),
    ("metadata_retrieval_complete_total", .metadataRetrievalOutcomes .complete),
    ("metadata_retrieval_retry_at_total", .metadataRetrievalOutcomes .retryAt),
    ("metadata_retrieval_waiting_peers_total", .metadataRetrievalOutcomes .waitingPeers),
    ("metadata_retrieval_invalid_total", .metadataRetrievalOutcomes .invalid),
    ("metadata_retrieval_unsupported_total", .metadataRetrievalOutcomes .unsupported),
    ("torrents_inserted_total", .torrentsInserted),
    ("hash_jobs_created_total", .hashJobsCreated),
    ("peerless_jobs_skipped_total", .peerlessJobsSkipped),
    ("peer_bearing_discoveries_persisted_total", .peerBearingDiscoveriesPersisted),
    ("peer_records_inserted_total", .peerRecordsInserted),
    ("peer_records_updated_total", .peerRecordsUpdated),
    ("peer_records_deleted_total", .peerRecordsDeleted)]

/-- The values that a status record shows as totals. -/
def totals (m : CrawlerMetrics) : List (String × UInt64) :=
  totalFields.map fun field => (field.1, m field.2)

/-- No total of the later values is smaller. -/
def TotalsRise (m m' : CrawlerMetrics) : Prop :=
  ∀ e ∈ (totals m).zip (totals m'), e.1.1 = e.2.1 ∧ e.1.2 ≤ e.2.2

instance (m m' : CrawlerMetrics) : Decidable (TotalsRise m m') :=
  inferInstanceAs (Decidable (∀ e ∈ (totals m).zip (totals m'), e.1.1 = e.2.1 ∧ e.1.2 ≤ e.2.2))

/-- The fields that are no total. -/
def isGauge : Counter → Bool
  | .knownNodes | .activeMetadataJobs | .queuedMetadataJobs | .pendingMetadataPeers
  | .discoveryQueueDepth | .discoveryQueueCapacity | .metadataFetchedLastEmit => true
  | _ => false

/-- Every field is reported as a total or is a gauge, and not both. -/
theorem isGauge_eq_false_iff (counter : Counter) :
    isGauge counter = false ↔ counter ∈ totalFields.map Prod.snd := by
  cases counter with
  | discoveryBySource source => cases source <;> decide
  | metadataJobAdmissions admission => cases admission <;> decide
  | metadataRetrievalOutcomes outcome => cases outcome <;> decide
  | _ => decide

theorem totalsRise_of_le {m m' : CrawlerMetrics}
    (h : ∀ counter, isGauge counter = false → m counter ≤ m' counter) : TotalsRise m m' := by
  intro e he
  rw [totals, totals, List.zip_map', List.mem_map] at he
  obtain ⟨field, hfield, rfl⟩ := he
  exact ⟨rfl, h _ ((isGauge_eq_false_iff _).mpr (List.mem_map_of_mem hfield))⟩

end CrawlerMetrics

end Btfind
