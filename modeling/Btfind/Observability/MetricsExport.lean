import Btfind.Observability.Checkpoint

/-!
# Metric points

The summary events of the journal as points of metrics. The counters of the crawler are published
as differences to a baseline, which every status record replaces.
-/

namespace Btfind

structure MetricPoint where
  /-- Microseconds since the epoch. -/
  timestamp : Int
  name : String
  value : Int
  unit : String
  semantics : String
  dimensions : List (String × String)

namespace MetricsExport

def summaryEvents : List String :=
  ["crawler_status", "web_status", "web_route_status", "web_latency_bucket"]

def crawlerCounters : List (String × String) :=
  [("queries_sent_total", "CrawlerQueriesSent"),
    ("rpc_responses_total", "CrawlerRpcResponses"),
    ("rpc_timeouts_total", "CrawlerRpcTimeouts"),
    ("rpc_malformed_total", "CrawlerRpcMalformed"),
    ("rpc_unsolicited_total", "CrawlerRpcUnsolicited"),
    ("rpc_unexpected_source_total", "CrawlerRpcUnexpectedSource"),
    ("hashes_discovered_total", "CrawlerHashesDiscovered"),
    ("sampling_responses_total", "CrawlerSamplingResponses"),
    ("metadata_fetched_total", "CrawlerMetadataFetched"),
    ("metadata_failed_total", "CrawlerMetadataFailures"),
    ("backpressure_events_total", "CrawlerBackpressureEvents"),
    ("persistence_errors_total", "CrawlerPersistenceErrors"),
    ("discovery_observations_total", "CrawlerDiscoveryObservations"),
    ("discovery_observed_inbound_get_peers_total", "CrawlerDiscoveryObservedInboundGetPeers"),
    ("discovery_observed_announce_peer_total", "CrawlerDiscoveryObservedAnnouncePeer"),
    ("discovery_observed_resume_total", "CrawlerDiscoveryObservedResume"),
    ("discovery_observed_sample_infohashes_total", "CrawlerDiscoveryObservedSampleInfohashes"),
    ("discovery_observed_outbound_get_peers_total", "CrawlerDiscoveryObservedOutboundGetPeers"),
    ("discovery_peer_bearing_observations_total", "CrawlerDiscoveryPeerBearingObservations"),
    ("discovery_peerless_observations_total", "CrawlerDiscoveryPeerlessObservations"),
    ("discovery_channel_accepted_total", "CrawlerDiscoveryChannelAccepted"),
    ("discovery_channel_rejected_total", "CrawlerDiscoveryChannelRejected"),
    ("discovery_peer_bearing_rejected_total", "CrawlerDiscoveryPeerBearingRejected"),
    ("discovery_peer_addresses_lost_total", "CrawlerDiscoveryPeerAddressesLost"),
    ("lookup_queue_accepted_total", "CrawlerLookupQueueAccepted"),
    ("lookup_queue_duplicate_total", "CrawlerLookupQueueDuplicate"),
    ("lookup_queue_capacity_rejected_total", "CrawlerLookupQueueCapacityRejected"),
    ("real_lookups_initiated_total", "CrawlerRealLookupsInitiated"),
    ("real_lookups_succeeded_total", "CrawlerRealLookupsSucceeded"),
    ("real_lookups_failed_total", "CrawlerRealLookupsFailed"),
    ("real_lookup_rpc_timeouts_total", "CrawlerRealLookupRpcTimeouts"),
    ("real_lookup_rpc_failures_total", "CrawlerRealLookupRpcFailures"),
    ("real_lookup_rpc_unsent_total", "CrawlerRealLookupRpcUnsent"),
    ("get_peers_responses_with_peers_total", "CrawlerGetPeersResponsesWithPeers"),
    ("get_peers_responses_nodes_only_total", "CrawlerGetPeersResponsesNodesOnly"),
    ("metadata_job_admissions_accepted_total", "CrawlerMetadataJobAdmissionsAccepted"),
    ("metadata_job_admissions_unchanged_total", "CrawlerMetadataJobAdmissionsUnchanged"),
    ("metadata_job_admissions_no_peers_total", "CrawlerMetadataJobAdmissionsNoPeers"),
    ("metadata_job_admissions_at_capacity_total", "CrawlerMetadataJobAdmissionsAtCapacity"),
    ("metadata_retrieval_complete_total", "CrawlerMetadataRetrievalComplete"),
    ("metadata_retrieval_retry_at_total", "CrawlerMetadataRetrievalRetryAt"),
    ("metadata_retrieval_waiting_peers_total", "CrawlerMetadataRetrievalWaitingPeers"),
    ("metadata_retrieval_invalid_total", "CrawlerMetadataRetrievalInvalid"),
    ("metadata_retrieval_unsupported_total", "CrawlerMetadataRetrievalUnsupported"),
    ("torrents_inserted_total", "CrawlerTorrentsInserted"),
    ("hash_jobs_created_total", "CrawlerHashJobsCreated"),
    ("peerless_jobs_skipped_total", "CrawlerPeerlessJobsSkipped"),
    ("peer_bearing_discoveries_persisted_total", "CrawlerPeerBearingDiscoveriesPersisted"),
    ("peer_records_inserted_total", "CrawlerPeerRecordsInserted"),
    ("peer_records_updated_total", "CrawlerPeerRecordsUpdated"),
    ("peer_records_deleted_total", "CrawlerPeerRecordsDeleted")]

def crawlerGauges : List (String × String) :=
  [("known_nodes", "CrawlerKnownNodes"),
    ("active_metadata_jobs", "CrawlerActiveMetadataJobs"),
    ("queued_metadata_jobs", "CrawlerQueuedMetadataJobs"),
    ("pending_metadata_peers", "CrawlerPendingMetadataPeers"),
    ("discovery_queue_depth", "CrawlerDiscoveryQueueDepth"),
    ("discovery_queue_capacity", "CrawlerDiscoveryQueueCapacity")]

def crawlerIntervalCounters : List (String × String) :=
  [("metadata_fetched_interval", "CrawlerMetadataFetchedInterval")]

def statusClasses : List (String × String) :=
  [("requests_2xx", "2xx"), ("requests_3xx", "3xx"), ("requests_4xx", "4xx"),
    ("requests_5xx", "5xx")]

/-! ## Fields -/

/-- `_fields`: a record may hold its fields in a dictionary of their own. -/
def fields (content : JsonObject) : JsonObject :=
  match content.lookup "fields" with
  | some (.obj fields) => fields
  | _ => content

def field (content : JsonObject) (name : String) (default : Json) : Json :=
  match (fields content).lookup name with
  | some value => value
  | none => (content.lookup name).getD default

/-- `_int`: what is no number counts as zero. -/
def int (py : Python) (content : JsonObject) (name : String) : Except PyError Int :=
  match py.int (field content name (.int 0)) with
  | .ok n => .ok n
  | .error e => if e = .typeError ∨ e.isValueError then .ok 0 else .error e

/-- `_string` -/
def string (py : Python) (content : JsonObject) (name : String) : String :=
  match field content name (.str "") with
  | .null => ""
  | value => py.str value

def stringOr (py : Python) (content : JsonObject) (name default : String) : String :=
  let value := string py content name
  if value = "" then default else value

def dimensions (instanceName service : String) (extra : List (String × String)) :
    List (String × String) :=
  [("instance", instanceName), ("service", service)] ++ extra

def event (py : Python) (content : JsonObject) : String := string py content "event"

def runId (py : Python) (content : JsonObject) : String := stringOr py content "run_id" "unknown"

/-- `_timestamp_fields` -/
def timestampFields (py : Python) (content : JsonObject) : Except PyError JsonObject := do
  let first ← int py content "window_start_unix"
  let last ← int py content "window_end_unix"
  return [("window_start_unix", .int first), ("window_end_unix", .int last)]

/-- A point of the number that a field holds. -/
def pointOf (py : Python) (content : JsonObject) (timestamp : Int)
    (dimensions : List (String × String)) (unit semantics : String) (fieldName name : String) :
    Except PyError MetricPoint := do
  let value ← int py content fieldName
  return ⟨timestamp, name, value, unit, semantics, dimensions⟩

/-! ## The crawler -/

/-- What a counter has grown by since the baseline. A counter that has fallen started again, and
another run of the crawler has nothing to compare with. -/
def counterDelta (previousRunId : Option String) (runId : String)
    (counters : KeyedTable String Int) (fieldName : String) (value : Int) : Int :=
  if previousRunId = some runId then
    let delta := value - (counters.lookup fieldName).getD value
    if delta < 0 then value else delta
  else 0

/-- The loop over the counters. -/
def mapCounters (py : Python) (content : JsonObject) (timestamp : Int)
    (dimensions : List (String × String)) (previousRunId : Option String) (runId : String) :
    List (String × String) → KeyedTable String Int →
      Except PyError (List MetricPoint × KeyedTable String Int)
  | [], counters => .ok ([], counters)
  | (fieldName, metricName) :: rest, counters => do
    let value ← int py content fieldName
    let delta := counterDelta previousRunId runId counters fieldName value
    let (points, counters) ←
      mapCounters py content timestamp dimensions previousRunId runId rest
        (counters.insert fieldName value)
    if 0 < delta then
      return (⟨timestamp, metricName, delta, "count", "interval_delta", dimensions⟩ :: points,
        counters)
    else return (points, counters)

def mapCrawler (py : Python) (content : JsonObject) (instanceName : String) (timestamp : Int)
    (baselines : Baselines) : Except PyError (List MetricPoint × Baselines) := do
  let runId := runId py content
  let dimensions := dimensions instanceName "crawler" []
  let gauges ← crawlerGauges.mapM fun gauge =>
    pointOf py content timestamp dimensions "count" "gauge" gauge.1 gauge.2
  let (deltas, counters) ← mapCounters py content timestamp dimensions
    (baselines.map CrawlerBaseline.runId) runId crawlerCounters
    ((baselines.map CrawlerBaseline.counters).getD ∅)
  let intervals ← crawlerIntervalCounters.mapM fun counter =>
    pointOf py content timestamp dimensions "count" "window_count" counter.1 counter.2
  return (gauges ++ deltas ++ intervals, some ⟨runId, counters⟩)

/-! ## The web interface -/

def mapWebStatus (py : Python) (content : JsonObject) (instanceName : String) (timestamp : Int) :
    Except PyError (List MetricPoint) := do
  let web := dimensions instanceName "web"
  let point := pointOf py content timestamp
  let total ← point (web []) "count" "window_count" "requests_total" "WebRequestsTotal"
  let classes ← statusClasses.mapM fun status =>
    point (web [("status_class", status.2)]) "count" "window_count" status.1 "WebRequests"
  let count ← point (web []) "count" "window_count" "duration_count" "WebRequestDurationCount"
  let sum ←
    point (web []) "milliseconds" "window_sum" "duration_sum_ms" "WebRequestDurationSum"
  let active ← point (web []) "count" "gauge" "active_requests" "WebActiveRequests"
  let errors ← point (web []) "count" "window_count" "database_errors" "WebDatabaseErrors"
  return total :: classes ++ [count, sum, active, errors]

def mapWebRoute (py : Python) (content : JsonObject) (instanceName : String) (timestamp : Int) :
    Except PyError (List MetricPoint) := do
  let route := stringOr py content "route" "unmatched"
  let web := dimensions instanceName "web"
  let point := pointOf py content timestamp
  let classes ← statusClasses.mapM fun status =>
    point (web [("route", route), ("status_class", status.2)]) "count" "window_count" status.1
      "WebRouteRequests"
  let count ← point (web [("route", route)]) "count" "window_count" "duration_count"
    "WebRouteRequestDurationCount"
  let sum ← point (web [("route", route)]) "milliseconds" "window_sum" "duration_sum_ms"
    "WebRouteRequestDurationSum"
  return classes ++ [count, sum]

def mapWebLatencyBucket (py : Python) (content : JsonObject) (instanceName : String)
    (timestamp : Int) : Except PyError (List MetricPoint) := do
  let le := stringOr py content "le" "+Inf"
  let point ← pointOf py content timestamp (dimensions instanceName "web" [("le", le)]) "count"
    "window_count" "count" "WebRequestDurationBucket"
  return [point]

/-! ## Batches -/

structure Freshness where
  maxAgeSeconds : Int
  /-- The clock of the attempt in microseconds. -/
  now : Int
  deriving DecidableEq

def Freshness.age (f : Freshness) (record : JournalRecord) : Int := f.now - record.timestamp

def Freshness.stale (f : Freshness) (record : JournalRecord) : Prop :=
  f.maxAgeSeconds * 1000000 < f.age record

instance (f : Freshness) (record : JournalRecord) : Decidable (f.stale record) :=
  inferInstanceAs (Decidable (_ < _))

/-- What is recorded of a summary that comes too late. -/
def skippedRecord (py : Python) (f : Freshness) (record : JournalRecord) :
    Except PyError JsonObject := do
  let window ← timestampFields py record.content
  return [("event", .str (event py record.content)),
    ("timestamp", .str (py.isoformat record.timestamp)),
    ("age_seconds", .int ((f.age record).tdiv 1000000))] ++ window

/-- The points of one summary; only those of the crawler use the baselines. -/
def mapSummary (py : Python) (instanceName : String) (f : Freshness) (record : JournalRecord)
    (working : Baselines) : Except PyError (List MetricPoint × Baselines) :=
  let content := record.content
  if event py content = "crawler_status" then
    -- A stale summary advances the baseline too.
    mapCrawler py content instanceName record.timestamp working
  else if f.stale record then .ok ([], working)
  else if event py content = "web_status" then
    (mapWebStatus py content instanceName record.timestamp).map (·, working)
  else if event py content = "web_route_status" then
    (mapWebRoute py content instanceName record.timestamp).map (·, working)
  else (mapWebLatencyBucket py content instanceName record.timestamp).map (·, working)

structure Mapped where
  points : List MetricPoint
  working : Baselines
  skipped : List JsonObject

/-- What a batch comes to when more records follow. -/
def Mapped.append (first second : Mapped) : Mapped :=
  ⟨first.points ++ second.points, second.working, first.skipped ++ second.skipped⟩

/-- One turn of the loop of `map_batch`. -/
def mapRecord (py : Python) (instanceName : String) (f : Freshness) (record : JournalRecord)
    (working : Baselines) : Except PyError Mapped :=
  if event py record.content ∉ summaryEvents then .ok ⟨[], working, []⟩
  else do
    let (mapped, working) ← mapSummary py instanceName f record working
    if f.stale record then
      let skipped ← skippedRecord py f record
      return ⟨[], working, [skipped]⟩
    else return ⟨mapped, working, []⟩

def mapBatch (py : Python) (instanceName : String) (f : Freshness) :
    List JournalRecord → Baselines → Except PyError Mapped
  | [], baselines => .ok ⟨[], baselines, []⟩
  | record :: records, baselines => do
    let one ← mapRecord py instanceName f record baselines
    let rest ← mapBatch py instanceName f records one.working
    return one.append rest

end MetricsExport

end Btfind
