import Btfind.Library.KeyedTable
import Btfind.Library.Transition
import Btfind.Types

/-!
# The metrics of the web interface

The window of counts that the handlers share, the gauge of requests in flight, and the reports that
are written from them. A report takes the window away before it is written, so requests end between
the two.
-/

namespace Btfind

/-! ## Labels -/

/-- `ROUTES` -/
inductive Route
  | root
  | dashboardCss
  | dashboardJs
  | stats
  | search
  | torrent
  | torrentFiles
  | magnet
  | unmatched
  deriving DecidableEq

def Route.asStr : Route → String
  | .root => "/"
  | .dashboardCss => "/dashboard.css"
  | .dashboardJs => "/dashboard.js"
  | .stats => "/api/stats"
  | .search => "/api/search"
  | .torrent => "/api/torrents/{info_hash}"
  | .torrentFiles => "/api/torrents/{info_hash}/files"
  | .magnet => "/api/torrents/{info_hash}/magnet"
  | .unmatched => "unmatched"

def routes : List Route :=
  [.root, .dashboardCss, .dashboardJs, .stats, .search, .torrent, .torrentFiles, .magnet,
    .unmatched]

/-- `route_label` -/
def routeLabel (matchedPath : Option String) : Route :=
  match matchedPath with
  | none => .unmatched
  | some path => (routes.find? fun route => route.asStr = path).getD .unmatched

/-- `status_class` -/
def statusClass (status : Nat) : Fin 4 :=
  match status / 100 with
  | 2 => 0
  | 3 => 1
  | 4 => 2
  | _ => 3

/-- `LATENCY_BUCKETS_MS` -/
def latencyBucketsMs : List Nat := [5, 10, 25, 50, 100, 250, 500, 1000, 2500, 5000]

/-- `latency_bucket_index`; the last bucket has no upper end. -/
def latencyBucketIndex (milliseconds : Nat) : Fin 11 :=
  ⟨latencyBucketsMs.findIdx fun bucket => milliseconds ≤ bucket,
    Nat.lt_succ_of_le List.findIdx_le_length⟩

/-! ## Windows -/

def u64Max : Nat := 2 ^ 64 - 1

/-- `u64::saturating_add` -/
def saturatingAddU64 (a b : Nat) : Nat := min (a + b) u64Max

structure RouteWindow where
  status : Fin 4 → Nat := fun _ => 0
  durationCount : Nat := 0
  durationSumMs : Nat := 0
  latencyBuckets : Fin 11 → Nat := fun _ => 0

structure WebWindow where
  startedUnix : Int
  routes : KeyedTable Route RouteWindow := ∅
  databaseErrors : Nat := 0

/-- What `record_request` keeps of a request. -/
structure RequestSample where
  route : Route
  status : Fin 4
  bucket : Fin 11
  milliseconds : Nat
  deriving DecidableEq

/-- The labels of a request; `elapsed` is in milliseconds, of which a cast keeps the low bits. -/
def RequestSample.of (route : String) (status elapsed : Nat) : RequestSample where
  route := routeLabel (some route)
  status := statusClass status
  bucket := latencyBucketIndex (elapsed % 2 ^ 64)
  milliseconds := min elapsed u64Max

def RouteWindow.record (sample : RequestSample) (window : RouteWindow) : RouteWindow where
  status := Function.update window.status sample.status
    (saturatingAddU64 (window.status sample.status) 1)
  durationCount := saturatingAddU64 window.durationCount 1
  durationSumMs := saturatingAddU64 window.durationSumMs sample.milliseconds
  latencyBuckets := Function.update window.latencyBuckets sample.bucket
    (saturatingAddU64 (window.latencyBuckets sample.bucket) 1)

/-- `record_request` -/
def WebWindow.recordRequest (sample : RequestSample) (window : WebWindow) : WebWindow :=
  { window with
    routes := window.routes.upsert sample.route (RouteWindow.record sample {})
      (RouteWindow.record sample) }

/-- `record_database_error` -/
def WebWindow.recordDatabaseError (window : WebWindow) : WebWindow :=
  { window with databaseErrors := saturatingAddU64 window.databaseErrors 1 }

/-! ## Reports -/

structure WebWindowSnapshot where
  startedUnix : Int
  endedUnix : Int
  routes : KeyedTable Route RouteWindow
  databaseErrors : Nat

/-- The fields that the records of one report share. -/
structure WindowHeader where
  finalSnapshot : Bool
  windowStartUnix : Int
  windowEndUnix : Int
  intervalSeconds : Int
  deriving DecidableEq

/-- The other fields of `web_status`. -/
structure WebStatus where
  processStartedUnix : Int
  uptimeSeconds : Int
  requestsTotal : Nat
  requests : Fin 4 → Nat
  durationCount : Nat
  durationSumMs : Nat
  activeRequests : Nat
  databaseErrors : Nat

/-- The other fields of `web_route_status`. -/
structure WebRouteStatus where
  route : Route
  requests : Fin 4 → Nat
  durationCount : Nat
  durationSumMs : Nat

/-- The other fields of `web_latency_bucket`; the bucket stands for its upper end. -/
structure WebLatencyBucket where
  bucket : Fin 11
  count : Nat
  deriving DecidableEq

/-- The records that one `emit` writes. -/
structure WebReport where
  header : WindowHeader
  status : WebStatus
  routes : List WebRouteStatus
  buckets : List WebLatencyBucket

/-- A field of the routes added up, as the loop over the values does it. -/
def sumRoutes (f : RouteWindow → Nat) (routes : KeyedTable Route RouteWindow) : Nat :=
  routes.entries.foldl (fun acc e => saturatingAddU64 acc (f e.2)) 0

/-- The rows in the order of a `BTreeMap` over the route texts. -/
def routeRows (routes : KeyedTable Route RouteWindow) : List (Σ _ : Route, RouteWindow) :=
  routes.entries.mergeSort fun a b => decide (a.1.asStr ≤ b.1.asStr)

/-- What `emit` reads beside the snapshot: its argument, the start of the process, the clock and
the gauge. -/
structure EmitContext where
  finalSnapshot : Bool
  processStartedUnix : Int
  now : Int
  activeRequests : Nat

/-- `emit` from the snapshot on. The total of the classes is an ordinary sum, which wraps. -/
def reportOf (context : EmitContext) (snapshot : WebWindowSnapshot) : WebReport where
  header :=
    { finalSnapshot := context.finalSnapshot
      windowStartUnix := snapshot.startedUnix
      windowEndUnix := snapshot.endedUnix
      intervalSeconds := clampI64 (snapshot.endedUnix - snapshot.startedUnix) }
  status :=
    let status := fun c => sumRoutes (fun window => window.status c) snapshot.routes
    { processStartedUnix := context.processStartedUnix
      uptimeSeconds := clampI64 (context.now - context.processStartedUnix)
      requestsTotal := (status 0 + status 1 + status 2 + status 3) % 2 ^ 64
      requests := status
      durationCount := sumRoutes (·.durationCount) snapshot.routes
      durationSumMs := sumRoutes (·.durationSumMs) snapshot.routes
      activeRequests := context.activeRequests
      databaseErrors := snapshot.databaseErrors }
  routes := ((routeRows snapshot.routes).filter fun e => e.2.durationCount != 0).map fun e =>
    ⟨e.1, e.2.status, e.2.durationCount, e.2.durationSumMs⟩
  buckets := ((List.finRange 11).map fun i =>
    ⟨i, sumRoutes (fun window => window.latencyBuckets i) snapshot.routes⟩).filter fun b =>
      b.count != 0

/-! ## The server -/

/-- The shared metrics, the requests in flight with whether their outcome is recorded, the snapshot
of an `emit` that has not written yet, and the reports that are written. -/
structure WebServer where
  processStartedUnix : Int
  activeRequests : Nat := 0
  window : WebWindow
  inFlight : KeyedTable Nat Bool := ∅
  emitting : Option WebWindowSnapshot := none
  reports : List WebReport := []

inductive WebEvent
  /-- `begin_active_request` for a new request. -/
  | begin (request : Nat)
  /-- `record_request` once the response is there. -/
  | record (request : Nat) (route : String) (status elapsed : Nat)
  /-- The guard is dropped, after the outcome is recorded or when the client is gone. -/
  | dropGuard (request : Nat)
  | databaseError
  /-- `snapshot_and_reset` -/
  | snapshot (now : Int)
  /-- The records of the snapshot. -/
  | write (finalSnapshot : Bool) (now : Int)

/-- One step of the server; there is one `emit` at a time. -/
def WebServer.next (s : WebServer) : WebEvent → Option WebServer
  | .begin request =>
    if (s.inFlight.lookup request).isSome then none
    else some { s with
      activeRequests := (s.activeRequests + 1) % 2 ^ 64
      inFlight := s.inFlight.insert request false }
  | .record request route status elapsed =>
    if s.inFlight.lookup request = some false then
      some { s with
        window := s.window.recordRequest (.of route status elapsed)
        inFlight := s.inFlight.insert request true }
    else none
  | .dropGuard request =>
    if (s.inFlight.lookup request).isSome then
      some { s with
        activeRequests := s.activeRequests - 1
        inFlight := s.inFlight.erase request }
    else none
  | .databaseError => some { s with window := s.window.recordDatabaseError }
  | .snapshot now =>
    if s.emitting.isSome then none
    else some { s with
      window := { startedUnix := now }
      emitting := some ⟨s.window.startedUnix, now, s.window.routes, s.window.databaseErrors⟩ }
  | .write finalSnapshot now => s.emitting.map fun snapshot =>
    let context := ⟨finalSnapshot, s.processStartedUnix, now, s.activeRequests⟩
    { s with
      emitting := none
      reports := s.reports ++ [reportOf context snapshot] }

/-- `WebMetrics::default`, which reads the clock for the process and again for the window. -/
def WebServer.started (process window : Int) : WebServer where
  processStartedUnix := process
  window := { startedUnix := window }

abbrev WebServer.Step (s : WebServer) (e : WebEvent) (t : WebServer) : Prop := s.next e = some t

end Btfind
