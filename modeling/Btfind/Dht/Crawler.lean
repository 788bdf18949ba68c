import Mathlib.Data.Finset.Basic
import Mathlib.Data.List.Destutter
import Btfind.Dht.Packets
import Btfind.Dht.RoutingRuns

/-!
# The crawler

The state of `DhtCrawler`, its handlers, and runs of its loop. What the code reads from
its surroundings comes with each event: the time that passes, the order in which a hash
map is read, the outcome of every call of `send_to` and of every `try_send`, and random
values.
-/

namespace Btfind

open Quarantine

/-! ## The routing table of a run -/

/-- A table that the operations of the crawler have built. -/
structure LiveTable where
  table : RoutingTable
  sound : ∃ depth, table.Sound depth

namespace LiveTable

def new (ourId : NodeId) (maxCandidates : Nat) : LiveTable :=
  ⟨.withCandidateCapacity ourId maxCandidates, 0, sound_new ourId maxCandidates⟩

theorem apply_isSome (t : LiveTable) (op : TableOp) : (op.apply t.table).isSome := by
  obtain ⟨depth, hsound⟩ := t.sound
  obtain ⟨t', ret, _, happly, _⟩ := apply_sound hsound op
  rw [happly]
  rfl

/-- An operation on a table that no operation makes panic. -/
def apply (op : TableOp) (t : LiveTable) : LiveTable where
  table := ((op.apply t.table).get (t.apply_isSome op)).1
  sound := by
    obtain ⟨depth, hsound⟩ := t.sound
    obtain ⟨t', ret, depth', happly, hsound', _⟩ := apply_sound hsound op
    exact ⟨depth', by simpa [happly] using hsound'⟩

end LiveTable

/-! ## State -/

structure DhtConfig where
  maxPendingRpcs : Nat
  maxDiscoveryHashes : Nat
  maxCandidateNodes : Nat
  maxPeersPerHash : Nat
  rpcTimeout : Nat
  samplingEnabled : Bool
  samplingMinRemoteInterval : Nat
  samplingRequestsPerTick : Nat
  maxSamplesPerResponse : Nat
  announcedPeerHashCapacity : Nat
  announcedPeersPerHash : Nat
  announcedPeerTtl : Nat

/-- `DhtConfig::default()` -/
def DhtConfig.default : DhtConfig where
  maxPendingRpcs := 4096
  maxDiscoveryHashes := 50000
  maxCandidateNodes := 8192
  maxPeersPerHash := 64
  rpcTimeout := fromSecs 30
  samplingEnabled := false
  samplingMinRemoteInterval := fromSecs 300
  samplingRequestsPerTick := 1
  maxSamplesPerResponse := 256
  announcedPeerHashCapacity := 10000
  announcedPeersPerHash := 64
  announcedPeerTtl := fromSecs 1800

structure CachedPeer where
  peer : PeerContact
  expiresAt : Nat

/-- The counters of the lookup queue and of the answers to `get_peers`. -/
structure LookupMetrics where
  discoveryQueueDepth : Nat
  lookupQueueAccepted : Nat
  lookupQueueDuplicate : Nat
  lookupQueueCapacityRejected : Nat
  responsesWithPeers : Nat
  responsesNodesOnly : Nat

/-- A failure that the routing table counts against a live node: the node, its address
in the table, and the call that failed. -/
structure Charge where
  id : NodeId
  addr : SocketAddrV4
  rpc : PendingRpc

/-- `rpcs` holds the calls and the clock. `outbox`, `discoveries`, `stats` and `charges`
log, newest first, the datagrams sent, what was sent on the discovery channel, the
statistics, and the failures that were counted. -/
structure DhtCrawler where
  ourId : NodeId
  tokenSecret : Bytes
  config : DhtConfig
  routing : LiveTable
  rpcs : RpcState
  discoveryQueue : List InfoHash
  discoverySet : Finset InfoHash
  provisional : KeyedTable SocketAddrV4 (NodeId × Nat)
  sampleEligibleAt : KeyedTable NodeId Nat
  peerCache : KeyedTable InfoHash (List CachedPeer)
  queriesSent : Nat
  infoHashesFound : Nat
  samplingRoundId : Nat
  metrics : LookupMetrics
  outbox : List (SocketAddrV4 × KrpcMessage)
  discoveries : List (HashDiscovery × Bool)
  stats : List CrawlStatsEvent
  charges : List Charge

/-- What the code outside this repository computes. -/
structure Externals where
  decode : Bytes → Except String BencodeValue
  sha1 : Bytes → Bytes

/-- What an event meets. A hash map is read in the order of a rank of its keys; calls of
`send_to` are numbered over the run, and so are those of `try_send`. -/
structure Surroundings where
  elapsed : Nat
  unixTime : Nat
  sends : Nat → SendAnswer
  channel : Nat → Bool
  transactionOrder : Bytes → Nat
  addressOrder : SocketAddrV4 → Nat
  hashOrder : InfoHash → Nat

/-- A quiet network: all is sent, the discovery channel has room, and hash maps are read in
the order in which they were filled. -/
def Surroundings.quiet (elapsed : Nat) : Surroundings where
  elapsed := elapsed
  unixTime := 0
  sends _ := ⟨0, true⟩
  channel _ := true
  transactionOrder _ := 0
  addressOrder _ := 0
  hashOrder _ := 0

/-- A list in the order of a rank. -/
def orderBy {α : Type} (rank : α → Nat) (l : List α) : List α :=
  let before (a b : α) : Prop := rank a ≤ rank b
  have : DecidableRel before := fun _ _ => inferInstanceAs (Decidable (_ ≤ _))
  l.insertionSort before

theorem perm_orderBy {α : Type} (rank : α → Nat) (l : List α) : (orderBy rank l).Perm l :=
  List.perm_insertionSort _ l

theorem pairwise_orderBy {α : Type} (rank : α → Nat) (l : List α) :
    (orderBy rank l).Pairwise fun a b => rank a ≤ rank b := by
  let before (a b : α) : Prop := rank a ≤ rank b
  have htotal : Std.Total before := ⟨fun a b => le_total (rank a) (rank b)⟩
  have htrans : IsTrans α before := ⟨fun _ _ _ h h' => le_trans h h'⟩
  exact List.pairwise_insertionSort before l

def maxPacketSize : Nat := 8192

def lookupFanout : Nat := 8

def lookupContinuationFanout : Nat := 4

namespace DhtCrawler

def withConfig (ourId : NodeId) (tokenSecret : Bytes) (config : DhtConfig) (clock : Nat)
    (nextTx : BitVec 16) : DhtCrawler where
  ourId := ourId
  tokenSecret := tokenSecret
  config := config
  routing := .new ourId config.maxCandidateNodes
  rpcs := .new clock nextTx
  discoveryQueue := []
  discoverySet := ∅
  provisional := ∅
  sampleEligibleAt := ∅
  peerCache := ∅
  queriesSent := 0
  infoHashesFound := 0
  samplingRoundId := 0
  metrics := ⟨0, 0, 0, 0, 0, 0⟩
  outbox := []
  discoveries := []
  stats := []
  charges := []

def now (c : DhtCrawler) : Nat := c.rpcs.pool.clock

def emitStat (event : CrawlStatsEvent) (c : DhtCrawler) : DhtCrawler :=
  { c with stats := event :: c.stats }

/-! ## Calls -/

def sendRpc (w : Surroundings) (request : RpcRequest) (c : DhtCrawler) : DhtCrawler :=
  match c.rpcs.sendRpc c.config.maxPendingRpcs c.config.rpcTimeout w.sends request with
  -- `allocate_transaction` found no id
  | (.noTransaction, rpcs) => { c with rpcs := rpcs }.emitStat .discoveryBackpressure
  -- `send_to` failed
  | (.failed, rpcs) => { c with rpcs := rpcs }
  | (.sent tx, rpcs) =>
    { c with
      rpcs := rpcs
      queriesSent := c.queriesSent + 1
      outbox :=
        (request.expectedAddr, queryMessage request.method c.ourId request.target tx) :: c.outbox }

/-- `resolved` holds the addresses to which the bootstrap hosts resolve. -/
def bootstrap (w : Surroundings) (resolved : List SocketAddrV4) (c : DhtCrawler) : DhtCrawler :=
  resolved.foldl (fun c addr =>
    { c with rpcs := { c.rpcs with roots := c.rpcs.roots + 1 } }.sendRpc w
      ⟨addr, none, .findNode, c.ourId, none, false, 2, none, some c.rpcs.roots⟩) c

/-! ## Discoveries -/

inductive QueueAdmission
  | accepted
  | duplicate
  | capacityRejected
  | invalid
  deriving DecidableEq

def queueHash (hash : InfoHash) (c : DhtCrawler) : QueueAdmission × DhtCrawler :=
  if hash = 0 then (.invalid, c)
  else if hash ∈ c.discoverySet then
    (.duplicate, { c with
      metrics := { c.metrics with lookupQueueDuplicate := c.metrics.lookupQueueDuplicate + 1 } })
  else if c.config.maxDiscoveryHashes ≤ c.discoveryQueue.length then
    (.capacityRejected, { c with metrics := { c.metrics with
      lookupQueueCapacityRejected := c.metrics.lookupQueueCapacityRejected + 1 } })
  else
    (.accepted, { c with
      discoveryQueue := c.discoveryQueue ++ [hash]
      discoverySet := insert hash c.discoverySet
      metrics := { c.metrics with
        discoveryQueueDepth := c.discoveryQueue.length + 1
        lookupQueueAccepted := c.metrics.lookupQueueAccepted + 1 } })

/-- `try_send` on the discovery channel, and the statistics about it. -/
def enqueueDiscovery (w : Surroundings) (discovery : HashDiscovery) (c : DhtCrawler) : DhtCrawler :=
  let accepted := w.channel c.discoveries.length
  let c := { c with discoveries := (discovery, accepted) :: c.discoveries }.emitStat
    (.hashObserved discovery.infoHash discovery.source (!discovery.peers.isEmpty) accepted
      discovery.peers.length)
  if accepted then c else c.emitStat .discoveryBackpressure

/-- The order of addresses: by the octets, then by the port. -/
def addrRank (addr : SocketAddrV4) : Nat := ofBeBytes addr.ip.octets * 65536 + addr.port.toNat

/-- Sorted by address, without repetitions, and cut to a length. -/
def preparePeers (limit : Nat) (peers : List PeerContact) : List PeerContact :=
  ((orderBy (fun peer : PeerContact => addrRank peer.addr) peers).destutter (· ≠ ·)).take limit

def publishDiscovery (w : Surroundings) (infoHash : InfoHash) (peers : List PeerContact)
    (source : DiscoverySource) (c : DhtCrawler) : DhtCrawler :=
  -- `record_hash_observation`
  if infoHash = 0 then c
  else
    let c := { c with infoHashesFound := min (c.infoHashesFound + 1) (2 ^ 64 - 1) }
    (c.queueHash infoHash).2.enqueueDiscovery w
      ⟨infoHash, preparePeers c.config.maxPeersPerHash peers, source⟩

def seedInfoHashes (w : Surroundings) (hashes : List InfoHash) (c : DhtCrawler) : DhtCrawler :=
  hashes.foldl (fun c hash =>
    let (admission, c) := c.queueHash hash
    if admission = .accepted then c.enqueueDiscovery w ⟨hash, [], .resume⟩ else c) c

def seedNodes (nodes : List NodeContact) (c : DhtCrawler) : DhtCrawler :=
  nodes.foldl (fun c node => { c with routing := c.routing.apply (.addNode node.id node.addr) }) c

/-! ## The cache of announced peers -/

def expirePeerCache (c : DhtCrawler) : DhtCrawler :=
  let live (peers : List CachedPeer) : List CachedPeer :=
    peers.filter fun peer => c.now < peer.expiresAt
  { c with peerCache := (c.peerCache.mapRows live).keep fun _ peers => !peers.isEmpty }

def cachePeer (w : Surroundings) (hash : InfoHash) (peer : PeerContact) (c : DhtCrawler) :
    DhtCrawler :=
  if c.config.announcedPeerHashCapacity = 0 ∨ c.config.announcedPeersPerHash = 0 then c
  else
    let cache :=
      if (c.peerCache.lookup hash).isNone ∧
          c.config.announcedPeerHashCapacity ≤ c.peerCache.count then
        match (orderBy w.hashOrder c.peerCache.keys).head? with
        | some oldest => c.peerCache.erase oldest
        | none => c.peerCache
      else c.peerCache
    let peers := ((cache.lookup hash).getD []).filter fun cached => cached.peer ≠ peer
    let peers := if c.config.announcedPeersPerHash ≤ peers.length then peers.tail else peers
    { c with peerCache :=
      cache.insert hash (peers ++ [⟨peer, c.now + c.config.announcedPeerTtl⟩]) }

/-! ## Failures -/

/-- `if let Some(node_id) = pending.expected_node_id { self.routing.record_failure(..) }` -/
def chargeFailure (rpc : PendingRpc) (c : DhtCrawler) : DhtCrawler :=
  match rpc.expectedNodeId with
  | none => c
  | some id =>
    { c with
      routing := c.routing.apply (.recordFailure id)
      charges :=
        match c.routing.table.live id with
        | some record => ⟨id, record.contact.addr, rpc⟩ :: c.charges
        | none => c.charges }

/-- Remove a call, and retire its transaction. -/
def resolveRpc (transaction : Bytes) (rpc : PendingRpc) (outcome : RpcOutcome) (c : DhtCrawler) :
    DhtCrawler :=
  { c with rpcs := { c.rpcs with
    pool := c.rpcs.pool.resolve c.config.rpcTimeout transaction rpc outcome } }

def updateLookups (f : RealLookupTracker → RealLookupTracker) (c : DhtCrawler) : DhtCrawler :=
  { c with rpcs := { c.rpcs with lookups := f c.rpcs.lookups } }

/-- The hash of a real lookup that got no answer is queued again. -/
def requeue (rpc : PendingRpc) (c : DhtCrawler) : DhtCrawler :=
  match rpc.isRealLookup, rpc.infoHash with
  | true, some hash => (c.queueHash hash).2
  | _, _ => c

/-- The body of the loop of `expire_pending`. -/
def expireOne (c : DhtCrawler) (transaction : Bytes) : DhtCrawler :=
  match c.rpcs.pool.pending.lookup transaction with
  | none => c
  | some rpc =>
    let c := ((c.resolveRpc transaction rpc .timedOut).chargeFailure rpc).requeue rpc
    let c := rpc.lookupId.elim c fun id => c.updateLookups (.timeout id)
    c.emitStat .rpcTimedOut

/-- The keys of the calls that are overdue. -/
def overdue (c : DhtCrawler) : List Bytes :=
  (c.rpcs.pool.pending.entries.filter fun e => e.2.deadline ≤ c.now).map Sigma.fst

def expirePending (w : Surroundings) (c : DhtCrawler) : DhtCrawler :=
  let c := { c with rpcs := { c.rpcs with pool := c.rpcs.pool.sweep } }
  (orderBy w.transactionOrder c.overdue).foldl expireOne c

/-! ## Queries -/

def getPeersResponse (x : Externals) (w : Surroundings) (args : KrpcMap) (transaction : Bytes)
    (source : SocketAddrV4) (c : DhtCrawler) : KrpcMessage × DhtCrawler :=
  match fieldId args "info_hash" with
  | none => (errorMessage transaction "invalid info_hash", c)
  | some infoHash =>
    let c := (c.publishDiscovery w infoHash [] .inboundGetPeers).expirePeerCache
    let token := makeToken x.sha1 c.tokenSecret source.ip w.unixTime
    let field : String × KrpcValue :=
      match c.peerCache.lookup infoHash with
      | some peers =>
        ("values", .list (peers.map fun cached => .bytes (encodeCompactPeer cached.peer)))
      | none =>
        ("nodes", .bytes (encodeCompactNodes (c.routing.table.closestNodes infoHash 8)))
    (responseMessage c.ourId transaction
      (SortedMap.insert id field.1 field.2 [("token", .bytes token)]), c)

/-- The port that an `announce_peer` query announces. -/
def announcedPort (args : KrpcMap) (source : SocketAddrV4) : Option UInt16 :=
  let implied : Bool :=
    match args.get "implied_port" with
    | some (.int i) => i ≠ 0
    | _ => false
  if implied then some source.port
  else
    match args.get "port" with
    | some (.int port) => if 1 ≤ port ∧ port ≤ 65535 then some (UInt16.ofNat port.toNat) else none
    | _ => none

def hasValidToken (x : Externals) (w : Surroundings) (args : KrpcMap) (source : SocketAddrV4)
    (c : DhtCrawler) : Bool :=
  match args.get "token" with
  | some (.bytes token) => validateToken x.sha1 c.tokenSecret source.ip w.unixTime token
  | _ => false

def announcePeerResponse (x : Externals) (w : Surroundings) (args : KrpcMap) (transaction : Bytes)
    (source : SocketAddrV4) (c : DhtCrawler) : KrpcMessage × DhtCrawler :=
  match fieldId args "info_hash" with
  | none => (errorMessage transaction "invalid info_hash", c)
  | some infoHash =>
    if !c.hasValidToken x w args source then (errorMessage transaction "invalid token", c)
    else
      match announcedPort args source with
      | none => (errorMessage transaction "invalid port", c)
      | some port =>
        let peer : PeerContact := ⟨⟨source.ip, port⟩⟩
        let c := (c.cachePeer w infoHash peer).publishDiscovery w infoHash [peer] .announcePeer
        (responseMessage c.ourId transaction [], c)

/-- Remember the node of a query, in place of the oldest one if there are too many. -/
def noteProvisional (w : Surroundings) (id : NodeId) (source : SocketAddrV4) (c : DhtCrawler) :
    DhtCrawler :=
  let provisional :=
    if c.config.maxCandidateNodes ≤ c.provisional.count then
      let entries := orderBy (fun e : Σ _ : SocketAddrV4, NodeId × Nat => w.addressOrder e.1)
        c.provisional.entries
      match (orderBy (fun e : Σ _ : SocketAddrV4, NodeId × Nat => e.2.2) entries).head? with
      | some oldest => c.provisional.erase oldest.1
      | none => c.provisional
    else c.provisional
  { c with provisional := provisional.insert source (id, c.now) }

/-- The answer to a query. -/
def answerQuery (x : Externals) (w : Surroundings) (t : Bytes) (q : String) (a : KrpcMap)
    (source : SocketAddrV4) (c : DhtCrawler) : KrpcMessage × DhtCrawler :=
  let closest (c : DhtCrawler) : Bytes :=
    encodeCompactNodes (c.routing.table.closestNodes ((fieldId a "target").getD c.ourId) 8)
  if q = "ping" then (responseMessage c.ourId t [], c)
  else if q = "find_node" then (responseMessage c.ourId t [("nodes", .bytes (closest c))], c)
  else if q = "get_peers" then c.getPeersResponse x w a t source
  else if q = "announce_peer" then c.announcePeerResponse x w a t source
  else if q = "sample_infohashes" then
    (responseMessage c.ourId t [("interval", .int 300), ("nodes", .bytes (closest c)),
      ("num", .int 0), ("samples", .bytes [])], c)
  else (errorMessage t "unknown query", c)

def handleQuery (x : Externals) (w : Surroundings) (message : KrpcMessage) (source : SocketAddrV4)
    (c : DhtCrawler) : DhtCrawler :=
  if !isPublicEndpoint source then c
  else
    match message with
    | .query t _ q a _ =>
      let c := message.extractNodeId.elim c fun id => c.noteProvisional w id source
      let (response, c) := c.answerQuery x w t q a source
      { c with outbox := (source, response) :: c.outbox }
    | _ => c

/-! ## Responses and errors -/

/-- `Result<(PendingRpc, NodeId), CorrelationError>`. A malformed response comes with the
call that it ends. -/
inductive Correlation
  | unsolicited
  | unexpectedSource
  | malformed (pending : PendingRpc)
  | accepted (pending : PendingRpc) (responseId : NodeId)

/-- The call is removed by `resolveRpc`, when the response is malformed or accepted. -/
def correlateResponse (pendingRpcs : KeyedTable Bytes PendingRpc) (message : KrpcMessage)
    (source : SocketAddrV4) : Correlation :=
  match pendingRpcs.lookup message.transactionId with
  | none => .unsolicited
  | some pending =>
    if pending.expectedAddr ≠ source then .unexpectedSource
    else
      match message.extractNodeId with
      | none => .malformed pending
      | some responseId =>
        if (pending.expectedNodeId.any fun expected => expected ≠ responseId) ||
            !message.responseHasShape pending.method then
          .malformed pending
        else .accepted pending responseId

def admitCandidates (nodes : List NodeContact) (c : DhtCrawler) : DhtCrawler :=
  (nodes.take c.config.maxCandidateNodes).foldl (fun c node =>
    { c with routing := c.routing.apply (.addCandidate node) }) c

def continueFindNode (w : Surroundings) (nodes : List NodeContact) (pending : PendingRpc)
    (c : DhtCrawler) : DhtCrawler :=
  if pending.continuationBudget = 0 then c
  else
    (nodes.take lookupContinuationFanout).foldl (fun c node => c.sendRpc w
      ⟨node.addr, some node.id, .findNode, pending.target, none, false,
        pending.continuationBudget - 1, none, pending.root⟩) c

def continueGetPeers (w : Surroundings) (hash : InfoHash) (nodes : List NodeContact)
    (pending : PendingRpc) (c : DhtCrawler) : DhtCrawler :=
  if pending.continuationBudget = 0 then c
  else
    (nodes.take lookupContinuationFanout).foldl (fun c node => c.sendRpc w
      ⟨node.addr, some node.id, .getPeers, hash, some hash, pending.isRealLookup,
        pending.continuationBudget - 1, pending.lookupId, none⟩) c

def recordGetPeersResponse (hasPeers : Bool) (c : DhtCrawler) : DhtCrawler :=
  { c with metrics :=
    if hasPeers then { c.metrics with responsesWithPeers := c.metrics.responsesWithPeers + 1 }
    else { c.metrics with responsesNodesOnly := c.metrics.responsesNodesOnly + 1 } }

/-- Cache and publish the peers of a response. -/
def gatherPeers (w : Surroundings) (hash : InfoHash) (peers : List PeerContact)
    (isRealLookup : Bool) (c : DhtCrawler) : DhtCrawler :=
  let c := peers.foldl (fun c peer => c.cachePeer w hash peer) c
  if !peers.isEmpty || isRealLookup then c.publishDiscovery w hash peers .outboundGetPeers else c

/-- What a response to `get_peers` leads to, when the call was for a hash. -/
def followGetPeers (w : Surroundings) (message : KrpcMessage) (pending : PendingRpc)
    (c : DhtCrawler) : DhtCrawler :=
  let (peers, nodes) := message.parseGetPeersResponse
  match pending.infoHash with
  | none => c
  | some hash =>
    (c.gatherPeers w hash peers pending.isRealLookup).continueGetPeers w hash nodes pending

/-- The branch of `handle_response` for `get_peers`. -/
def answerGetPeers (w : Surroundings) (message : KrpcMessage) (pending : PendingRpc)
    (c : DhtCrawler) : DhtCrawler :=
  let (peers, nodes) := message.parseGetPeersResponse
  let hasPeers := !peers.isEmpty
  let c := ((c.recordGetPeersResponse hasPeers).admitCandidates nodes).followGetPeers w message
    pending
  pending.lookupId.elim c fun id => c.updateLookups (.respond id hasPeers)

/-- `self.sample_eligible_at.insert(..)` -/
def allowSampling (id : NodeId) (eligibleAt : Nat) (c : DhtCrawler) : DhtCrawler :=
  { c with sampleEligibleAt := c.sampleEligibleAt.insert id eligibleAt }

/-- The branch of `handle_response` for `sample_infohashes`. -/
def answerSample (w : Surroundings) (message : KrpcMessage) (source : SocketAddrV4)
    (c : DhtCrawler) : DhtCrawler :=
  match parseSampleInfohashesResponse message c.config.maxSamplesPerResponse with
  | .error _ => c.emitStat .rpcMalformed
  | .ok response =>
    let interval := max response.interval c.config.samplingMinRemoteInterval
    let c := (c.allowSampling response.nodeId (c.now + interval)).admitCandidates response.nodes
    let c := response.samples.foldl (fun c hash =>
      (c.publishDiscovery w hash [] .sampleInfohashes).emitStat
        (.sampleObserved hash response.nodeId source c.samplingRoundId)) c
    c.emitStat (.samplingResponse response.samples.length)

/-- `handle_response` after the response is correlated. -/
def acceptResponse (w : Surroundings) (message : KrpcMessage) (source : SocketAddrV4)
    (pending : PendingRpc) (responseId : NodeId) (c : DhtCrawler) : DhtCrawler :=
  let c := { c with
    routing := c.routing.apply (.markValidated responseId source)
    provisional := c.provisional.erase source }
  let c := (c.emitStat (.dhtNodeSeen responseId source)).emitStat .rpcAnswered
  match pending.method with
  | .ping => c
  | .findNode =>
    let nodes := message.responseNodes
    (c.admitCandidates nodes).continueFindNode w nodes pending
  | .getPeers => c.answerGetPeers w message pending
  | .sampleInfohashes => c.answerSample w message source

def handleResponse (w : Surroundings) (message : KrpcMessage) (source : SocketAddrV4)
    (c : DhtCrawler) : DhtCrawler :=
  match correlateResponse c.rpcs.pool.pending message source with
  | .unsolicited => c.emitStat .rpcUnsolicited
  | .unexpectedSource => c.emitStat .rpcUnexpectedSource
  | .malformed pending =>
    let c := (c.resolveRpc message.transactionId pending .malformed).emitStat .rpcMalformed
    pending.lookupId.elim c fun id => c.updateLookups (.failure id)
  | .accepted pending responseId =>
    (c.resolveRpc message.transactionId pending (.answered message)).acceptResponse w message
      source pending responseId

def handleError (message : KrpcMessage) (source : SocketAddrV4) (c : DhtCrawler) : DhtCrawler :=
  match c.rpcs.pool.pending.lookup message.transactionId with
  | none => c.emitStat .rpcUnsolicited
  | some pending =>
    if pending.expectedAddr ≠ source then c.emitStat .rpcUnexpectedSource
    else
      let c := (c.resolveRpc message.transactionId pending .failed).chargeFailure pending
      let c := pending.lookupId.elim c fun id => c.updateLookups (.failure id)
      c.emitStat .rpcAnswered

def handlePacket (x : Externals) (w : Surroundings) (data : Bytes) (source : SocketAddrV4)
    (c : DhtCrawler) : DhtCrawler :=
  match KrpcMessage.fromBytes x.decode data with
  | .error _ => c.emitStat .rpcMalformed
  | .ok message =>
    match message with
    | .query .. => c.handleQuery x w message source
    | .response .. => c.handleResponse w message source
    | .error .. => c.handleError message source

/-! ## Ticks -/

/-- The nodes that a lookup asks first: live ones, then candidates. -/
def lookupNodes (hash : InfoHash) (c : DhtCrawler) : List NodeContact :=
  let nodes := c.routing.table.closestNodes hash lookupFanout
  if nodes.length < lookupFanout then
    nodes ++ c.routing.table.closestCandidates hash (lookupFanout - nodes.length)
  else nodes

/-- The calls of `discover_peers`. -/
def askNodes (w : Surroundings) (hash : InfoHash) (real : Bool) (lookupId : Option (BitVec 64))
    (nodes : List NodeContact) (c : DhtCrawler) : DhtCrawler :=
  nodes.foldl (fun c node => c.sendRpc w
    ⟨node.addr, some node.id, .getPeers, hash, some hash, real, 2, lookupId, none⟩) c

/-- Take the next hash from the queue. -/
def popHash (c : DhtCrawler) : Option InfoHash × DhtCrawler :=
  match c.discoveryQueue with
  | [] => (none, { c with metrics := { c.metrics with discoveryQueueDepth := 0 } })
  | hash :: queue =>
    (some hash, { c with
      discoveryQueue := queue
      discoverySet := c.discoverySet.erase hash
      metrics := { c.metrics with discoveryQueueDepth := queue.length } })

/-- The part of `discover_peers` that asks the nodes. -/
def lookupHash (w : Surroundings) (hash : InfoHash) (real : Bool) (nodes : List NodeContact)
    (c : DhtCrawler) : DhtCrawler :=
  if real then
    let id := c.rpcs.lookups.begin.1
    let c := c.updateLookups fun lookups => lookups.begin.2
    (c.askNodes w hash real (some id) nodes).updateLookups (.started id)
  else c.askNodes w hash real none nodes

/-- `random` is the hash to look up when none is queued. -/
def discoverPeers (w : Surroundings) (random : InfoHash) (resolved : List SocketAddrV4)
    (c : DhtCrawler) : DhtCrawler :=
  let (popped, c) := (c.expirePending w).popHash
  let hash := popped.getD random
  let nodes := c.lookupNodes hash
  if nodes.isEmpty then
    let c := popped.elim c fun hash => (c.queueHash hash).2
    c.bootstrap w resolved
  else c.lookupHash w hash popped.isSome nodes

/-- `random_nodes`: any choice of live nodes, in any order. -/
def randomNodes (order : NodeContact → Nat) (count : Nat) (c : DhtCrawler) : List NodeContact :=
  (orderBy order c.routing.table.liveContacts).take count

def canSample (c : DhtCrawler) (node : NodeContact) : Bool :=
  match c.sampleEligibleAt.lookup node.id with
  | some eligibleAt => eligibleAt ≤ c.now
  | none => true

/-- `targets` are the random targets of the calls. -/
def sampleRandomNodes (w : Surroundings) (order : NodeContact → Nat) (targets : NodeContact → NodeId)
    (c : DhtCrawler) : DhtCrawler :=
  let c := { c with samplingRoundId := (c.samplingRoundId + 1) % 2 ^ 64 }
  let now := c.now
  let sampled := c.randomNodes order (c.config.samplingRequestsPerTick * 4)
  let nodes := (sampled.filter c.canSample).take c.config.samplingRequestsPerTick
  nodes.foldl (fun c node =>
    (c.allowSampling node.id (now + c.config.samplingMinRemoteInterval)).sendRpc w
      ⟨node.addr, some node.id, .sampleInfohashes, targets node, none, false, 0, none, none⟩) c

/-! ## Runs -/

/-- The calls that `main` makes before the loop, and the branches of the loop. -/
inductive Event
  | seedInfoHashes (hashes : List InfoHash)
  | seedNodes (nodes : List NodeContact)
  | bootstrap (resolved : List SocketAddrV4)
  | packet (data : Bytes) (source : SocketAddrV4)
  | discoveryTick (random : InfoHash) (resolved : List SocketAddrV4)
  | samplingTick (order : NodeContact → Nat) (targets : NodeContact → NodeId)
  | refreshTick
  | statsTick

/-- An event on its way: the clock has moved. -/
def handle (x : Externals) (w : Surroundings) (c : DhtCrawler) : Event → DhtCrawler
  | .seedInfoHashes hashes => c.seedInfoHashes w hashes
  | .seedNodes nodes => c.seedNodes nodes
  | .bootstrap resolved => c.bootstrap w resolved
  | .packet data source =>
    -- the buffer of `recv_from` holds no more
    if data.isEmpty then c else c.handlePacket x w (data.take maxPacketSize) source
  | .discoveryTick random resolved => c.discoverPeers w random resolved
  | .samplingTick order targets =>
    if c.config.samplingEnabled then c.sampleRandomNodes w order targets else c
  | .refreshTick => (c.expirePending w).expirePeerCache
  | .statsTick =>
    c.emitStat (.dhtSnapshot c.routing.table.nodeCount c.queriesSent c.infoHashesFound)

def wait (elapsed : Nat) (c : DhtCrawler) : DhtCrawler :=
  { c with rpcs := { c.rpcs with pool := c.rpcs.pool.advance elapsed } }

/-- An event and what it meets. -/
abbrev Turn := Surroundings × Event

def step (x : Externals) (c : DhtCrawler) (turn : Turn) : DhtCrawler :=
  (c.wait turn.1.elapsed).handle x turn.1 turn.2

def run (x : Externals) (c : DhtCrawler) (turns : List Turn) : DhtCrawler :=
  turns.foldl (step x) c

end DhtCrawler

end Btfind
