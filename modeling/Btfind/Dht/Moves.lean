import Btfind.Dht.RpcSteps

/-!
# What an event does to what others see

The discovery queue, the cache of peers, the table of the sampling pauses, the counters and
what is sent to the network, to the downloader and to the statistics. Here is all that a part
of an event can do to them, one constructor for each way.
-/

namespace Btfind

open Quarantine

/-- The counters of the lookups have not gone down. -/
structure LookupMetrics.Grown (m m' : LookupMetrics) : Prop where
  accepted : m.lookupQueueAccepted ≤ m'.lookupQueueAccepted
  duplicate : m.lookupQueueDuplicate ≤ m'.lookupQueueDuplicate
  capacityRejected : m.lookupQueueCapacityRejected ≤ m'.lookupQueueCapacityRejected
  withPeers : m.responsesWithPeers ≤ m'.responsesWithPeers
  nodesOnly : m.responsesNodesOnly ≤ m'.responsesNodesOnly

theorem LookupMetrics.Grown.refl (m : LookupMetrics) : m.Grown m :=
  ⟨le_refl _, le_refl _, le_refl _, le_refl _, le_refl _⟩

theorem LookupMetrics.Grown.trans {m m' m'' : LookupMetrics} (h : m.Grown m') (h' : m'.Grown m'') :
    m.Grown m'' :=
  ⟨h.accepted.trans h'.accepted, h.duplicate.trans h'.duplicate,
    h.capacityRejected.trans h'.capacityRejected, h.withPeers.trans h'.withPeers,
    h.nodesOnly.trans h'.nodesOnly⟩

/-- Neither a snapshot nor an observation of a hash. -/
def CrawlStatsEvent.isPlain : CrawlStatsEvent → Bool
  | .dhtSnapshot .. | .sampleObserved .. | .hashObserved .. => false
  | _ => true

namespace DhtCrawler

variable {c c' c'' : DhtCrawler} {w : Surroundings} {x : Externals}

/-- The calls that were sent, newest first. -/
def sentCalls (c : DhtCrawler) : List PendingRpc := c.rpcs.pool.history.filterMap Action.request?

/-- Only the calls, the routing table and the counters of the lookups have changed, and no
call was sent. -/
structure Quiet (c c' : DhtCrawler) : Prop where
  same : c' = { c with
    routing := c'.routing
    rpcs := c'.rpcs
    provisional := c'.provisional
    samplingRoundId := c'.samplingRoundId
    metrics := c'.metrics
    charges := c'.charges }
  metrics : c.metrics.Grown c'.metrics
  sentCalls : c'.sentCalls = c.sentCalls

theorem Quiet.refl (c : DhtCrawler) : Quiet c c := ⟨rfl, .refl _, rfl⟩

theorem Quiet.trans (h : Quiet c c') (h' : Quiet c' c'') : Quiet c c'' := by
  refine ⟨h'.same.trans ?_, h.metrics.trans h'.metrics, h'.sentCalls.trans h.sentCalls⟩
  rw [h.same]

/-- What does not look at the calls, the routing table and the lookups is as before. -/
theorem Quiet.keeps {α : Type} (h : Quiet c c') (f : DhtCrawler → α)
    (hf : f { c with
      routing := c'.routing
      rpcs := c'.rpcs
      provisional := c'.provisional
      samplingRoundId := c'.samplingRoundId
      metrics := c'.metrics
      charges := c'.charges } = f c) : f c' = f c :=
  (congrArg f h.same).trans hf

theorem Quiet.foldl {α : Type} {f : DhtCrawler → α → DhtCrawler} (hf : ∀ c a, Quiet c (f c a))
    (l : List α) (c : DhtCrawler) : Quiet c (l.foldl f c) := by
  induction l generalizing c with
  | nil => exact .refl c
  | cons a l ih => exact (hf c a).trans (ih (f c a))

/-- A peer that announced itself, with a token that is valid for its address. -/
structure Announced (x : Externals) (secret : Bytes) (turn : Turn) (peer : PeerContact) : Prop where
  packet : ∃ data source t y a extra, turn.2 = .packet data source ∧
    KrpcMessage.fromBytes x.decode (data.take maxPacketSize) =
      .ok (.query t y "announce_peer" a extra) ∧
    (∃ token, a.get "token" = some (.bytes token) ∧
      validateToken x.sha1 secret source.ip turn.1.unixTime token = true) ∧
    peer.addr.ip = source.ip
  endpoint : isPublicEndpoint peer.addr = true

/-- The peers and the source with which a hash is published. -/
inductive Published (x : Externals) (secret : Bytes) (turn : Turn) :
    List PeerContact → DiscoverySource → Prop
  | peerless {source : DiscoverySource} (announce : source ≠ .announcePeer)
      (resume : source ≠ .resume) : Published x secret turn [] source
  | answered {peers : List PeerContact} (endpoints : ∀ peer ∈ peers, isPublicEndpoint peer.addr) :
      Published x secret turn peers .outboundGetPeers
  | announced {peer : PeerContact} (announced : Announced x secret turn peer) :
      Published x secret turn [peer] .announcePeer

/-- The body of the loop of `seed_info_hashes`. -/
def resumeHash (w : Surroundings) (hash : InfoHash) (c : DhtCrawler) : DhtCrawler :=
  if (c.queueHash hash).1 = .accepted then
    (c.queueHash hash).2.enqueueDiscovery w ⟨hash, [], .resume⟩
  else (c.queueHash hash).2

/-- What a part of an event does. The samples are those of the response that the event
brings. -/
inductive Move (x : Externals) (turn : Turn) (samples : List InfoHash) (c : DhtCrawler) :
    DhtCrawler → Prop
  | quiet {c' : DhtCrawler} (quiet : Quiet c c') : Move x turn samples c c'
  | stat {event : CrawlStatsEvent} (plain : event.isPlain = true) :
      Move x turn samples c (c.emitStat event)
  | snapshot (nodesKnown : Nat) (tick : turn.2 = .statsTick) : Move x turn samples c
      (c.emitStat (.dhtSnapshot nodesKnown c.queriesSent c.infoHashesFound))
  | sampled {hash : InfoHash} (id : NodeId) (addr : SocketAddrV4) (round : Nat)
      (sampled : hash ∈ samples) :
      Move x turn samples c (c.emitStat (.sampleObserved hash id addr round))
  | call {request : RpcRequest} (method : request.method ≠ .sampleInfohashes) :
      Move x turn samples c (c.sendRpc turn.1 request)
  | reply (source : SocketAddrV4) (response : KrpcMessage) :
      Move x turn samples c { c with outbox := (source, response) :: c.outbox }
  | queued (hash : InfoHash) : Move x turn samples c (c.queueHash hash).2
  | popped : Move x turn samples c c.popHash.2
  | resumed {hashes : List InfoHash} (hash : InfoHash) (seed : turn.2 = .seedInfoHashes hashes) :
      Move x turn samples c (c.resumeHash turn.1 hash)
  | published (hash : InfoHash) {peers : List PeerContact} {source : DiscoverySource}
      (published : Published x c.tokenSecret turn peers source) :
      Move x turn samples c (c.publishDiscovery turn.1 hash peers source)
  | cached (hash : InfoHash) {peer : PeerContact} (endpoint : isPublicEndpoint peer.addr = true) :
      Move x turn samples c (c.cachePeer turn.1 hash peer)
  | expired : Move x turn samples c c.expirePeerCache

/-- What an event does, part by part. -/
abbrev Moves (x : Externals) (turn : Turn) (samples : List InfoHash) :
    DhtCrawler → DhtCrawler → Prop :=
  Relation.ReflTransGen (Move x turn samples)

variable {turn : Turn} {samples : List InfoHash}

theorem Quiet.moves (h : Quiet c c') : Moves x turn samples c c' := .single (.quiet h)

theorem Move.moves (h : Move x turn samples c c') : Moves x turn samples c c' := .single h

theorem Moves.foldl {α : Type} {f : DhtCrawler → α → DhtCrawler} {l : List α}
    (hf : ∀ a ∈ l, ∀ c, Moves x turn samples c (f c a)) (c : DhtCrawler) :
    Moves x turn samples c (l.foldl f c) := by
  induction l generalizing c with
  | nil => exact .refl
  | cons a l ih =>
    exact (hf a List.mem_cons_self c).trans
      (ih (fun b hb => hf b (List.mem_cons_of_mem _ hb)) (f c a))

/-- What every part of an event keeps, all of them keep. -/
theorem Moves.invariant {I : DhtCrawler → Prop} (h : Moves x turn samples c c')
    (hmove : ∀ c c', I c → Move x turn samples c c' → I c') (hc : I c) : I c' := by
  induction h with
  | refl => exact hc
  | tail _ hlast ih => exact hmove _ _ ih hlast

/-! ## Calls -/

theorem moves_bootstrap (w : Surroundings) (event : Event) (resolved : List SocketAddrV4)
    (c : DhtCrawler) : Moves x (w, event) samples c (c.bootstrap w resolved) := by
  refine Moves.foldl (fun addr _ c => ?_) c
  have hroots : Quiet c { c with rpcs := { c.rpcs with roots := c.rpcs.roots + 1 } } :=
    ⟨rfl, .refl _, rfl⟩
  exact hroots.moves.tail (.call (by rintro ⟨⟩))

theorem moves_call_foldl (w : Surroundings) (event : Event) {q : NodeContact → RpcRequest}
    (hmethod : ∀ node, (q node).method ≠ .sampleInfohashes) (nodes : List NodeContact)
    (c : DhtCrawler) :
    Moves x (w, event) samples c (nodes.foldl (fun c node => c.sendRpc w (q node)) c) :=
  Moves.foldl (fun node _ _ => .single (.call (hmethod node))) c

theorem quiet_resolveRpc (transaction : Bytes) (rpc : PendingRpc) (outcome : RpcOutcome)
    (c : DhtCrawler) : Quiet c (c.resolveRpc transaction rpc outcome) := ⟨rfl, .refl _, rfl⟩

theorem quiet_chargeFailure (rpc : PendingRpc) (c : DhtCrawler) :
    Quiet c (c.chargeFailure rpc) := by
  rw [chargeFailure]
  split
  · exact .refl c
  · exact ⟨rfl, .refl _, rfl⟩

theorem quiet_updateLookups (f : RealLookupTracker → RealLookupTracker) (c : DhtCrawler) :
    Quiet c (c.updateLookups f) := ⟨rfl, .refl _, rfl⟩

theorem quiet_updateLookups_elim (lookupId : Option (BitVec 64))
    (f : BitVec 64 → RealLookupTracker → RealLookupTracker) (c : DhtCrawler) :
    Quiet c (lookupId.elim c fun id => c.updateLookups (f id)) := by
  cases lookupId with
  | none => exact .refl c
  | some id => exact quiet_updateLookups (f id) c

theorem quiet_admitCandidates (nodes : List NodeContact) (c : DhtCrawler) :
    Quiet c (c.admitCandidates nodes) := by
  refine Quiet.foldl (fun c node => ?_) _ c
  exact ⟨rfl, .refl _, rfl⟩

theorem quiet_seedNodes (nodes : List NodeContact) (c : DhtCrawler) :
    Quiet c (c.seedNodes nodes) := by
  refine Quiet.foldl (fun c node => ?_) nodes c
  exact ⟨rfl, .refl _, rfl⟩

theorem quiet_recordGetPeersResponse (hasPeers : Bool) (c : DhtCrawler) :
    Quiet c (c.recordGetPeersResponse hasPeers) := by
  refine ⟨rfl, ?_, rfl⟩
  cases hasPeers
  · exact ⟨le_refl _, le_refl _, le_refl _, le_refl _, Nat.le_succ _⟩
  · exact ⟨le_refl _, le_refl _, le_refl _, Nat.le_succ _, le_refl _⟩

theorem moves_requeue (rpc : PendingRpc) (c : DhtCrawler) :
    Moves x turn samples c (c.requeue rpc) := by
  rw [requeue]
  split
  · exact .single (.queued _)
  · exact .refl

theorem moves_expireOne (c : DhtCrawler) (transaction : Bytes) :
    Moves x turn samples c (c.expireOne transaction) := by
  rw [expireOne]
  split
  · exact .refl
  · next rpc _ =>
    have hclosed := (quiet_resolveRpc transaction rpc .timedOut c).trans
      (quiet_chargeFailure rpc _)
    refine (hclosed.moves.trans (moves_requeue rpc _)).trans ?_
    exact (quiet_updateLookups_elim _ RealLookupTracker.timeout _).moves.tail (.stat rfl)

theorem moves_expirePending (w : Surroundings) (c : DhtCrawler) :
    Moves x turn samples c (c.expirePending w) := by
  have hsweep : Quiet c { c with rpcs := { c.rpcs with pool := c.rpcs.pool.sweep } } :=
    ⟨rfl, .refl _, rfl⟩
  exact hsweep.moves.trans (Moves.foldl (fun transaction _ c => moves_expireOne c transaction) _)

/-! ## Queries -/

theorem isPublicEndpoint_iff {addr : SocketAddrV4} : isPublicEndpoint addr = true ↔
    addr.port ≠ 0 ∧ isPublicIpv4 addr.ip = true := by
  rw [isPublicEndpoint, Bool.and_eq_true, decide_eq_true_iff]

/-- The port of an announced peer is never zero. -/
theorem announcedPort_ne_zero {args : KrpcMap} {source : SocketAddrV4} {port : UInt16}
    (hsource : source.port ≠ 0) (h : announcedPort args source = some port) : port ≠ 0 := by
  have hexplicit : ∀ i : Int, 1 ≤ i ∧ i ≤ 65535 → UInt16.ofNat i.toNat ≠ 0 := by
    intro i hbounds hzero
    have hnat : (UInt16.ofNat i.toNat).toNat = 0 := congrArg UInt16.toNat hzero
    rw [UInt16.toNat_ofNat'] at hnat
    omega
  unfold announcedPort at h
  extract_lets implied at h
  clear_value implied
  cases implied with
  | true => exact Option.some.inj h ▸ hsource
  | false =>
    simp only [Bool.false_eq_true, if_false] at h
    split at h
    · next i _ =>
      split at h
      · next hbounds => exact Option.some.inj h ▸ hexplicit i hbounds
      · cases h
    · cases h

theorem moves_getPeersResponse (x : Externals) (w : Surroundings) (event : Event) (args : KrpcMap)
    (transaction : Bytes) (source : SocketAddrV4) (c : DhtCrawler) :
    Moves x (w, event) samples c (c.getPeersResponse x w args transaction source).2 := by
  rw [getPeersResponse]
  split
  · exact .refl
  · next infoHash _ =>
    have hpublish : Moves x (w, event) samples c
        (c.publishDiscovery w infoHash [] .inboundGetPeers) :=
      .single (.published infoHash (.peerless (by decide) (by decide)))
    exact hpublish.tail .expired

theorem tokenSecret_cachePeer (w : Surroundings) (hash : InfoHash) (peer : PeerContact)
    (c : DhtCrawler) : (c.cachePeer w hash peer).tokenSecret = c.tokenSecret := by
  rw [cachePeer]
  split <;> rfl

theorem moves_announcePeerResponse {data t : Bytes} {y : String} {a extra : KrpcMap}
    {source : SocketAddrV4} (hmessage : KrpcMessage.fromBytes x.decode (data.take maxPacketSize) =
      .ok (.query t y "announce_peer" a extra)) (hpublic : isPublicEndpoint source = true)
    (w : Surroundings) (c : DhtCrawler) :
    Moves x (w, .packet data source) samples c (c.announcePeerResponse x w a t source).2 := by
  obtain ⟨hport, hip⟩ := isPublicEndpoint_iff.mp hpublic
  rw [announcePeerResponse]
  split
  · exact .refl
  · next infoHash _ =>
    by_cases htoken : c.hasValidToken x w a source = true
    · simp only [htoken, Bool.not_true, Bool.false_eq_true, if_false]
      split
      · exact .refl
      · next port hannounced =>
        have hendpoint : isPublicEndpoint ⟨source.ip, port⟩ = true :=
          isPublicEndpoint_iff.mpr ⟨announcedPort_ne_zero hport hannounced, hip⟩
        have hcached : Move x (w, .packet data source) samples c
            (c.cachePeer w infoHash ⟨⟨source.ip, port⟩⟩) := .cached infoHash hendpoint
        refine hcached.moves.tail ?_
        refine .published infoHash (.announced ⟨⟨data, source, t, y, a, extra, rfl, hmessage, ?_, rfl⟩,
          hendpoint⟩)
        rw [tokenSecret_cachePeer]
        rw [hasValidToken] at htoken
        split at htoken
        · next token hget => exact ⟨token, hget, htoken⟩
        · cases htoken
    · rw [Bool.not_eq_true] at htoken
      simp only [htoken, Bool.not_false, if_true]
      exact .refl

theorem moves_answerQuery {data t : Bytes} {y q : String} {a extra : KrpcMap}
    {source : SocketAddrV4} (hmessage : KrpcMessage.fromBytes x.decode (data.take maxPacketSize) =
      .ok (.query t y q a extra)) (hpublic : isPublicEndpoint source = true)
    (w : Surroundings) (c : DhtCrawler) :
    Moves x (w, .packet data source) samples c (c.answerQuery x w t q a source).2 := by
  rw [answerQuery]
  simp only
  split
  · exact .refl
  · split
    · exact .refl
    · split
      · exact moves_getPeersResponse x w _ a t source c
      · split
        · next hannounce =>
          subst hannounce
          exact moves_announcePeerResponse hmessage hpublic w c
        · split <;> exact .refl

theorem moves_handleQuery {data t : Bytes} {y q : String} {a extra : KrpcMap}
    {source : SocketAddrV4} (hmessage : KrpcMessage.fromBytes x.decode (data.take maxPacketSize) =
      .ok (.query t y q a extra)) (w : Surroundings) (c : DhtCrawler) :
    Moves x (w, .packet data source) samples c
      (c.handleQuery x w (.query t y q a extra) source) := by
  rw [handleQuery]
  by_cases hpublic : isPublicEndpoint source = true
  · simp only [hpublic, Bool.not_true, Bool.false_eq_true, if_false]
    have hnote : Quiet c ((KrpcMessage.query t y q a extra).extractNodeId.elim c fun id =>
        c.noteProvisional w id source) := by
      cases (KrpcMessage.query t y q a extra).extractNodeId with
      | none => exact .refl c
      | some id => exact ⟨rfl, .refl _, rfl⟩
    exact (hnote.moves.trans (moves_answerQuery hmessage hpublic w _)).tail (.reply _ _)
  · rw [Bool.not_eq_true] at hpublic
    simp only [hpublic, Bool.not_false, if_true]
    exact .refl

/-! ## Responses and errors -/

theorem decodePeer_public {chunk : Bytes} {peer : PeerContact} (h : decodePeer chunk = some peer) :
    isPublicEndpoint peer.addr = true := by
  unfold decodePeer at h
  simp only at h
  split at h
  · next hpublic => exact Option.some.inj h ▸ hpublic
  · cases h

theorem decodeCompactPeers_public {data : Bytes} {peer : PeerContact}
    (h : peer ∈ decodeCompactPeers data) : isPublicEndpoint peer.addr = true := by
  rw [decodeCompactPeers] at h
  split at h
  · cases h
  · obtain ⟨chunk, -, hchunk⟩ := List.mem_filterMap.mp h
    exact decodePeer_public hchunk

/-- Both encodings of the peers pass the filter of the addresses. -/
theorem valuesPeers_public {r : KrpcMap} {peer : PeerContact} (h : peer ∈ KrpcMessage.valuesPeers r) :
    isPublicEndpoint peer.addr = true := by
  rw [KrpcMessage.valuesPeers] at h
  split at h
  · obtain ⟨value, -, hvalue⟩ := List.mem_flatMap.mp h
    split at hvalue
    · exact decodeCompactPeers_public hvalue
    · cases hvalue
  · exact decodeCompactPeers_public h
  · cases h

theorem parseGetPeersResponse_public {message : KrpcMessage} {peer : PeerContact}
    (h : peer ∈ message.parseGetPeersResponse.1) : isPublicEndpoint peer.addr = true := by
  cases message with
  | response t y r extra => exact valuesPeers_public h
  | query | error => cases h

theorem moves_gatherPeers (w : Surroundings) (event : Event) (hash : InfoHash)
    {peers : List PeerContact} (hpeers : ∀ peer ∈ peers, isPublicEndpoint peer.addr = true)
    (isRealLookup : Bool) (c : DhtCrawler) :
    Moves x (w, event) samples c (c.gatherPeers w hash peers isRealLookup) := by
  have hcache : Moves x (w, event) samples c
      (peers.foldl (fun c peer => c.cachePeer w hash peer) c) :=
    Moves.foldl (fun peer hpeer _ => .single (.cached hash (hpeers peer hpeer))) c
  rw [gatherPeers]
  split
  · exact hcache.tail (.published hash (.answered hpeers))
  · exact hcache

theorem moves_continueFindNode (w : Surroundings) (event : Event) (nodes : List NodeContact)
    (pending : PendingRpc) (c : DhtCrawler) :
    Moves x (w, event) samples c (c.continueFindNode w nodes pending) := by
  rw [continueFindNode]
  split
  · exact .refl
  · exact moves_call_foldl w event (fun _ => by rintro ⟨⟩) _ c

theorem moves_followGetPeers (w : Surroundings) (event : Event) (message : KrpcMessage)
    (pending : PendingRpc) (c : DhtCrawler) :
    Moves x (w, event) samples c (c.followGetPeers w message pending) := by
  rw [followGetPeers]
  simp only
  split
  · exact .refl
  · next hash _ =>
    have hpeers : ∀ peer ∈ message.parseGetPeersResponse.1, isPublicEndpoint peer.addr = true :=
      fun _ => parseGetPeersResponse_public
    refine (moves_gatherPeers w event hash hpeers pending.isRealLookup c).trans ?_
    rw [continueGetPeers]
    split
    · exact .refl
    · exact moves_call_foldl w event (fun _ => by rintro ⟨⟩) _ _

theorem moves_answerGetPeers (w : Surroundings) (event : Event) (message : KrpcMessage)
    (pending : PendingRpc) (c : DhtCrawler) :
    Moves x (w, event) samples c (c.answerGetPeers w message pending) := by
  rw [answerGetPeers]
  simp only
  have hrecorded := (quiet_recordGetPeersResponse (!message.parseGetPeersResponse.1.isEmpty) c).trans
    (quiet_admitCandidates message.parseGetPeersResponse.2 _)
  refine hrecorded.moves.trans ((moves_followGetPeers w event message pending _).trans ?_)
  exact (quiet_updateLookups_elim pending.lookupId
    (fun id => RealLookupTracker.respond id (!message.parseGetPeersResponse.1.isEmpty)) _).moves

theorem moves_handleError (message : KrpcMessage) (source : SocketAddrV4) (c : DhtCrawler) :
    Moves x turn samples c (c.handleError message source) := by
  rw [handleError]
  split
  · exact .single (.stat rfl)
  · next pending _ =>
    split
    · exact .single (.stat rfl)
    · have hclosed := (quiet_resolveRpc message.transactionId pending .failed c).trans
        (quiet_chargeFailure pending _)
      refine hclosed.moves.trans ?_
      exact (quiet_updateLookups_elim _ RealLookupTracker.failure _).moves.tail (.stat rfl)

/-! ## Samples -/

/-- The response to `sample_infohashes` in a message, when it is accepted and parsed. -/
def sampleOf (message : KrpcMessage) (source : SocketAddrV4) (c : DhtCrawler) :
    Option SampleInfohashesResponse :=
  match correlateResponse c.rpcs.pool.pending message source with
  | .accepted pending _ =>
    if pending.method = .sampleInfohashes then
      (parseSampleInfohashesResponse message c.config.maxSamplesPerResponse).toOption
    else none
  | _ => none

/-- The response to `sample_infohashes` that an event brings. -/
def sampleAnswer (x : Externals) (c : DhtCrawler) : Event → Option SampleInfohashesResponse
  | .packet data source =>
    if data.isEmpty then none
    else
      match KrpcMessage.fromBytes x.decode (data.take maxPacketSize) with
      | .error _ => none
      | .ok message => c.sampleOf message source
  | _ => none

theorem sampleAnswer_wait (x : Externals) (elapsed : Nat) (c : DhtCrawler) (event : Event) :
    sampleAnswer x (c.wait elapsed) event = sampleAnswer x c event := by
  cases event <;> rfl

/-- What a good response to `sample_infohashes` does: the pause of the node, and then
the samples. -/
structure Sampled (x : Externals) (turn : Turn) (response : SampleInfohashesResponse)
    (c c' : DhtCrawler) : Prop where
  moves : ∃ c₁, Moves x turn [] c c₁ ∧ Moves x turn response.samples (c₁.allowSampling response.nodeId
    (c.now + max response.interval c.config.samplingMinRemoteInterval)) c'
  observed : ∀ hash ∈ response.samples, ∃ id addr round, .sampleObserved hash id addr round ∈ c'.stats

theorem stats_queueHash (hash : InfoHash) (c : DhtCrawler) :
    (c.queueHash hash).2.stats = c.stats := by
  rw [queueHash]
  split
  · rfl
  · split
    · rfl
    · split <;> rfl

theorem stats_enqueueDiscovery (w : Surroundings) (discovery : HashDiscovery) (c : DhtCrawler) :
    c.stats <:+ (c.enqueueDiscovery w discovery).stats := by
  rw [enqueueDiscovery]
  split
  · exact List.suffix_cons _ _
  · exact (List.suffix_cons _ _).trans (List.suffix_cons _ _)

/-- Publishing adds statistics and drops none. -/
theorem stats_publishDiscovery (w : Surroundings) (hash : InfoHash) (peers : List PeerContact)
    (source : DiscoverySource) (c : DhtCrawler) :
    c.stats <:+ (c.publishDiscovery w hash peers source).stats := by
  rw [publishDiscovery]
  split
  · exact List.suffix_rfl
  · have hstats := stats_enqueueDiscovery w
      ⟨hash, preparePeers c.config.maxPeersPerHash peers, source⟩ ({ c with
        infoHashesFound := min (c.infoHashesFound + 1) (2 ^ 64 - 1) }.queueHash hash).2
    rwa [stats_queueHash] at hstats

/-- The loop over the samples. -/
theorem sampled_foldl (w : Surroundings) (event : Event) (id : NodeId) (addr : SocketAddrV4)
    {l : List InfoHash} (hl : ∀ hash ∈ l, hash ∈ samples) (c : DhtCrawler) :
    let c' := l.foldl (fun c hash => (c.publishDiscovery w hash [] .sampleInfohashes).emitStat
      (.sampleObserved hash id addr c.samplingRoundId)) c
    Moves x (w, event) samples c c' ∧ c.stats <:+ c'.stats ∧
      ∀ hash ∈ l, ∃ round, .sampleObserved hash id addr round ∈ c'.stats := by
  induction l generalizing c with
  | nil => exact ⟨.refl, List.suffix_rfl, nofun⟩
  | cons first l ih =>
    have hpublish : Moves x (w, event) samples c
        (c.publishDiscovery w first [] .sampleInfohashes) :=
      .single (.published first (.peerless (by decide) (by decide)))
    have hfirst := hpublish.tail (.sampled id addr c.samplingRoundId (hl first List.mem_cons_self))
    have hstats : c.stats <:+ ((c.publishDiscovery w first [] .sampleInfohashes).emitStat
        (.sampleObserved first id addr c.samplingRoundId)).stats :=
      (stats_publishDiscovery w first [] .sampleInfohashes c).trans (List.suffix_cons _ _)
    obtain ⟨hmoves, hmore, hall⟩ := ih (fun hash h => hl hash (List.mem_cons_of_mem _ h))
      ((c.publishDiscovery w first [] .sampleInfohashes).emitStat
        (.sampleObserved first id addr c.samplingRoundId))
    refine ⟨hfirst.trans hmoves, hstats.trans hmore, fun hash hhash => ?_⟩
    obtain rfl | hhash := List.mem_cons.mp hhash
    · exact ⟨_, hmore.subset List.mem_cons_self⟩
    · exact hall hash hhash

theorem moves_answerSample {message : KrpcMessage} {response : SampleInfohashesResponse}
    (w : Surroundings) (event : Event) (source : SocketAddrV4) (c : DhtCrawler)
    (hresponse : parseSampleInfohashesResponse message c.config.maxSamplesPerResponse =
      .ok response) :
    Sampled x (w, event) response c (c.answerSample w message source) := by
  rw [answerSample]
  rw [hresponse]
  simp only
  have hadmitted := quiet_admitCandidates response.nodes (c.allowSampling response.nodeId
    (c.now + max response.interval c.config.samplingMinRemoteInterval))
  have hall : ∀ hash ∈ response.samples, hash ∈ response.samples := fun _ h => h
  obtain ⟨hmoves, -, hobserved⟩ := sampled_foldl (x := x) w event response.nodeId source hall
    ((c.allowSampling response.nodeId
      (c.now + max response.interval c.config.samplingMinRemoteInterval)).admitCandidates
        response.nodes)
  refine ⟨⟨c, .refl, (hadmitted.moves.trans hmoves).tail (.stat rfl)⟩, fun hash hhash => ?_⟩
  obtain ⟨round, hround⟩ := hobserved hash hhash
  exact ⟨response.nodeId, source, round, List.mem_cons_of_mem _ hround⟩

theorem Sampled.after {response : SampleInfohashesResponse} {c₁ : DhtCrawler}
    (hmoves : Moves x turn [] c c₁) (hnow : c₁.now = c.now) (hconfig : c₁.config = c.config)
    (h : Sampled x turn response c₁ c') : Sampled x turn response c c' := by
  obtain ⟨⟨c₂, hbefore, hafter⟩, hobserved⟩ := h
  rw [hnow, hconfig] at hafter
  exact ⟨⟨c₂, hmoves.trans hbefore, hafter⟩, hobserved⟩

/-- What an accepted response does: samples if it brings some, and moves otherwise. -/
def Answers (x : Externals) (turn : Turn) (c : DhtCrawler) (response : Option SampleInfohashesResponse)
    (c' : DhtCrawler) : Prop :=
  match response with
  | none => Moves x turn [] c c'
  | some response => Sampled x turn response c c'

theorem answers_acceptResponse (w : Surroundings) (event : Event) (message : KrpcMessage)
    (source : SocketAddrV4) (pending : PendingRpc) (responseId : NodeId) (c : DhtCrawler) :
    Answers x (w, event) c
      (if pending.method = .sampleInfohashes then
        (parseSampleInfohashesResponse message c.config.maxSamplesPerResponse).toOption else none)
      (c.acceptResponse w message source pending responseId) := by
  rw [acceptResponse]
  simp only
  generalize hvalidate : ({ c with
    routing := c.routing.apply (.markValidated responseId source)
    provisional := c.provisional.erase source } : DhtCrawler) = c₁
  have hquiet : Quiet c c₁ := hvalidate ▸ ⟨rfl, .refl _, rfl⟩
  have hnow : c₁.now = c.now := hvalidate ▸ rfl
  have hconfig : c₁.config = c.config := hvalidate ▸ rfl
  have hseen : Moves x (w, event) [] c
      ((c₁.emitStat (.dhtNodeSeen responseId source)).emitStat .rpcAnswered) :=
    (hquiet.moves.tail (.stat rfl)).tail (.stat rfl)
  generalize hanswered : emitStat _ (emitStat _ c₁) = c₂ at hseen ⊢
  have hnow₂ : c₂.now = c.now := hanswered ▸ hnow
  have hconfig₂ : c₂.config = c.config := hanswered ▸ hconfig
  cases hmethod : pending.method with
  | ping => exact hseen
  | findNode =>
    exact hseen.trans ((quiet_admitCandidates _ c₂).moves.trans
      (moves_continueFindNode w event _ pending _))
  | getPeers => exact hseen.trans (moves_answerGetPeers w event message pending c₂)
  | sampleInfohashes =>
    simp only [if_true]
    cases hresponse : parseSampleInfohashesResponse message c.config.maxSamplesPerResponse with
    | ok response =>
      rw [← hconfig₂] at hresponse
      exact .after hseen hnow₂ hconfig₂ (moves_answerSample w event source c₂ hresponse)
    | error =>
      rw [← hconfig₂] at hresponse
      rw [answerSample]
      rw [hresponse]
      exact hseen.tail (.stat rfl)

theorem answers_handleResponse (w : Surroundings) (event : Event) (message : KrpcMessage)
    (source : SocketAddrV4) (c : DhtCrawler) :
    Answers x (w, event) c (c.sampleOf message source) (c.handleResponse w message source) := by
  rw [handleResponse, sampleOf]
  cases correlateResponse c.rpcs.pool.pending message source with
  | unsolicited | unexpectedSource => exact Move.moves (.stat rfl)
  | malformed pending =>
    have hclosed := quiet_resolveRpc message.transactionId pending .malformed c
    exact (hclosed.moves.tail (.stat rfl)).trans
      (quiet_updateLookups_elim _ RealLookupTracker.failure _).moves
  | accepted pending responseId =>
    have hclosed := quiet_resolveRpc message.transactionId pending (.answered message) c
    have hanswers := answers_acceptResponse (x := x) w event message source pending responseId
      (c.resolveRpc message.transactionId pending (.answered message))
    simp only at hanswers ⊢
    generalize hresponse : (if pending.method = .sampleInfohashes then
      (parseSampleInfohashesResponse message c.config.maxSamplesPerResponse).toOption
      else none) = response
    have hsame : (if pending.method = .sampleInfohashes then
        (parseSampleInfohashesResponse message (c.resolveRpc message.transactionId pending
          (.answered message)).config.maxSamplesPerResponse).toOption else none) = response :=
      hresponse
    rw [hsame] at hanswers
    cases response with
    | none => exact hclosed.moves.trans hanswers
    | some response => exact .after hclosed.moves rfl rfl hanswers

/-- Only a response is accepted. -/
theorem sampleOf_eq_none {message : KrpcMessage} (hmessage : ∀ t y r extra,
    message ≠ .response t y r extra) (source : SocketAddrV4) (c : DhtCrawler) :
    c.sampleOf message source = none := by
  have hshape : ∀ method, message.responseHasShape method = false := by
    intro method
    cases message with
    | response t y r extra => exact absurd rfl (hmessage t y r extra)
    | query | error => rfl
  rw [sampleOf, correlateResponse]
  split
  · next pending responseId haccepted =>
    split at haccepted
    · cases haccepted
    · split at haccepted
      · cases haccepted
      · split at haccepted
        · cases haccepted
        · rw [hshape, Bool.not_false, Bool.or_true, if_pos rfl] at haccepted
          cases haccepted
  · rfl

theorem answers_packet (x : Externals) (w : Surroundings) (data : Bytes) (source : SocketAddrV4)
    (c : DhtCrawler) : Answers x (w, .packet data source) c (sampleAnswer x c (.packet data source))
      (c.handle x w (.packet data source)) := by
  rw [handle, sampleAnswer]
  cases hempty : data.isEmpty with
  | true => exact .refl
  | false =>
    simp only [Bool.false_eq_true, if_false]
    rw [handlePacket]
    cases hmessage : KrpcMessage.fromBytes x.decode (data.take maxPacketSize) with
    | error => exact Move.moves (.stat rfl)
    | ok message =>
      cases message with
      | query t y q a extra =>
        simp only
        rw [sampleOf_eq_none (by rintro _ _ _ _ ⟨⟩)]
        exact moves_handleQuery hmessage w c
      | response t y r extra => exact answers_handleResponse w _ _ source c
      | error t y e extra =>
        simp only
        rw [sampleOf_eq_none (by rintro _ _ _ _ ⟨⟩)]
        exact moves_handleError _ source c

/-! ## Ticks -/

theorem moves_seedInfoHashes (w : Surroundings) (hashes : List InfoHash) (c : DhtCrawler) :
    Moves x (w, .seedInfoHashes hashes) samples c (c.seedInfoHashes w hashes) :=
  Moves.foldl (fun hash _ _ => .single (.resumed hash rfl)) c

theorem moves_lookupHash (w : Surroundings) (event : Event) (hash : InfoHash) (real : Bool)
    (nodes : List NodeContact) (c : DhtCrawler) :
    Moves x (w, event) samples c (c.lookupHash w hash real nodes) := by
  rw [lookupHash]
  split
  · have hcalls : Moves x (w, event) samples (c.updateLookups fun lookups => lookups.begin.2)
        ((c.updateLookups fun lookups => lookups.begin.2).askNodes w hash real
          (some c.rpcs.lookups.begin.1) nodes) :=
      moves_call_foldl w event (fun _ => by rintro ⟨⟩) nodes _
    exact ((quiet_updateLookups _ c).moves.trans hcalls).tail (.quiet (quiet_updateLookups _ _))
  · exact moves_call_foldl w event (fun _ => by rintro ⟨⟩) nodes c

theorem moves_discoverPeers (w : Surroundings) (event : Event) (random : InfoHash)
    (resolved : List SocketAddrV4) (c : DhtCrawler) :
    Moves x (w, event) samples c (c.discoverPeers w random resolved) := by
  rw [discoverPeers]
  simp only
  have hpop : Moves x (w, event) samples c (c.expirePending w).popHash.2 :=
    (moves_expirePending w c).tail .popped
  generalize (c.expirePending w).popHash = popped at hpop ⊢
  obtain ⟨hash, c₁⟩ := popped
  refine hpop.trans ?_
  split
  · refine Relation.ReflTransGen.trans ?_ (moves_bootstrap w event resolved _)
    cases hash with
    | none => exact .refl
    | some hash => exact .single (.queued hash)
  · exact moves_lookupHash w event _ _ _ c₁

/-- The nodes that a sampling tick asks. -/
def sampledNodes (order : NodeContact → Nat) (c : DhtCrawler) : List NodeContact :=
  ((c.randomNodes order (c.config.samplingRequestsPerTick * 4)).filter c.canSample).take
    c.config.samplingRequestsPerTick

/-- The body of the loop of `sample_random_nodes`. -/
def probe (w : Surroundings) (now : Nat) (targets : NodeContact → NodeId) (c : DhtCrawler)
    (node : NodeContact) : DhtCrawler :=
  (c.allowSampling node.id (now + c.config.samplingMinRemoteInterval)).sendRpc w
    ⟨node.addr, some node.id, .sampleInfohashes, targets node, none, false, 0, none, none⟩

/-- What an event does. -/
inductive Handled (x : Externals) (turn : Turn) (c c' : DhtCrawler) : Prop
  | answers (idle : ∀ order targets, turn.2 = .samplingTick order targets →
        c.config.samplingEnabled = false)
      (answers : Answers x turn c (sampleAnswer x c turn.2) c')
  | probes {order : NodeContact → Nat} {targets : NodeContact → NodeId} {c₁ : DhtCrawler}
      (tick : turn.2 = .samplingTick order targets) (quiet : Quiet c c₁) (rpcs : c₁.rpcs = c.rpcs)
      (probes : c' = (c.sampledNodes order).foldl (probe turn.1 c.now targets) c₁)

theorem handled_handle (x : Externals) (w : Surroundings) (event : Event) (c : DhtCrawler) :
    Handled x (w, event) c (c.handle x w event) := by
  cases event with
  | seedInfoHashes hashes => exact .answers (by rintro _ _ ⟨⟩) (moves_seedInfoHashes w hashes c)
  | seedNodes nodes => exact .answers (by rintro _ _ ⟨⟩) (quiet_seedNodes nodes c).moves
  | bootstrap resolved => exact .answers (by rintro _ _ ⟨⟩) (moves_bootstrap w _ resolved c)
  | packet data source => exact .answers (by rintro _ _ ⟨⟩) (answers_packet x w data source c)
  | discoveryTick random resolved =>
    exact .answers (by rintro _ _ ⟨⟩) (moves_discoverPeers w _ random resolved c)
  | samplingTick order targets =>
    rw [handle]
    cases henabled : c.config.samplingEnabled with
    | false => exact .answers (fun _ _ _ => henabled) .refl
    | true =>
      have hround : Quiet c { c with samplingRoundId := (c.samplingRoundId + 1) % 2 ^ 64 } :=
        ⟨rfl, .refl _, rfl⟩
      exact .probes rfl hround rfl rfl
  | refreshTick => exact .answers (by rintro _ _ ⟨⟩) ((moves_expirePending w c).tail .expired)
  | statsTick => exact .answers (by rintro _ _ ⟨⟩) (.single (.snapshot _ rfl))

theorem quiet_wait (elapsed : Nat) (c : DhtCrawler) : Quiet c (c.wait elapsed) := ⟨rfl, .refl _, rfl⟩

/-! ## Invariants -/

/-- What moves, pauses and probes keep, an event keeps. -/
theorem Handled.invariant {I : DhtCrawler → Prop} (h : Handled x turn c c')
    (hmove : ∀ c₁ c₂, I c₁ → Move x turn
      ((sampleAnswer x c turn.2).elim [] SampleInfohashesResponse.samples) c₁ c₂ → I c₂)
    (hallow : ∀ c₁ id eligibleAt, I c₁ → I (c₁.allowSampling id eligibleAt))
    (hcall : ∀ c₁ request, I c₁ → I (c₁.sendRpc turn.1 request)) (hc : I c) : I c' := by
  cases h with
  | answers _ h =>
    cases hresponse : sampleAnswer x c turn.2 with
    | none =>
      rw [hresponse] at h hmove
      exact Moves.invariant h hmove hc
    | some response =>
      rw [hresponse] at h hmove
      obtain ⟨⟨c₁, hbefore, hafter⟩, -⟩ := h
      -- A move without samples is a move with any.
      have hplain : ∀ c₁ c₂, I c₁ → Move x turn [] c₁ c₂ → I c₂ := by
        intro c₁ c₂ hc₁ hm
        refine hmove c₁ c₂ hc₁ ?_
        cases hm with
        | quiet h => exact .quiet h
        | stat h => exact .stat h
        | snapshot n h => exact .snapshot n h
        | sampled _ _ _ h => cases h
        | call h => exact .call h
        | reply => exact .reply _ _
        | queued => exact .queued _
        | popped => exact .popped
        | resumed _ h => exact .resumed _ h
        | published _ h => exact .published _ h
        | cached _ h => exact .cached _ h
        | expired => exact .expired
      exact Moves.invariant hafter hmove (hallow _ _ _ (Moves.invariant hbefore hplain hc))
  | probes _ hquiet _ h =>
    subst h
    refine List.foldlRecOn _ _ (hmove _ _ hc (.quiet hquiet)) ?_
    intro c₁ hc₁ node _
    exact hcall _ _ (hallow _ _ _ hc₁)

/-! ## The statistics -/

theorem stats_sendRpc (w : Surroundings) (request : RpcRequest) (c : DhtCrawler) :
    c.stats <:+ (c.sendRpc w request).stats := by
  rw [sendRpc]
  split
  · exact List.suffix_cons _ _
  · exact List.suffix_rfl
  · exact List.suffix_rfl

/-- The statistics only grow. -/
theorem Move.stats_suffix (h : Move x turn samples c c') : c.stats <:+ c'.stats := by
  cases h with
  | quiet hquiet => exact hquiet.keeps stats rfl ▸ List.suffix_rfl
  | stat | snapshot | sampled => exact List.suffix_cons _ _
  | call => exact stats_sendRpc _ _ c
  | reply | expired => exact List.suffix_rfl
  | queued hash => exact stats_queueHash hash c ▸ List.suffix_rfl
  | popped =>
    rw [popHash]
    split <;> exact List.suffix_rfl
  | resumed hash =>
    rw [resumeHash]
    split
    · exact stats_queueHash hash c ▸ stats_enqueueDiscovery _ _ _
    · exact stats_queueHash hash c ▸ List.suffix_rfl
  | published hash => exact stats_publishDiscovery _ hash _ _ c
  | cached hash =>
    rw [cachePeer]
    split <;> exact List.suffix_rfl

theorem stats_step (x : Externals) (c : DhtCrawler) (turn : Turn) :
    c.stats <:+ (step x c turn).stats := by
  have hwait : c.stats <:+ (c.wait turn.1.elapsed).stats := List.suffix_rfl
  refine (handled_handle x turn.1 turn.2 _).invariant (I := fun c' => c.stats <:+ c'.stats)
    ?_ ?_ ?_ hwait
  · exact fun _ _ h hmove => h.trans hmove.stats_suffix
  · exact fun _ _ _ h => h
  · exact fun c₁ request h => h.trans (stats_sendRpc _ request c₁)

theorem stats_run (x : Externals) (c : DhtCrawler) (turns : List Turn) :
    c.stats <:+ (run x c turns).stats := by
  induction turns generalizing c with
  | nil => exact List.suffix_rfl
  | cons turn turns ih => exact (stats_step x c turn).trans (ih (step x c turn))

end DhtCrawler

end Btfind
