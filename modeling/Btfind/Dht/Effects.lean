import Btfind.Dht.RpcSteps

/-!
# What an event does to the queue and to the cache

The discovery queue with its gauge and its counter, and the cache of announced peers. Here is
all that a part of an event can do to them; the rest of the state is set aside. A peer comes
into the cache with the packet that brought it.
-/

namespace Btfind

open Quarantine

namespace DhtCrawler

variable {c c' c'' c₀ : DhtCrawler} {w : Surroundings} {x : Externals} {turn : Turn}

/-- Neither the queue nor the cache is touched. Time may pass. -/
structure Aside (c c' : DhtCrawler) : Prop where
  queue : c'.discoveryQueue = c.discoveryQueue
  set : c'.discoverySet = c.discoverySet
  depth : c'.metrics.discoveryQueueDepth = c.metrics.discoveryQueueDepth
  accepted : c'.metrics.lookupQueueAccepted = c.metrics.lookupQueueAccepted
  cache : c'.peerCache = c.peerCache
  config : c'.config = c.config
  secret : c'.tokenSecret = c.tokenSecret
  now : c.now ≤ c'.now

theorem Aside.of_now (hnow : c.now ≤ c'.now) (hqueue : c'.discoveryQueue = c.discoveryQueue)
    (hset : c'.discoverySet = c.discoverySet) (hmetrics : c'.metrics = c.metrics)
    (hcache : c'.peerCache = c.peerCache) (hconfig : c'.config = c.config)
    (hsecret : c'.tokenSecret = c.tokenSecret) : Aside c c' :=
  ⟨hqueue, hset, by rw [hmetrics], by rw [hmetrics], hcache, hconfig, hsecret, hnow⟩

theorem Aside.refl (c : DhtCrawler) : Aside c c :=
  .of_now (le_refl _) rfl rfl rfl rfl rfl rfl

theorem Aside.trans (h : Aside c c') (h' : Aside c' c'') : Aside c c'' where
  queue := h'.queue.trans h.queue
  set := h'.set.trans h.set
  depth := h'.depth.trans h.depth
  accepted := h'.accepted.trans h.accepted
  cache := h'.cache.trans h.cache
  config := h'.config.trans h.config
  secret := h'.secret.trans h.secret
  now := h.now.trans h'.now

theorem Aside.foldl {α : Type} {f : DhtCrawler → α → DhtCrawler} (hf : ∀ c a, Aside c (f c a))
    (l : List α) (c : DhtCrawler) : Aside c (l.foldl f c) := by
  induction l generalizing c with
  | nil => exact .refl c
  | cons a l ih => exact (hf c a).trans (ih (f c a))

/-- The packet of a turn brings a peer for a hash: it announces the peer, with a token that is
valid for its sender, or it answers a call for the hash and is accepted. -/
inductive Brings (x : Externals) (turn : Turn) (c : DhtCrawler) (hash : InfoHash)
    (peer : PeerContact) : Prop
  | announced {data : Bytes} {source : SocketAddrV4} {t : Bytes} {y : String} {a extra : KrpcMap}
      {port : UInt16} (packet : turn.2 = .packet data source)
      (query : KrpcMessage.fromBytes x.decode (data.take maxPacketSize) =
        .ok (.query t y "announce_peer" a extra))
      (infoHash : fieldId a "info_hash" = some hash)
      (token : c.hasValidToken x turn.1 a source = true)
      (announced : announcedPort a source = some port) (peer_eq : peer = ⟨⟨source.ip, port⟩⟩)
  | answered {data : Bytes} {source : SocketAddrV4} {message : KrpcMessage} {rpc : PendingRpc}
      {responseId : NodeId} (packet : turn.2 = .packet data source)
      (response : KrpcMessage.fromBytes x.decode (data.take maxPacketSize) = .ok message)
      (correlated : correlateResponse c.rpcs.pool.pending message source =
        .accepted rpc responseId)
      (method : rpc.method = .getPeers) (infoHash : rpc.infoHash = some hash)
      (mem : peer ∈ message.parseGetPeersResponse.1)

/-- What a part of a turn that begins in `c₀` does to the queue and to the cache. -/
inductive Effect (x : Externals) (turn : Turn) (c₀ c : DhtCrawler) : DhtCrawler → Prop
  | aside {c' : DhtCrawler} (aside : Aside c c') : Effect x turn c₀ c c'
  | offered (hash : InfoHash) : Effect x turn c₀ c (c.queueHash hash).2
  | cached {hash : InfoHash} {peer : PeerContact} (now : c.now = c₀.now)
      (brings : Brings x turn c₀ hash peer) : Effect x turn c₀ c (c.cachePeer turn.1 hash peer)
  | expired : Effect x turn c₀ c c.expirePeerCache

abbrev Effects (x : Externals) (turn : Turn) (c₀ : DhtCrawler) : DhtCrawler → DhtCrawler → Prop :=
  Relation.ReflTransGen (Effect x turn c₀)

theorem Aside.effects (h : Aside c c') : Effects x turn c₀ c c' := .single (.aside h)

theorem Effects.foldl {α : Type} {f : DhtCrawler → α → DhtCrawler}
    (hf : ∀ c a, Effects x turn c₀ c (f c a)) (l : List α) (c : DhtCrawler) :
    Effects x turn c₀ c (l.foldl f c) := by
  induction l generalizing c with
  | nil => exact .refl
  | cons a l ih => exact (hf c a).trans (ih (f c a))

/-- What every effect keeps, all of them keep. -/
theorem Effects.invariant {I : DhtCrawler → Prop} (h : Effects x turn c₀ c c')
    (heffect : ∀ c c', I c → Effect x turn c₀ c c' → I c') (hc : I c) : I c' := by
  induction h with
  | refl => exact hc
  | tail _ hlast ih => exact heffect _ _ ih hlast

/-! ## Aside -/

theorem aside_wait (elapsed : Nat) (c : DhtCrawler) : Aside c (c.wait elapsed) :=
  .of_now (Nat.le_add_right _ _) rfl rfl rfl rfl rfl rfl

theorem aside_emitStat (event : CrawlStatsEvent) (c : DhtCrawler) : Aside c (c.emitStat event) :=
  .of_now (le_refl _) rfl rfl rfl rfl rfl rfl

theorem aside_resolveRpc (transaction : Bytes) (rpc : PendingRpc) (outcome : RpcOutcome)
    (c : DhtCrawler) : Aside c (c.resolveRpc transaction rpc outcome) :=
  .of_now (le_refl _) rfl rfl rfl rfl rfl rfl

theorem aside_updateLookups (f : RealLookupTracker → RealLookupTracker) (c : DhtCrawler) :
    Aside c (c.updateLookups f) := .of_now (le_refl _) rfl rfl rfl rfl rfl rfl

theorem aside_updateLookups_elim (lookupId : Option (BitVec 64))
    (f : BitVec 64 → RealLookupTracker → RealLookupTracker) (c : DhtCrawler) :
    Aside c (lookupId.elim c fun id => c.updateLookups (f id)) := by
  cases lookupId with
  | none => exact .refl c
  | some id => exact aside_updateLookups (f id) c

theorem aside_chargeFailure (rpc : PendingRpc) (c : DhtCrawler) : Aside c (c.chargeFailure rpc) := by
  rw [chargeFailure]
  split
  · exact .refl c
  · exact .of_now (le_refl _) rfl rfl rfl rfl rfl rfl

theorem aside_admitCandidates (nodes : List NodeContact) (c : DhtCrawler) :
    Aside c (c.admitCandidates nodes) := by
  refine Aside.foldl (fun c node => ?_) _ c
  exact .of_now (le_refl _) rfl rfl rfl rfl rfl rfl

theorem aside_seedNodes (nodes : List NodeContact) (c : DhtCrawler) :
    Aside c (c.seedNodes nodes) := by
  refine Aside.foldl (fun c node => ?_) nodes c
  exact .of_now (le_refl _) rfl rfl rfl rfl rfl rfl

theorem aside_enqueueDiscovery (w : Surroundings) (discovery : HashDiscovery) (c : DhtCrawler) :
    Aside c (c.enqueueDiscovery w discovery) := by
  rw [enqueueDiscovery]
  split <;> exact .of_now (le_refl _) rfl rfl rfl rfl rfl rfl

theorem aside_sendRpc (w : Surroundings) (request : RpcRequest) (c : DhtCrawler) :
    Aside c (c.sendRpc w request) := by
  have hnow : c.now ≤ (c.sendRpc w request).now := by
    show c.rpcs.pool.clock ≤ (c.sendRpc w request).rpcs.pool.clock
    rw [(sendRpc_rpcs w request c).1]
    exact (RpcState.sendRpc_called w.sends request c.rpcs).clock_le
  revert hnow
  rw [sendRpc]
  split <;> exact fun hnow => .of_now hnow rfl rfl rfl rfl rfl rfl

theorem aside_bootstrap (w : Surroundings) (resolved : List SocketAddrV4) (c : DhtCrawler) :
    Aside c (c.bootstrap w resolved) := by
  refine Aside.foldl (fun c addr => ?_) resolved c
  have hroots : Aside c { c with rpcs := { c.rpcs with roots := c.rpcs.roots + 1 } } :=
    .of_now (le_refl _) rfl rfl rfl rfl rfl rfl
  exact hroots.trans (aside_sendRpc w _ _)

theorem aside_continueFindNode (w : Surroundings) (nodes : List NodeContact) (pending : PendingRpc)
    (c : DhtCrawler) : Aside c (c.continueFindNode w nodes pending) := by
  rw [continueFindNode]
  split
  · exact .refl c
  · exact Aside.foldl (fun c _ => aside_sendRpc w _ c) _ c

theorem aside_continueGetPeers (w : Surroundings) (hash : InfoHash) (nodes : List NodeContact)
    (pending : PendingRpc) (c : DhtCrawler) : Aside c (c.continueGetPeers w hash nodes pending) := by
  rw [continueGetPeers]
  split
  · exact .refl c
  · exact Aside.foldl (fun c _ => aside_sendRpc w _ c) _ c

theorem aside_askNodes (w : Surroundings) (hash : InfoHash) (real : Bool)
    (lookupId : Option (BitVec 64)) (nodes : List NodeContact) (c : DhtCrawler) :
    Aside c (c.askNodes w hash real lookupId nodes) :=
  Aside.foldl (fun c _ => aside_sendRpc w _ c) nodes c

theorem aside_lookupHash (w : Surroundings) (hash : InfoHash) (real : Bool)
    (nodes : List NodeContact) (c : DhtCrawler) : Aside c (c.lookupHash w hash real nodes) := by
  rw [lookupHash]
  split
  · exact ((aside_updateLookups _ c).trans (aside_askNodes w hash real _ nodes _)).trans
      (aside_updateLookups _ _)
  · exact aside_askNodes w hash real none nodes c

theorem aside_sampleRandomNodes (w : Surroundings) (order : NodeContact → Nat)
    (targets : NodeContact → NodeId) (c : DhtCrawler) :
    Aside c (c.sampleRandomNodes w order targets) := by
  have hround : Aside c { c with samplingRoundId := (c.samplingRoundId + 1) % 2 ^ 64 } :=
    .of_now (le_refl _) rfl rfl rfl rfl rfl rfl
  rw [sampleRandomNodes]
  refine hround.trans (Aside.foldl (fun c node => ?_) _ _)
  have hallow : ∀ eligibleAt, Aside c (c.allowSampling node.id eligibleAt) := fun _ =>
    .of_now (le_refl _) rfl rfl rfl rfl rfl rfl
  exact (hallow _).trans (aside_sendRpc w _ _)

theorem aside_handleError (message : KrpcMessage) (source : SocketAddrV4) (c : DhtCrawler) :
    Aside c (c.handleError message source) := by
  rw [handleError]
  split
  · exact aside_emitStat _ c
  · next pending _ =>
    split
    · exact aside_emitStat _ c
    · have hclosed := (aside_resolveRpc message.transactionId pending .failed c).trans
        (aside_chargeFailure pending _)
      exact (hclosed.trans (aside_updateLookups_elim _ RealLookupTracker.failure _)).trans
        (aside_emitStat _ _)

/-! ## The queue -/

theorem effects_requeue (rpc : PendingRpc) (c : DhtCrawler) :
    Effects x turn c₀ c (c.requeue rpc) := by
  rw [requeue]
  split
  · exact .single (.offered _)
  · exact .refl

theorem effects_expireOne (c : DhtCrawler) (transaction : Bytes) :
    Effects x turn c₀ c (c.expireOne transaction) := by
  rw [expireOne]
  split
  · exact .refl
  · next rpc _ =>
    have hclosed := (aside_resolveRpc transaction rpc .timedOut c).trans (aside_chargeFailure rpc _)
    have hended : ∀ c : DhtCrawler, Aside c
        ((rpc.lookupId.elim c fun id => c.updateLookups (.timeout id)).emitStat .rpcTimedOut) :=
      fun c => (aside_updateLookups_elim rpc.lookupId RealLookupTracker.timeout c).trans
        (aside_emitStat _ _)
    exact (hclosed.effects.trans (effects_requeue rpc _)).tail (.aside (hended _))

theorem effects_expirePending (w : Surroundings) (c : DhtCrawler) :
    Effects x turn c₀ c (c.expirePending w) := by
  have hsweep : Aside c { c with rpcs := { c.rpcs with pool := c.rpcs.pool.sweep } } :=
    .of_now (le_refl _) rfl rfl rfl rfl rfl rfl
  exact hsweep.effects.trans (Effects.foldl (fun c transaction => effects_expireOne c transaction) _ _)

theorem effects_publishDiscovery (w : Surroundings) (infoHash : InfoHash)
    (peers : List PeerContact) (source : DiscoverySource) (c : DhtCrawler) :
    Effects x turn c₀ c (c.publishDiscovery w infoHash peers source) := by
  rw [publishDiscovery]
  split
  · exact .refl
  · have hcount : Aside c
        { c with infoHashesFound := min (c.infoHashesFound + 1) (2 ^ 64 - 1) } :=
      .of_now (le_refl _) rfl rfl rfl rfl rfl rfl
    exact (hcount.effects.tail (.offered infoHash)).tail (.aside (aside_enqueueDiscovery w _ _))

theorem effects_seedInfoHashes (w : Surroundings) (hashes : List InfoHash) (c : DhtCrawler) :
    Effects x turn c₀ c (c.seedInfoHashes w hashes) := by
  refine Effects.foldl (fun c hash => ?_) hashes c
  have hoffered : Effects x turn c₀ c (c.queueHash hash).2 := .single (.offered hash)
  simp only
  split
  · exact hoffered.tail (.aside (aside_enqueueDiscovery w _ _))
  · exact hoffered

/-! ## Queries -/

theorem effects_getPeersResponse (w : Surroundings) (args : KrpcMap) (transaction : Bytes)
    (source : SocketAddrV4) (c : DhtCrawler) :
    Effects x turn c₀ c (c.getPeersResponse x w args transaction source).2 := by
  rw [getPeersResponse]
  split
  · exact .refl
  · exact (effects_publishDiscovery w _ _ _ c).tail .expired

theorem effects_announcePeerResponse {data t : Bytes} {y : String} {a extra : KrpcMap}
    {source : SocketAddrV4} (hmessage : KrpcMessage.fromBytes x.decode (data.take maxPacketSize) =
      .ok (.query t y "announce_peer" a extra)) (hnow : c.now = c₀.now)
    (hsecret : c.tokenSecret = c₀.tokenSecret) :
    Effects x (w, .packet data source) c₀ c (c.announcePeerResponse x w a t source).2 := by
  rw [announcePeerResponse]
  split
  · exact .refl
  · next infoHash hinfoHash =>
    by_cases htoken : c.hasValidToken x w a source = true
    · simp only [htoken, Bool.not_true, Bool.false_eq_true, if_false]
      split
      · exact .refl
      · next port hport =>
        have hvalid : c₀.hasValidToken x w a source = true := by
          rw [hasValidToken, ← hsecret]
          exact htoken
        have hcached : Effect x (w, .packet data source) c₀ c
            (c.cachePeer w infoHash ⟨⟨source.ip, port⟩⟩) :=
          .cached hnow (.announced rfl hmessage hinfoHash hvalid hport rfl)
        exact (Relation.ReflTransGen.single hcached).trans (effects_publishDiscovery w _ _ _ _)
    · rw [Bool.not_eq_true] at htoken
      simp only [htoken, Bool.not_false, if_true]
      exact .refl

theorem effects_answerQuery {data t : Bytes} {y q : String} {a extra : KrpcMap}
    {source : SocketAddrV4} (hmessage : KrpcMessage.fromBytes x.decode (data.take maxPacketSize) =
      .ok (.query t y q a extra)) (hnow : c.now = c₀.now)
    (hsecret : c.tokenSecret = c₀.tokenSecret) :
    Effects x (w, .packet data source) c₀ c (c.answerQuery x w t q a source).2 := by
  rw [answerQuery]
  simp only
  split
  · exact .refl
  · split
    · exact .refl
    · split
      · exact effects_getPeersResponse w a t source c
      · split
        · next hannounce =>
          subst hannounce
          exact effects_announcePeerResponse hmessage hnow hsecret
        · split <;> exact .refl

theorem effects_handleQuery {data t : Bytes} {y q : String} {a extra : KrpcMap}
    {source : SocketAddrV4} (hmessage : KrpcMessage.fromBytes x.decode (data.take maxPacketSize) =
      .ok (.query t y q a extra)) (w : Surroundings) (c : DhtCrawler) :
    Effects x (w, .packet data source) c c (c.handleQuery x w (.query t y q a extra) source) := by
  rw [handleQuery]
  split
  · exact .refl
  · -- The node of the query is remembered first, which no one sees here.
    have hnote : Aside c ((KrpcMessage.query t y q a extra).extractNodeId.elim c fun id =>
        c.noteProvisional w id source) ∧ ((KrpcMessage.query t y q a extra).extractNodeId.elim c
          fun id => c.noteProvisional w id source).now = c.now := by
      cases (KrpcMessage.query t y q a extra).extractNodeId with
      | none => exact ⟨.refl c, rfl⟩
      | some id => exact ⟨.of_now (le_refl _) rfl rfl rfl rfl rfl rfl, rfl⟩
    have hreply : ∀ (c : DhtCrawler) (sent : SocketAddrV4 × KrpcMessage),
        Aside c { c with outbox := sent :: c.outbox } := fun _ _ =>
      .of_now (le_refl _) rfl rfl rfl rfl rfl rfl
    exact (hnote.1.effects.trans (effects_answerQuery hmessage hnote.2 hnote.1.secret)).tail
      (.aside (hreply _ _))

/-! ## Responses -/

theorem now_cachePeer (w : Surroundings) (hash : InfoHash) (peer : PeerContact) (c : DhtCrawler) :
    (c.cachePeer w hash peer).now = c.now := by
  rw [cachePeer]
  split <;> rfl

theorem effects_gatherPeers {event : Event} {hash : InfoHash} {peers : List PeerContact}
    (isRealLookup : Bool) (hnow : c.now = c₀.now)
    (hbrings : ∀ peer ∈ peers, Brings x (w, event) c₀ hash peer) :
    Effects x (w, event) c₀ c (c.gatherPeers w hash peers isRealLookup) := by
  have hcache : Effects x (w, event) c₀ c
      (peers.foldl (fun c peer => c.cachePeer w hash peer) c) := by
    clear isRealLookup
    induction peers generalizing c with
    | nil => exact .refl
    | cons peer peers ih =>
      have hfirst : Effect x (w, event) c₀ c (c.cachePeer w hash peer) :=
        .cached hnow (hbrings peer List.mem_cons_self)
      have hrest := ih ((now_cachePeer w hash peer c).trans hnow)
        fun other h => hbrings other (List.mem_cons_of_mem _ h)
      exact hrest.head hfirst
  rw [gatherPeers]
  split
  · exact hcache.trans (effects_publishDiscovery w _ _ _ _)
  · exact hcache

theorem effects_answerGetPeers {event : Event} {message : KrpcMessage} {pending : PendingRpc}
    (hnow : c.now = c₀.now) (hbrings : ∀ hash, pending.infoHash = some hash →
      ∀ peer ∈ message.parseGetPeersResponse.1, Brings x (w, event) c₀ hash peer) :
    Effects x (w, event) c₀ c (c.answerGetPeers w message pending) := by
  rw [answerGetPeers]
  simp only
  have hrecorded : Aside c (c.recordGetPeersResponse (!message.parseGetPeersResponse.1.isEmpty)) := by
    rw [recordGetPeersResponse]
    split <;> exact ⟨rfl, rfl, rfl, rfl, rfl, rfl, rfl, le_refl _⟩
  have hadmitted := hrecorded.trans (aside_admitCandidates message.parseGetPeersResponse.2 _)
  have hsame : ((c.recordGetPeersResponse (!message.parseGetPeersResponse.1.isEmpty)).admitCandidates
      message.parseGetPeersResponse.2).now = c.now := by
    have hcalls := (sameCalls_admitCandidates message.parseGetPeersResponse.2
      (c.recordGetPeersResponse (!message.parseGetPeersResponse.1.isEmpty))).rpcs
    exact congrArg (fun r : RpcState => r.pool.clock) hcalls
  refine hadmitted.effects.trans ?_
  generalize admitCandidates _ _ = c₁ at hsame ⊢
  have hended := aside_updateLookups_elim pending.lookupId
    (fun id => RealLookupTracker.respond id (!message.parseGetPeersResponse.1.isEmpty))
    (c₁.followGetPeers w message pending)
  refine Relation.ReflTransGen.tail ?_ (.aside hended)
  rw [followGetPeers]
  simp only
  split
  · exact .refl
  · next hash hhash =>
    exact (effects_gatherPeers pending.isRealLookup (hsame.trans hnow) (hbrings hash hhash)).tail
      (.aside (aside_continueGetPeers w hash _ pending _))

theorem effects_answerSample (w : Surroundings) (message : KrpcMessage) (source : SocketAddrV4)
    (c : DhtCrawler) : Effects x turn c₀ c (c.answerSample w message source) := by
  rw [answerSample]
  split
  · exact (aside_emitStat _ c).effects
  · next response _ =>
    simp only
    have hallow : Aside c (c.allowSampling response.nodeId
        (c.now + max response.interval c.config.samplingMinRemoteInterval)) :=
      .of_now (le_refl _) rfl rfl rfl rfl rfl rfl
    refine (hallow.trans (aside_admitCandidates response.nodes _)).effects.trans ?_
    refine Relation.ReflTransGen.tail (Effects.foldl (fun c hash => ?_) response.samples _)
      (.aside (aside_emitStat _ _))
    exact (effects_publishDiscovery w _ _ _ c).tail (.aside (aside_emitStat _ _))

theorem effects_acceptResponse {event : Event} {message : KrpcMessage} {source : SocketAddrV4}
    {pending : PendingRpc} (responseId : NodeId) (hnow : c.now = c₀.now)
    (hbrings : pending.method = .getPeers → ∀ hash, pending.infoHash = some hash →
      ∀ peer ∈ message.parseGetPeersResponse.1, Brings x (w, event) c₀ hash peer) :
    Effects x (w, event) c₀ c (c.acceptResponse w message source pending responseId) := by
  rw [acceptResponse]
  simp only
  generalize hseen : emitStat _ (emitStat _ _) = c₁
  have haside : Aside c c₁ := hseen ▸ .of_now (le_refl _) rfl rfl rfl rfl rfl rfl
  have hnow₁ : c₁.now = c₀.now := (hseen ▸ rfl : c₁.now = c.now).trans hnow
  refine haside.effects.trans ?_
  split
  · exact .refl
  · exact ((aside_admitCandidates _ c₁).trans (aside_continueFindNode w _ pending _)).effects
  · next hmethod => exact effects_answerGetPeers hnow₁ (hbrings hmethod)
  · exact effects_answerSample w message source c₁

theorem effects_handleResponse {data : Bytes} {message : KrpcMessage} {source : SocketAddrV4}
    (hmessage : KrpcMessage.fromBytes x.decode (data.take maxPacketSize) = .ok message)
    (w : Surroundings) (c : DhtCrawler) :
    Effects x (w, .packet data source) c c (c.handleResponse w message source) := by
  rw [handleResponse]
  cases hcorrelate : correlateResponse c.rpcs.pool.pending message source with
  | unsolicited | unexpectedSource => exact (aside_emitStat _ c).effects
  | malformed pending =>
    have hclosed := (aside_resolveRpc message.transactionId pending .malformed c).trans
      (aside_emitStat .rpcMalformed _)
    exact (hclosed.trans (aside_updateLookups_elim _ RealLookupTracker.failure _)).effects
  | accepted pending responseId =>
    have hclosed := aside_resolveRpc message.transactionId pending (.answered message) c
    refine hclosed.effects.trans (effects_acceptResponse responseId rfl ?_)
    intro hmethod hash hhash peer hpeer
    exact .answered rfl hmessage hcorrelate hmethod hhash hpeer

/-! ## Events -/

theorem effects_packet (w : Surroundings) (data : Bytes) (source : SocketAddrV4) (c : DhtCrawler) :
    Effects x (w, .packet data source) c c (c.handle x w (.packet data source)) := by
  rw [handle]
  split
  · exact .refl
  · rw [handlePacket]
    cases hmessage : KrpcMessage.fromBytes x.decode (data.take maxPacketSize) with
    | error => exact (aside_emitStat _ c).effects
    | ok message =>
      cases message with
      | query t y q a extra => exact effects_handleQuery hmessage w c
      | response t y r extra => exact effects_handleResponse hmessage w c
      | error t y e extra => exact (aside_handleError _ source c).effects

/-- What `discover_peers` does after it has looked at the queue. -/
theorem effects_discoverPeers (w : Surroundings) (random : InfoHash) (resolved : List SocketAddrV4)
    (c : DhtCrawler) :
    Effects x turn c₀ (c.expirePending w).popHash.2 (c.discoverPeers w random resolved) := by
  rw [discoverPeers]
  generalize (c.expirePending w).popHash = popped
  obtain ⟨hash, c₁⟩ := popped
  simp only
  split
  · refine Relation.ReflTransGen.tail ?_ (.aside (aside_bootstrap w resolved _))
    cases hash with
    | none => exact .refl
    | some hash => exact .single (.offered hash)
  · exact (aside_lookupHash w _ _ _ c₁).effects

/-- What an event does. Only the tick of the lookups takes a hash from the queue. -/
theorem effects_handle (w : Surroundings) (event : Event) (c : DhtCrawler)
    (hevent : ∀ random resolved, event ≠ .discoveryTick random resolved) :
    Effects x (w, event) c c (c.handle x w event) := by
  cases event with
  | seedInfoHashes hashes => exact effects_seedInfoHashes w hashes c
  | seedNodes nodes => exact (aside_seedNodes nodes c).effects
  | bootstrap resolved => exact (aside_bootstrap w resolved c).effects
  | packet data source => exact effects_packet w data source c
  | discoveryTick random resolved => exact absurd rfl (hevent random resolved)
  | samplingTick order targets =>
    rw [handle]
    split
    · exact (aside_sampleRandomNodes w order targets c).effects
    · exact .refl
  | refreshTick => exact (effects_expirePending w c).tail .expired
  | statsTick => exact (aside_emitStat _ c).effects

end DhtCrawler

end Btfind
