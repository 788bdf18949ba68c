import Btfind.Dht.Effects
import Btfind.Dht.PublicPeers
import Btfind.Library.Recency

/-!
# The cache of announced peers

A peer stays in the cache for a fixed time after the packet that brought it. The table and each
of its lists stay small, and a query is answered with the peers that have not expired.
-/

namespace Btfind

open Quarantine Recency

namespace DhtCrawler

variable {c c' c₀ : DhtCrawler} {x : Externals} {turn : Turn} {config : DhtConfig}
  {hash : InfoHash} {peer : PeerContact} {w : Surroundings}

/-! ## One peer -/

/-- The list that the cache has for a hash, if any. -/
def cachedPeers (hash : InfoHash) (c : DhtCrawler) : List CachedPeer :=
  (c.peerCache.lookup hash).getD []

/-- The list for a hash after one of its peers was announced. -/
def refreshed (hash : InfoHash) (peer : PeerContact) (c : DhtCrawler) : List CachedPeer :=
  remember CachedPeer.peer c.config.announcedPeersPerHash
    ⟨peer, c.now + c.config.announcedPeerTtl⟩ (c.cachedPeers hash)

/-- The table without its oldest hash, if it is full and a new one is to come. -/
def makeRoom (w : Surroundings) (hash : InfoHash) (c : DhtCrawler) :
    KeyedTable InfoHash (List CachedPeer) :=
  if (c.peerCache.lookup hash).isNone ∧ c.config.announcedPeerHashCapacity ≤ c.peerCache.count then
    match (orderBy w.hashOrder c.peerCache.keys).head? with
    | some oldest => c.peerCache.erase oldest
    | none => c.peerCache
  else c.peerCache

theorem lookup_makeRoom (w : Surroundings) (hash hash' : InfoHash) (c : DhtCrawler) :
    (c.makeRoom w hash).lookup hash' = c.peerCache.lookup hash' ∨
      (c.makeRoom w hash).lookup hash' = none := by
  rw [makeRoom]
  split
  · split
    · next oldest _ =>
      rw [AList.lookup_erase_eq]
      split
      · exact .inr rfl
      · exact .inl rfl
    · exact .inl rfl
  · exact .inl rfl

/-- A hash that is in the table is not the one that makes room. -/
theorem lookup_makeRoom_self (w : Surroundings) (hash : InfoHash) (c : DhtCrawler) :
    (c.makeRoom w hash).lookup hash = c.peerCache.lookup hash := by
  obtain h | h := lookup_makeRoom w hash hash c
  · exact h
  · rw [h]
    cases hrow : c.peerCache.lookup hash with
    | none => rfl
    | some peers =>
      have hsame : c.makeRoom w hash = c.peerCache := by
        rw [makeRoom, if_neg]
        rw [hrow]
        exact fun hnone => Bool.false_ne_true hnone.1
      rw [hsame, hrow] at h
      cases h

theorem count_insert_makeRoom (hcapacity : c.config.announcedPeerHashCapacity ≠ 0)
    (hfew : c.peerCache.count ≤ c.config.announcedPeerHashCapacity) (peers : List CachedPeer) :
    ((c.makeRoom w hash).insert hash peers).count ≤ c.config.announcedPeerHashCapacity := by
  have hself := lookup_makeRoom_self w hash c
  cases hrow : c.peerCache.lookup hash with
  | some old =>
    rw [hrow] at hself
    rw [AList.count_insert_of_some hself, makeRoom, if_neg]
    · exact hfew
    · rw [hrow]
      exact fun hnone => Bool.false_ne_true hnone.1
  | none =>
    rw [hrow] at hself
    rw [AList.count_insert_of_none hself]
    by_cases hfull : c.config.announcedPeerHashCapacity ≤ c.peerCache.count
    · rw [makeRoom, if_pos ⟨by rw [hrow]; rfl, hfull⟩]
      split
      · next oldest holdest =>
        have hmem : oldest ∈ c.peerCache.keys :=
          (perm_orderBy _ _).subset (List.mem_of_mem_head? holdest)
        obtain ⟨row, hlookup⟩ := Option.isSome_iff_exists.mp (AList.lookup_isSome.mpr hmem)
        rw [AList.count_erase_of_some hlookup]
        exact hfew
      · next hnone =>
        -- A table without hashes is not full.
        have hkeys : c.peerCache.keys = [] := by
          have hperm := perm_orderBy w.hashOrder c.peerCache.keys
          rw [List.head?_eq_none_iff.mp hnone] at hperm
          exact List.nil_perm.mp hperm
        rw [AList.count_eq_zero_of_keys hkeys] at hfull
        exact absurd (Nat.le_zero.mp hfull) hcapacity
    · rw [makeRoom, if_neg fun hboth => hfull hboth.2]
      exact Nat.not_le.mp hfull

theorem cachePeer_eq (w : Surroundings) (hash : InfoHash) (peer : PeerContact)
    (hcapacity : c.config.announcedPeerHashCapacity ≠ 0)
    (hlimit : c.config.announcedPeersPerHash ≠ 0) :
    c.cachePeer w hash peer =
      { c with peerCache := (c.makeRoom w hash).insert hash (c.refreshed hash peer) } := by
  have hrefreshed : c.refreshed hash peer = remember CachedPeer.peer c.config.announcedPeersPerHash
      ⟨peer, c.now + c.config.announcedPeerTtl⟩ (((c.makeRoom w hash).lookup hash).getD []) := by
    rw [refreshed, cachedPeers, lookup_makeRoom_self]
  rw [cachePeer, if_neg (not_or.mpr ⟨hcapacity, hlimit⟩), hrefreshed]
  rfl

/-! ## The invariant -/

/-- What holds of the cache; the origin of a peer is known. -/
structure CacheOk (config : DhtConfig) (origin : InfoHash → CachedPeer → Prop) (c : DhtCrawler) :
    Prop where
  config_eq : c.config = config
  few : c.peerCache.count ≤ config.announcedPeerHashCapacity
  nonempty : ∀ hash peers, c.peerCache.lookup hash = some peers → peers ≠ []
  ordered : ∀ hash peers, c.peerCache.lookup hash = some peers →
    Ordered CachedPeer.peer CachedPeer.expiresAt config.announcedPeersPerHash
      (c.now + config.announcedPeerTtl) peers
  origin : ∀ hash peers, c.peerCache.lookup hash = some peers → ∀ cached ∈ peers, origin hash cached

variable {origin origin' : InfoHash → CachedPeer → Prop}

theorem CacheOk.mono (h : CacheOk config origin c)
    (horigin : ∀ hash cached, origin hash cached → origin' hash cached) :
    CacheOk config origin' c :=
  ⟨h.config_eq, h.few, h.nonempty, h.ordered,
    fun hash peers hrow cached hmem => horigin hash cached (h.origin hash peers hrow cached hmem)⟩

/-- Time may pass. -/
theorem CacheOk.of_eq (h : CacheOk config origin c) (hconfig : c'.config = c.config)
    (hcache : c'.peerCache = c.peerCache) (hnow : c.now ≤ c'.now) : CacheOk config origin c' where
  config_eq := hconfig.trans h.config_eq
  few := by
    rw [hcache]
    exact h.few
  nonempty := by
    rw [hcache]
    exact h.nonempty
  ordered := by
    intro hash peers hrow
    rw [hcache] at hrow
    exact (h.ordered hash peers hrow).mono (Nat.add_le_add_right hnow _)
  origin := by
    rw [hcache]
    exact h.origin

theorem CacheOk.ordered_cachedPeers (h : CacheOk config origin c) (hash : InfoHash) :
    Ordered CachedPeer.peer CachedPeer.expiresAt config.announcedPeersPerHash
      (c.now + config.announcedPeerTtl) (c.cachedPeers hash) := by
  rw [cachedPeers]
  cases hrow : c.peerCache.lookup hash with
  | none => exact ordered_nil
  | some peers => exact h.ordered hash peers hrow

theorem CacheOk.origin_cachedPeers (h : CacheOk config origin c) {cached : CachedPeer}
    (hmem : cached ∈ c.cachedPeers hash) : origin hash cached := by
  rw [cachedPeers] at hmem
  cases hrow : c.peerCache.lookup hash with
  | none =>
    rw [hrow] at hmem
    cases hmem
  | some peers =>
    rw [hrow] at hmem
    exact h.origin hash peers hrow cached hmem

theorem CacheOk.cachePeer (h : CacheOk config origin c) (w : Surroundings)
    (horigin : origin hash ⟨peer, c.now + config.announcedPeerTtl⟩) :
    CacheOk config origin (c.cachePeer w hash peer) := by
  by_cases hzero : c.config.announcedPeerHashCapacity = 0 ∨ c.config.announcedPeersPerHash = 0
  · rw [DhtCrawler.cachePeer, if_pos hzero]
    exact h
  · obtain ⟨hcapacity, hlimit⟩ := not_or.mp hzero
    have hlist : Ordered CachedPeer.peer CachedPeer.expiresAt config.announcedPeersPerHash
        (c.now + config.announcedPeerTtl) (c.refreshed hash peer) := by
      rw [refreshed, h.config_eq]
      rw [h.config_eq] at hlimit
      let arrived : CachedPeer := ⟨peer, c.now + config.announcedPeerTtl⟩
      have hnow : c.now + config.announcedPeerTtl ≤ arrived.expiresAt := le_refl _
      exact (h.ordered_cachedPeers hash).remember (Nat.pos_of_ne_zero hlimit) hnow
    -- The row of the hash is new; every other one is as before, or gone.
    have hlookup : ∀ hash' peers, (c.cachePeer w hash peer).peerCache.lookup hash' = some peers →
        hash' = hash ∧ peers = c.refreshed hash peer ∨
          c.peerCache.lookup hash' = some peers := by
      intro hash' peers hrow
      rw [cachePeer_eq w hash peer hcapacity hlimit, AList.lookup_insert_eq] at hrow
      split at hrow
      · next heq => exact .inl ⟨heq, (Option.some.inj hrow).symm⟩
      · obtain hsame | hgone := lookup_makeRoom w hash hash' c
        · exact .inr (hsame.symm.trans hrow)
        · rw [hgone] at hrow
          cases hrow
    have hsame : (c.cachePeer w hash peer).now = c.now := now_cachePeer w hash peer c
    refine ⟨?_, ?_, ?_, ?_, ?_⟩
    · rw [cachePeer_eq w hash peer hcapacity hlimit]
      exact h.config_eq
    · have hfew := h.few
      rw [← h.config_eq] at hfew ⊢
      rw [cachePeer_eq w hash peer hcapacity hlimit]
      exact count_insert_makeRoom hcapacity hfew _
    · intro hash' peers hrow
      obtain ⟨-, rfl⟩ | hold := hlookup hash' peers hrow
      · exact remember_ne_nil
      · exact h.nonempty hash' peers hold
    · intro hash' peers hrow
      rw [hsame]
      obtain ⟨-, rfl⟩ | hold := hlookup hash' peers hrow
      · exact hlist
      · exact h.ordered hash' peers hold
    · intro hash' peers hrow cached hmem
      obtain ⟨rfl, rfl⟩ | hold := hlookup hash' peers hrow
      · obtain hmem | rfl := mem_remember hmem
        · exact h.origin_cachedPeers hmem
        · rw [h.config_eq]
          exact horigin
      · exact h.origin hash' peers hold cached hmem

/-- The peers of a hash that have not expired at some time. -/
def livePeers (hash : InfoHash) (time : Nat) (c : DhtCrawler) : List CachedPeer :=
  (c.cachedPeers hash).filter fun cached => time < cached.expiresAt

/-- The cache keeps the peers that have not expired, and no empty list. -/
theorem lookup_expirePeerCache (hash : InfoHash) (c : DhtCrawler) :
    c.expirePeerCache.peerCache.lookup hash =
      if c.livePeers hash c.now = [] then none else some (c.livePeers hash c.now) := by
  rw [expirePeerCache]
  simp only
  rw [AList.lookup_keep, AList.lookup_mapRows, livePeers, cachedPeers]
  cases c.peerCache.lookup hash with
  | none => rfl
  | some peers =>
    simp only [Option.map_some, Option.getD_some, Option.filter_some, Bool.not_eq_true',
      List.isEmpty_eq_false_iff]
    by_cases hlive : peers.filter (fun cached => decide (c.now < cached.expiresAt)) = []
    · rw [if_pos hlive, if_neg (not_not_intro hlive)]
    · rw [if_neg hlive, if_pos hlive]

theorem CacheOk.expirePeerCache (h : CacheOk config origin c) :
    CacheOk config origin c.expirePeerCache := by
  have hlookup : ∀ hash peers, c.expirePeerCache.peerCache.lookup hash = some peers →
      peers ≠ [] ∧ peers = c.livePeers hash c.now := by
    intro hash peers hrow
    rw [lookup_expirePeerCache] at hrow
    split at hrow
    · cases hrow
    · next hlive =>
      obtain rfl := Option.some.inj hrow
      exact ⟨hlive, rfl⟩
  refine ⟨h.config_eq, ?_, ?_, ?_, ?_⟩
  · refine le_trans ?_ h.few
    rw [DhtCrawler.expirePeerCache]
    simp only [AList.keep, AList.count, AList.mapRows]
    exact (List.length_filter_le _ _).trans (le_of_eq (List.length_map _))
  · exact fun hash peers hrow => (hlookup hash peers hrow).1
  · intro hash peers hrow
    rw [(hlookup hash peers hrow).2]
    exact (h.ordered_cachedPeers hash).sublist List.filter_sublist
  · intro hash peers hrow cached hmem
    rw [(hlookup hash peers hrow).2] at hmem
    exact h.origin_cachedPeers (List.mem_of_mem_filter hmem)

/-! ## Runs -/

theorem peerCache_queueHash (hash : InfoHash) (c : DhtCrawler) :
    (c.queueHash hash).2.peerCache = c.peerCache := by
  rw [queueHash]
  split
  · rfl
  · split
    · rfl
    · split <;> rfl

/-- Equal calls come with equal clocks. -/
theorem SameCore.now_eq (h : SameCore c c') : c'.now = c.now :=
  congrArg (fun r : RpcState => r.pool.clock) h.rpcs

theorem CacheOk.effects (h : CacheOk config origin c) (heffects : Effects x turn c₀ c c')
    (hbrings : ∀ hash peer, Brings x turn c₀ hash peer →
      origin hash ⟨peer, c₀.now + config.announcedPeerTtl⟩) : CacheOk config origin c' := by
  refine heffects.invariant (fun c₁ c₂ hc₁ heffect => ?_) h
  cases heffect with
  | aside haside => exact hc₁.of_eq haside.config haside.cache haside.now
  | offered hash =>
    have hcore := sameCore_queueHash hash c₁
    exact hc₁.of_eq hcore.config (peerCache_queueHash hash c₁) (le_of_eq hcore.now_eq.symm)
  | cached hnow hpeer =>
    refine hc₁.cachePeer turn.1 ?_
    rw [hnow]
    exact hbrings _ _ hpeer
  | expired => exact hc₁.expirePeerCache

theorem CacheOk.step (h : CacheOk config origin c) (x : Externals) (turn : Turn)
    (hbrings : ∀ hash peer, Brings x turn (c.wait turn.1.elapsed) hash peer →
      origin hash ⟨peer, (c.wait turn.1.elapsed).now + config.announcedPeerTtl⟩) :
    CacheOk config origin (step x c turn) := by
  obtain ⟨w, event⟩ := turn
  have hwait : CacheOk config origin (c.wait w.elapsed) :=
    h.of_eq rfl rfl (aside_wait w.elapsed c).now
  have hother : (∀ random resolved, event ≠ .discoveryTick random resolved) →
      CacheOk config origin (DhtCrawler.step x c (w, event)) := fun hevent =>
    hwait.effects (effects_handle w event _ hevent) hbrings
  cases event with
  | discoveryTick random resolved =>
    have hexpire := hwait.effects (effects_expirePending w _) hbrings
    have hpop : CacheOk config origin ((c.wait w.elapsed).expirePending w).popHash.2 := by
      have hcore := sameCore_popHash ((c.wait w.elapsed).expirePending w)
      refine hexpire.of_eq hcore.config ?_ (le_of_eq hcore.now_eq.symm)
      rw [popHash]
      split <;> rfl
    exact hpop.effects (effects_discoverPeers w random resolved _) hbrings
  | _ => exact hother (by rintro _ _ ⟨⟩)

/-- A turn of the run brought the peer, and it expires one lifetime later. -/
def Received (x : Externals) (start : DhtCrawler) (turns : List Turn) (hash : InfoHash)
    (cached : CachedPeer) : Prop :=
  ∃ before turn after, turns = before ++ turn :: after ∧
    Brings x turn ((run x start before).wait turn.1.elapsed) hash cached.peer ∧
    cached.expiresAt =
      ((run x start before).wait turn.1.elapsed).now + start.config.announcedPeerTtl

theorem Received.append {start : DhtCrawler} {turns : List Turn} {cached : CachedPeer}
    (h : Received x start turns hash cached) (later : List Turn) :
    Received x start (turns ++ later) hash cached := by
  obtain ⟨before, turn, after, rfl, hrest⟩ := h
  exact ⟨before, turn, after ++ later, List.append_assoc _ _ _, hrest⟩

theorem cacheOk_run (x : Externals) {start : DhtCrawler} (hstart : start.peerCache = ∅)
    (turns : List Turn) :
    CacheOk start.config (Received x start turns) (run x start turns) := by
  induction turns using List.reverseRecOn with
  | nil =>
    have hnone : ∀ hash peers, start.peerCache.lookup hash ≠ some peers := by
      intro hash peers hrow
      rw [hstart] at hrow
      cases hrow
    refine ⟨rfl, ?_, ?_, ?_, ?_⟩
    · show start.peerCache.count ≤ _
      rw [hstart]
      exact Nat.zero_le _
    all_goals exact fun hash peers hrow => absurd hrow (hnone hash peers)
  | append_singleton turns turn ih =>
    have hlast : run x start (turns ++ [turn]) = step x (run x start turns) turn := by
      rw [run, List.foldl_append]
      rfl
    rw [hlast]
    refine (ih.mono fun _ _ h => h.append [turn]).step x turn fun hash peer hpeer => ?_
    exact ⟨turns, turn, [], rfl, hpeer, rfl⟩

/-! ## Queries -/

theorem peerCache_publishDiscovery (w : Surroundings) (infoHash : InfoHash)
    (peers : List PeerContact) (source : DiscoverySource) (c : DhtCrawler) :
    (c.publishDiscovery w infoHash peers source).peerCache = c.peerCache := by
  rw [publishDiscovery]
  split
  · rfl
  · exact (aside_enqueueDiscovery w _ _).cache.trans (peerCache_queueHash infoHash _)

/-- The list that a query for a hash is answered with. -/
def compactPeers (peers : List CachedPeer) : KrpcValue :=
  .list (peers.map fun cached => .bytes (encodeCompactPeer cached.peer))

/-- The values of an answer are the peers that have not expired, if there are any. -/
theorem getPeersResponse_values (x : Externals) (w : Surroundings) {args : KrpcMap} (t : Bytes)
    (source : SocketAddrV4) (hhash : fieldId args "info_hash" = some hash) (c : DhtCrawler) :
    ∃ r, (c.getPeersResponse x w args t source).1 = .response t "r" r [] ∧
      r.get "values" = if c.livePeers hash c.now = [] then none
        else some (compactPeers (c.livePeers hash c.now)) := by
  have hcore := sameCore_publishDiscovery w hash [] .inboundGetPeers c
  have hlive : ∀ time, (c.publishDiscovery w hash [] .inboundGetPeers).livePeers hash time =
      c.livePeers hash time := by
    intro time
    rw [livePeers, livePeers, cachedPeers, cachedPeers, peerCache_publishDiscovery]
  have hlookup := lookup_expirePeerCache hash (c.publishDiscovery w hash [] .inboundGetPeers)
  rw [hcore.now_eq, hlive] at hlookup
  have hget : ∀ (token value ourId : KrpcValue) (key : String),
      KrpcMap.get (SortedMap.insert id "id" ourId
        (SortedMap.insert id key value [("token", token)])) "values" =
          if "values" = key then some value else none := by
    intro token value ourId key
    rw [KrpcMap.get, SortedMap.lookup_insert Function.injective_id, if_neg (by decide),
      SortedMap.lookup_insert Function.injective_id]
    rfl
  rw [getPeersResponse, hhash]
  simp only
  rw [hlookup]
  by_cases hnone : c.livePeers hash c.now = []
  · rw [if_pos hnone, if_pos hnone]
    exact ⟨_, rfl, hget _ _ _ "nodes"⟩
  · rw [if_neg hnone, if_neg hnone]
    exact ⟨_, rfl, hget _ _ _ "values"⟩

theorem outbox_publishDiscovery (w : Surroundings) (infoHash : InfoHash)
    (peers : List PeerContact) (source : DiscoverySource) (c : DhtCrawler) :
    (c.publishDiscovery w infoHash peers source).outbox = c.outbox := by
  have hqueue : ∀ (c : DhtCrawler) hash, (c.queueHash hash).2.outbox = c.outbox := by
    intro c hash
    rw [queueHash]
    split
    · rfl
    · split
      · rfl
      · split <;> rfl
  rw [publishDiscovery]
  split
  · rfl
  · rw [enqueueDiscovery]
    split <;> exact hqueue _ infoHash

/-- The packet of a `get_peers` query is answered from the cache as it is when it arrives. -/
theorem step_getPeers {data t : Bytes} {source : SocketAddrV4} {y : String} {a extra : KrpcMap}
    (hdata : data ≠ []) (hpublic : isPublicEndpoint source = true)
    (hmessage : KrpcMessage.fromBytes x.decode (data.take maxPacketSize) =
      .ok (.query t y "get_peers" a extra))
    (hhash : fieldId a "info_hash" = some hash) (w : Surroundings) (c : DhtCrawler) :
    ∃ r, (step x c (w, .packet data source)).outbox = (source, .response t "r" r []) :: c.outbox ∧
      r.get "values" = if c.livePeers hash (c.now + w.elapsed) = [] then none
        else some (compactPeers (c.livePeers hash (c.now + w.elapsed))) := by
  let noted := (KrpcMessage.query t y "get_peers" a extra).extractNodeId.elim (c.wait w.elapsed)
    fun id => (c.wait w.elapsed).noteProvisional w id source
  have hstep : (step x c (w, .packet data source)).outbox =
      (source, (noted.getPeersResponse x w a t source).1) ::
        (noted.getPeersResponse x w a t source).2.outbox := by
    rw [step, handle, if_neg (mt List.isEmpty_iff.mp hdata), handlePacket, hmessage]
    simp only
    rw [handleQuery, hpublic]
    rfl
  have hnoted : noted.outbox = c.outbox ∧ noted.now = c.now + w.elapsed ∧
      noted.peerCache = c.peerCache := by
    show (Option.elim _ _ _ : DhtCrawler).outbox = _ ∧ (Option.elim _ _ _ : DhtCrawler).now = _ ∧
      (Option.elim _ _ _ : DhtCrawler).peerCache = _
    cases (KrpcMessage.query t y "get_peers" a extra).extractNodeId <;> exact ⟨rfl, rfl, rfl⟩
  have houtbox : (noted.getPeersResponse x w a t source).2.outbox = noted.outbox := by
    rw [getPeersResponse, hhash]
    exact outbox_publishDiscovery w hash [] .inboundGetPeers noted
  obtain ⟨r, hresponse, hvalues⟩ := getPeersResponse_values x w t source hhash noted
  refine ⟨r, ?_, ?_⟩
  · rw [hstep, hresponse, houtbox, hnoted.1]
  · rw [hvalues, hnoted.2.1, livePeers, cachedPeers, hnoted.2.2]
    rfl

/-- The cache is bounded, its lists are short, without repetitions and in the order of expiry, and
a query is answered with exactly the peers that have not expired. -/
theorem announced_peer_cache (x : Externals) (ourId : NodeId) (tokenSecret : Bytes)
    (config : DhtConfig) (clock : Nat) (nextTx : BitVec 16) (turns : List Turn) :
    let start := withConfig ourId tokenSecret config clock nextTx
    let c := run x start turns
    c.peerCache.count ≤ config.announcedPeerHashCapacity ∧
    (∀ hash peers, c.peerCache.lookup hash = some peers →
      peers ≠ [] ∧ peers.length ≤ config.announcedPeersPerHash ∧
      (peers.map CachedPeer.peer).Nodup ∧
      peers.Pairwise fun cached cached' => cached.expiresAt ≤ cached'.expiresAt) ∧
    ∀ w data source t y a extra hash, data ≠ [] → isPublicEndpoint source = true →
      KrpcMessage.fromBytes x.decode (data.take maxPacketSize) =
        .ok (.query t y "get_peers" a extra) →
      fieldId a "info_hash" = some hash →
      let time := c.now + w.elapsed
      let live := ((c.peerCache.lookup hash).getD []).filter fun cached => time < cached.expiresAt
      ∃ r, (step x c (w, .packet data source)).outbox = (source, .response t "r" r []) :: c.outbox ∧
        ((∃ values, r.get "values" = some (.list values)) ↔ live ≠ []) ∧
        (∀ value, r.get "values" = some value →
          value = .list (live.map fun cached => .bytes (encodeCompactPeer cached.peer))) ∧
        ∀ cached ∈ live, ∃ before turn after, turns = before ++ turn :: after ∧
          let arrival := (run x start before).wait turn.1.elapsed
          Brings x turn arrival hash cached.peer ∧ arrival.now ≤ time ∧
            time < arrival.now + config.announcedPeerTtl := by
  intro start c
  have hempty : start.peerCache = ∅ := rfl
  have hok : CacheOk config (Received x start turns) c := cacheOk_run x hempty turns
  refine ⟨hok.few, fun hash peers hrow => ?_, ?_⟩
  · have hrows := hok.ordered hash peers hrow
    exact ⟨hok.nonempty hash peers hrow, hrows.few, List.pairwise_map.mpr hrows.distinct,
      hrows.ordered⟩
  · intro w data source t y a extra hash hdata hpublic hmessage hhash time live
    obtain ⟨r, houtbox, hvalues⟩ := step_getPeers hdata hpublic hmessage hhash w c
    have hlive : c.livePeers hash time = live := rfl
    rw [hlive] at hvalues
    refine ⟨r, houtbox, ?_, ?_, fun cached hcached => ?_⟩
    · rw [hvalues]
      by_cases hnone : live = []
      · rw [if_pos hnone]
        exact iff_of_false (by rintro ⟨_, ⟨⟩⟩) (not_not_intro hnone)
      · rw [if_neg hnone]
        exact iff_of_true ⟨_, rfl⟩ hnone
    · intro value hvalue
      rw [hvalues] at hvalue
      split at hvalue
      · cases hvalue
      · exact (Option.some.inj hvalue).symm
    -- The entry dates from an announcement, whose time to live bounds both times.
    · obtain ⟨hmem, hfresh⟩ := List.mem_filter.mp hcached
      have hexpires := (hok.ordered_cachedPeers hash).bounded cached hmem
      obtain ⟨before, turn, after, hturns, hbrings, hexpiry⟩ := hok.origin_cachedPeers hmem
      rw [hexpiry] at hexpires
      refine ⟨before, turn, after, hturns, hbrings, ?_, ?_⟩
      · exact (Nat.le_of_add_le_add_right hexpires).trans (Nat.le_add_right _ _)
      · have hbefore : time < cached.expiresAt := of_decide_eq_true hfresh
        rwa [hexpiry] at hbefore

/-- A query for the hash of the announcement. -/
def peersQuery : KrpcMessage :=
  .query [0, 2] "q" "get_peers" [("id", .bytes (idToBytes 3)), ("info_hash", .bytes (idToBytes 5))] []

/-- A second after the announcement the query is answered with the peer. -/
theorem announced_peer_cache_announced :
    let x : Externals := ⟨BencodeValue.decode, fun b => b⟩
    let source : SocketAddrV4 := ⟨⟨9, 9, 9, 9⟩, 4000⟩
    let c := run x (.withConfig 1 [7] .default 0 0) announcement
    ∃ r, (step x c (.quiet (fromSecs 1), .packet (peersQuery.toBytes BencodeValue.encode)
        source)).outbox = (source, .response [0, 2] "r" r []) :: c.outbox ∧
      ∃ values, r.get "values" = some (.list values) := by
  intro x source c
  obtain ⟨-, -, hquery⟩ := announced_peer_cache x 1 [7] .default 0 0 announcement
  have hdata : peersQuery.toBytes BencodeValue.encode ≠ [] := by decide +kernel
  have hmessage : KrpcMessage.fromBytes x.decode
      ((peersQuery.toBytes BencodeValue.encode).take maxPacketSize) = .ok peersQuery := by rfl
  obtain ⟨r, houtbox, hvalues, -⟩ := hquery (.quiet (fromSecs 1)) _ source [0, 2] "q" _ [] 5 hdata
    (by decide) hmessage (by decide +kernel)
  exact ⟨r, houtbox, hvalues.mpr (by decide +kernel)⟩

end DhtCrawler

end Btfind
