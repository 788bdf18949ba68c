import Btfind.Dht.Moves

/-!
# The peers for the downloader

Every peer that the crawler keeps or hands on has a public address, and an announced peer has
the address that the announcement came from.
-/

namespace Btfind

/-! ## Sorted peers -/

namespace DhtCrawler

theorem addrRank_injective : Function.Injective addrRank := by
  rintro ⟨⟨a, b, c, d⟩, port⟩ ⟨⟨a', b', c', d'⟩, port'⟩ h
  simp only [addrRank, Ipv4Addr.octets, ofBeBytes, List.foldl_cons, List.foldl_nil] at h
  have hbytes : ∀ n : UInt8, n.toNat < 256 := fun n => n.toNat_lt
  have hports : ∀ n : UInt16, n.toNat < 65536 := fun n => n.toNat_lt
  have ha := hbytes a
  have hb := hbytes b
  have hc := hbytes c
  have hd := hbytes d
  have ha' := hbytes a'
  have hb' := hbytes b'
  have hc' := hbytes c'
  have hd' := hbytes d'
  have hp := hports port
  have hp' := hports port'
  obtain rfl : a = a' := UInt8.toNat_inj.mp (by omega)
  obtain rfl : b = b' := UInt8.toNat_inj.mp (by omega)
  obtain rfl : c = c' := UInt8.toNat_inj.mp (by omega)
  obtain rfl : d = d' := UInt8.toNat_inj.mp (by omega)
  obtain rfl : port = port' := UInt16.toNat_inj.mp (by omega)
  rfl

/-- Sorting and dropping repetitions leaves strictly ascending peers. -/
theorem preparePeers_ascending (limit : Nat) (peers : List PeerContact) :
    (preparePeers limit peers).Pairwise fun a b => addrRank a.addr < addrRank b.addr := by
  rw [preparePeers]
  apply List.Pairwise.sublist (List.take_sublist _ _)
  have hsorted := (pairwise_orderBy (fun peer : PeerContact => addrRank peer.addr) peers).sublist
    (List.destutter_sublist (fun a b : PeerContact => a ≠ b) _)
  have hdistinct := List.isChain_destutter (· ≠ ·)
    (orderBy (fun peer : PeerContact => addrRank peer.addr) peers)
  generalize List.destutter (fun a b : PeerContact => a ≠ b) _ = kept at hsorted hdistinct ⊢
  have htrans : IsTrans PeerContact fun a b => addrRank a.addr < addrRank b.addr :=
    ⟨fun _ _ _ h h' => lt_trans h h'⟩
  rw [← List.isChain_iff_pairwise, List.isChain_iff_getElem]
  rw [List.isChain_iff_getElem] at hdistinct
  intro i hi
  have hle := List.pairwise_iff_getElem.mp hsorted i (i + 1) (by omega) hi (Nat.lt_succ_self i)
  refine lt_of_le_of_ne hle fun heq => hdistinct i hi ?_
  cases hfirst : kept[i] with
  | mk first =>
    cases hsecond : kept[i + 1] with
    | mk second =>
      rw [hfirst, hsecond] at heq
      rw [show first = second from addrRank_injective heq]

theorem length_preparePeers (limit : Nat) (peers : List PeerContact) :
    (preparePeers limit peers).length ≤ limit := List.length_take_le _ _

theorem mem_of_mem_preparePeers {limit : Nat} {peers : List PeerContact} {peer : PeerContact}
    (h : peer ∈ preparePeers limit peers) : peer ∈ peers :=
  (perm_orderBy _ peers).subset
    ((List.destutter_sublist (fun a b : PeerContact => a ≠ b) _).subset (List.mem_of_mem_take h))

theorem preparePeers_singleton {limit : Nat} (hlimit : 1 ≤ limit) (peer : PeerContact) :
    preparePeers limit [peer] = [peer] := by
  show List.take limit [peer] = [peer]
  exact List.take_of_length_le hlimit

/-! ## What is kept and handed on -/

/-- What holds of a discovery for the downloader. -/
structure Handed (x : Externals) (secret : Bytes) (limit : Nat) (turns : List Turn)
    (discovery : HashDiscovery) : Prop where
  ascending : discovery.peers.Pairwise fun a b => addrRank a.addr < addrRank b.addr
  few : discovery.peers.length ≤ limit
  endpoints : ∀ peer ∈ discovery.peers, isPublicEndpoint peer.addr = true
  announced : discovery.source = .announcePeer →
    ∃ turn ∈ turns, ∃ peer, discovery.peers = [peer] ∧ Announced x secret turn peer

/-- What holds of the peers of a crawler after some turns. -/
structure PublicOnly (x : Externals) (secret : Bytes) (config : DhtConfig) (turns : List Turn)
    (c : DhtCrawler) : Prop where
  secret_eq : c.tokenSecret = secret
  config_eq : c.config = config
  handed : ∀ sent ∈ c.discoveries, Handed x secret config.maxPeersPerHash turns sent.1
  cached : ∀ hash peers, c.peerCache.lookup hash = some peers →
    ∀ cached ∈ peers, isPublicEndpoint cached.peer.addr = true

variable {x : Externals} {secret : Bytes} {config : DhtConfig} {turns : List Turn} {turn : Turn}
  {samples : List InfoHash} {c c' : DhtCrawler}

/-- A resumed hash is handed over without peers. -/
theorem handed_resumed {limit : Nat} (hash : InfoHash) :
    Handed x secret limit turns ⟨hash, [], .resume⟩ where
  ascending := .nil
  few := Nat.zero_le _
  endpoints := List.forall_mem_nil _
  announced := by rintro ⟨⟩

theorem Handed.mono {limit : Nat} {turns' : List Turn} {discovery : HashDiscovery}
    (hsub : ∀ turn ∈ turns, turn ∈ turns') (h : Handed x secret limit turns discovery) :
    Handed x secret limit turns' discovery where
  ascending := h.ascending
  few := h.few
  endpoints := h.endpoints
  announced := by
    intro hsource
    obtain ⟨turn, hturn, hrest⟩ := h.announced hsource
    exact ⟨turn, hsub turn hturn, hrest⟩

/-- The peers of a discovery do not depend on anything but what it is published with. -/
theorem Published.handed {peers : List PeerContact} {source : DiscoverySource} {limit : Nat}
    (hlimit : 1 ≤ limit) (hturn : turn ∈ turns) (hash : InfoHash)
    (h : Published x secret turn peers source) :
    Handed x secret limit turns ⟨hash, preparePeers limit peers, source⟩ where
  ascending := preparePeers_ascending limit peers
  few := length_preparePeers limit peers
  endpoints := by
    intro peer hpeer
    have hmem := mem_of_mem_preparePeers hpeer
    cases h with
    | peerless => cases hmem
    | answered hendpoints => exact hendpoints peer hmem
    | announced hannounced =>
      rw [List.mem_singleton.mp hmem]
      exact hannounced.endpoint
  announced := by
    intro hsource
    cases h with
    | peerless hannounce => exact absurd hsource hannounce
    | answered => cases hsource
    | announced hannounced =>
      exact ⟨turn, hturn, _, preparePeers_singleton hlimit _, hannounced⟩

/-- A part of a state on which the property depends. -/
theorem PublicOnly.of_eq (h : PublicOnly x secret config turns c)
    (hsecret : c'.tokenSecret = c.tokenSecret) (hconfig : c'.config = c.config)
    (hdiscoveries : c'.discoveries = c.discoveries) (hcache : c'.peerCache = c.peerCache) :
    PublicOnly x secret config turns c' := by
  refine ⟨hsecret.trans h.secret_eq, hconfig.trans h.config_eq, ?_, ?_⟩
  · rw [hdiscoveries]
    exact h.handed
  · rw [hcache]
    exact h.cached

theorem PublicOnly.queueHash (h : PublicOnly x secret config turns c) (hash : InfoHash) :
    PublicOnly x secret config turns (c.queueHash hash).2 := by
  rw [DhtCrawler.queueHash]
  split
  · exact h
  · split
    · exact h.of_eq rfl rfl rfl rfl
    · split <;> exact h.of_eq rfl rfl rfl rfl

theorem PublicOnly.enqueueDiscovery (h : PublicOnly x secret config turns c) (w : Surroundings)
    {discovery : HashDiscovery}
    (hdiscovery : Handed x secret config.maxPeersPerHash turns discovery) :
    PublicOnly x secret config turns (c.enqueueDiscovery w discovery) := by
  have hnew : ∀ accepted, ∀ sent ∈ (discovery, accepted) :: c.discoveries,
      Handed x secret config.maxPeersPerHash turns sent.1 := by
    intro accepted sent hsent
    obtain rfl | hsent := List.mem_cons.mp hsent
    · exact hdiscovery
    · exact h.handed sent hsent
  rw [DhtCrawler.enqueueDiscovery]
  split <;> exact ⟨h.secret_eq, h.config_eq, hnew _, h.cached⟩

theorem PublicOnly.cachePeer (h : PublicOnly x secret config turns c) (w : Surroundings)
    (hash : InfoHash) {peer : PeerContact} (hpeer : isPublicEndpoint peer.addr = true) :
    PublicOnly x secret config turns (c.cachePeer w hash peer) := by
  rw [DhtCrawler.cachePeer]
  split
  · exact h
  · simp only
    refine ⟨h.secret_eq, h.config_eq, h.handed, ?_⟩
    generalize hcache : (if (c.peerCache.lookup hash).isNone ∧
      c.config.announcedPeerHashCapacity ≤ c.peerCache.count then _ else c.peerCache) = cache
    -- An entry that made room may be gone, and the others are as before.
    have hold : ∀ k peers, cache.lookup k = some peers → c.peerCache.lookup k = some peers := by
      intro k peers hlookup
      rw [← hcache] at hlookup
      split at hlookup
      · split at hlookup
        · rw [AList.lookup_erase_eq] at hlookup
          split at hlookup
          · cases hlookup
          · exact hlookup
        · exact hlookup
      · exact hlookup
    have hcached : ∀ k, ∀ cached ∈ (cache.lookup k).getD [],
        isPublicEndpoint cached.peer.addr = true := by
      intro k cached hmem
      cases hlookup : cache.lookup k with
      | none =>
        rw [hlookup] at hmem
        cases hmem
      | some peers =>
        rw [hlookup] at hmem
        exact h.cached k peers (hold k peers hlookup) cached hmem
    intro k peers hlookup cached hmem
    rw [AList.lookup_insert_eq] at hlookup
    split at hlookup
    · rw [← Option.some.inj hlookup] at hmem
      obtain hmem | hmem := List.mem_append.mp hmem
      · refine hcached hash cached ?_
        split at hmem
        · exact (List.mem_filter.mp (List.mem_of_mem_tail hmem)).1
        · exact (List.mem_filter.mp hmem).1
      · rw [List.mem_singleton.mp hmem]
        exact hpeer
    · exact h.cached k peers (hold k peers hlookup) cached hmem

theorem PublicOnly.expirePeerCache (h : PublicOnly x secret config turns c) :
    PublicOnly x secret config turns c.expirePeerCache := by
  refine ⟨h.secret_eq, h.config_eq, h.handed, fun hash peers hlookup cached hmem => ?_⟩
  have hkeep : (c.expirePeerCache.peerCache.lookup hash) =
      ((c.peerCache.lookup hash).map fun peers => peers.filter fun peer => c.now < peer.expiresAt).filter
        fun peers => !peers.isEmpty := by
    rw [DhtCrawler.expirePeerCache]
    simp only
    rw [AList.lookup_keep, AList.lookup_mapRows]
  rw [hkeep] at hlookup
  obtain ⟨hlookup, -⟩ := Option.filter_eq_some_iff.mp hlookup
  obtain ⟨old, hold, rfl⟩ := Option.map_eq_some_iff.mp hlookup
  exact h.cached hash old hold cached (List.mem_filter.mp hmem).1

/-- Every part of an event keeps the peers public. -/
theorem PublicOnly.move (hlimit : 1 ≤ config.maxPeersPerHash) (hturn : turn ∈ turns)
    (h : PublicOnly x secret config turns c) (hmove : Move x turn samples c c') :
    PublicOnly x secret config turns c' := by
  cases hmove with
  | quiet hquiet =>
    exact h.of_eq (hquiet.keeps tokenSecret rfl) (hquiet.keeps DhtCrawler.config rfl)
      (hquiet.keeps discoveries rfl) (hquiet.keeps peerCache rfl)
  | stat | snapshot | sampled | reply => exact h.of_eq rfl rfl rfl rfl
  | call =>
    rw [sendRpc]
    split <;> exact h.of_eq rfl rfl rfl rfl
  | queued hash => exact h.queueHash hash
  | popped =>
    rw [popHash]
    split <;> exact h.of_eq rfl rfl rfl rfl
  | resumed hash =>
    rw [resumeHash]
    split
    · exact (h.queueHash hash).enqueueDiscovery _ (handed_resumed hash)
    · exact h.queueHash hash
  | published hash hpublished =>
    rw [h.secret_eq] at hpublished
    rw [publishDiscovery]
    split
    · exact h
    · have hcount : PublicOnly x secret config turns
          { c with infoHashesFound := min (c.infoHashesFound + 1) (2 ^ 64 - 1) } :=
        h.of_eq rfl rfl rfl rfl
      refine (hcount.queueHash hash).enqueueDiscovery _ ?_
      rw [h.config_eq]
      exact hpublished.handed hlimit hturn hash
  | cached hash hendpoint => exact h.cachePeer _ hash hendpoint
  | expired => exact h.expirePeerCache

theorem PublicOnly.step (hlimit : 1 ≤ config.maxPeersPerHash)
    (h : PublicOnly x secret config turns c) (turn : Turn) :
    PublicOnly x secret config (turns ++ [turn]) (step x c turn) := by
  have hwait : PublicOnly x secret config (turns ++ [turn]) (c.wait turn.1.elapsed) := by
    refine ⟨h.secret_eq, h.config_eq, fun sent hsent => (h.handed sent hsent).mono ?_, h.cached⟩
    exact fun old hold => List.mem_append_left _ hold
  refine (handled_handle x turn.1 turn.2 _).invariant ?_ ?_ ?_ hwait
  · intro c₁ c₂ hc₁ hmove
    exact hc₁.move hlimit (List.mem_append_right _ List.mem_cons_self) hmove
  · intro c₁ id eligibleAt hc₁
    exact hc₁.of_eq rfl rfl rfl rfl
  · intro c₁ request hc₁
    rw [sendRpc]
    split <;> exact hc₁.of_eq rfl rfl rfl rfl

theorem publicOnly_run (hlimit : 1 ≤ config.maxPeersPerHash)
    (h : PublicOnly x secret config turns c) (later : List Turn) :
    PublicOnly x secret config (turns ++ later) (run x c later) := by
  induction later generalizing turns c with
  | nil =>
    rw [List.append_nil]
    exact h
  | cons turn later ih =>
    have hrest := ih (h.step hlimit turn)
    rwa [List.append_assoc] at hrest

/-- Only public peers are kept, and only public peers are handed to the downloader. -/
theorem only_public_peers (x : Externals) (ourId : NodeId) (tokenSecret : Bytes)
    (config : DhtConfig) (hlimit : 1 ≤ config.maxPeersPerHash) (clock : Nat) (nextTx : BitVec 16)
    (turns : List Turn) :
    let c := run x (.withConfig ourId tokenSecret config clock nextTx) turns
    (∀ sent ∈ c.discoveries,
      (sent.1.peers.Pairwise fun a b => addrRank a.addr < addrRank b.addr) ∧
      sent.1.peers.length ≤ config.maxPeersPerHash ∧
      (∀ peer ∈ sent.1.peers, peer.addr.port ≠ 0 ∧ isPublicIpv4 peer.addr.ip = true) ∧
      (sent.1.source = .announcePeer → ∃ peer, sent.1.peers = [peer] ∧
        ∃ w data source t y a extra token, (w, .packet data source) ∈ turns ∧
          KrpcMessage.fromBytes x.decode (data.take maxPacketSize) =
            .ok (.query t y "announce_peer" a extra) ∧
          a.get "token" = some (.bytes token) ∧
          validateToken x.sha1 tokenSecret source.ip w.unixTime token = true ∧
          peer.addr.ip = source.ip)) ∧
    ∀ hash peers, c.peerCache.lookup hash = some peers →
      ∀ cached ∈ peers, cached.peer.addr.port ≠ 0 ∧ isPublicIpv4 cached.peer.addr.ip = true := by
  intro c
  have hstart : PublicOnly x tokenSecret config []
      (.withConfig ourId tokenSecret config clock nextTx) := ⟨rfl, rfl, nofun, nofun⟩
  have hrun := publicOnly_run hlimit hstart turns
  rw [List.nil_append] at hrun
  refine ⟨fun sent hsent => ?_, fun hash peers hlookup cached hcached => ?_⟩
  · have hhanded := hrun.handed sent hsent
    refine ⟨hhanded.ascending, hhanded.few,
      fun peer hpeer => isPublicEndpoint_iff.mp (hhanded.endpoints peer hpeer), fun hsource => ?_⟩
    obtain ⟨⟨w, event⟩, hturn, peer, hpeers, ⟨hpacket, -⟩⟩ := hhanded.announced hsource
    obtain ⟨data, source, t, y, a, extra, rfl, hmessage, ⟨token, hget, hvalid⟩, hip⟩ := hpacket
    exact ⟨peer, hpeers, w, data, source, t, y, a, extra, token, hturn, hmessage, hget, hvalid, hip⟩
  · exact isPublicEndpoint_iff.mp (hrun.cached hash peers hlookup cached hcached)

/-- A node announces itself with the token of its address. -/
def announcement : List Turn :=
  let source : SocketAddrV4 := ⟨⟨8, 8, 8, 8⟩, 4000⟩
  let token := makeToken (fun b => b) [7] source.ip 600
  let message := KrpcMessage.query [0, 1] "q" "announce_peer"
    [("id", .bytes (idToBytes 2)), ("info_hash", .bytes (idToBytes 5)), ("port", .int 6881),
      ("token", .bytes token)] []
  [({ Surroundings.quiet 0 with unixTime := 700 },
    .packet (message.toBytes BencodeValue.encode) source)]

theorem only_public_peers_announced :
    let c := run ⟨BencodeValue.decode, fun b => b⟩ (.withConfig 1 [7] .default 0 0) announcement
    c.discoveries.map (fun sent => (sent.1.source, peerAddrs sent.1.peers)) =
        [(.announcePeer, [⟨⟨8, 8, 8, 8⟩, 6881⟩])] ∧
      ∀ sent ∈ c.discoveries, sent.1.peers.length ≤ 64 := by
  refine ⟨by decide +kernel, fun sent hsent => ?_⟩
  exact ((only_public_peers ⟨BencodeValue.decode, fun b => b⟩ 1 [7] .default (by decide) 0 0
    announcement).1 sent hsent).2.1

end DhtCrawler

end Btfind
