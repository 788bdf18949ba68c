import Btfind.Dht.RpcSteps

/-!
# Failures of live nodes

What the calls to the routing table of a run do to its live nodes, and that no event lets
a live node fail more often, or go, unless a failure is counted against it.
-/

namespace Btfind

open Quarantine RoutingTable

/-! ## The routing table of a run -/

namespace LiveTable

variable {t : LiveTable} {id : NodeId} {addr : SocketAddrV4} {node : NodeContact}

theorem effect (op : TableOp) (t : LiveTable) :
    ∃ ret, TableEffect t.table op (t.apply op).table ret := by
  obtain ⟨depth, hsound⟩ := t.sound
  obtain ⟨t', ret, _, happly, _, heffect⟩ := apply_sound hsound op
  refine ⟨ret, ?_⟩
  have htable : (t.apply op).table = t' := by
    rw [apply]
    simp only [happly, Option.get_some]
  rw [htable]
  exact heffect

theorem live_addCandidate (contact : NodeContact) (t : LiveTable) (k : NodeId) :
    (t.apply (.addCandidate contact)).table.live k = t.table.live k := by
  obtain ⟨ret, heffect⟩ := t.effect (.addCandidate contact)
  cases heffect with
  | same h => exact h.live k
  | validated hop => cases hop

theorem validated {op : TableOp} (hop : op.validation = some (id, addr)) (t : LiveTable) :
    ∃ entered, Validated t.table id addr (t.apply op).table entered := by
  obtain ⟨ret, heffect⟩ := t.effect op
  cases heffect with
  | same => cases hop
  | validated hop' h =>
    rw [hop] at hop'
    cases hop'
    exact ⟨_, h⟩
  | failed => cases hop

theorem live_recordFailure (id : NodeId) (t : LiveTable) (k : NodeId) :
    (t.apply (.recordFailure id)).table.live k =
      if k = id then
        (t.table.live id).bind fun record =>
          if record.unanswered + 1 < badAfterFailures then
            some { record with unanswered := record.unanswered + 1 }
          else none
      else t.table.live k := by
  obtain ⟨ret, heffect⟩ := t.effect (.recordFailure id)
  cases heffect with
  | validated hop => cases hop
  | failed _ _ hlive => exact hlive k

/-- A live contact is the contact of its id. -/
theorem live_of_mem (t : LiveTable) (h : node ∈ t.table.liveContacts) :
    ∃ record, t.table.live node.id = some record ∧ record.contact = node := by
  obtain ⟨depth, hsound⟩ := t.sound
  obtain ⟨b, hb, hnode⟩ := List.mem_flatMap.mp h
  obtain ⟨e, he, rfl⟩ := List.mem_map.mp hnode
  have hlookup : b.nodes.lookup e.1 = some e.2 := AList.lookup_eq_some_iff.mpr he
  have hok := hsound.buckets b hb
  obtain ⟨before, after, hbuckets⟩ := List.append_of_mem hb
  have hloc : t.table.Located e.1 before b after := ⟨hbuckets, hok.placed _ _ hlookup⟩
  rw [hok.named _ _ hlookup]
  exact ⟨e.2, (hloc.live hsound).trans hlookup, rfl⟩

theorem not_live_of_mem_closest {target : NodeId} {count : Nat} (t : LiveTable)
    (h : node ∈ t.table.closestCandidates target count) : t.table.live node.id = none := by
  obtain ⟨depth, hsound⟩ := t.sound
  exact hsound.contactsOk.unvalidated node
    ((List.perm_insertionSort _ _).subset (List.mem_of_mem_take h))

/-- The node is not live at another address. -/
def recordedAt (node : NodeContact) (t : LiveTable) : Bool :=
  (t.table.live node.id).all fun record => record.contact.addr = node.addr

theorem recordedAt_iff : t.recordedAt node = true ↔
    ∀ record, t.table.live node.id = some record → record.contact.addr = node.addr := by
  rw [recordedAt]
  cases t.table.live node.id <;> simp

theorem recordedAt_of_mem (t : LiveTable) (h : node ∈ t.table.liveContacts) :
    t.recordedAt node = true := by
  obtain ⟨record, hlive, rfl⟩ := t.live_of_mem h
  rw [recordedAt_iff, hlive]
  intro found hfound
  cases hfound
  rfl

end LiveTable

namespace DhtCrawler

variable {c c' c'' : DhtCrawler}

/-! ## Counters -/

/-- A live node with more failures than before, or one that is no longer live, has a
failure counted against it. -/
def Accounted (c c' : DhtCrawler) : Prop :=
  ∃ new, c'.charges = new ++ c.charges ∧ ∀ id record, c.routing.table.live id = some record →
    (∃ charge ∈ new, charge.id = id) ∨
      ∃ record', c'.routing.table.live id = some record' ∧ record'.unanswered ≤ record.unanswered

theorem Accounted.trans (h : Accounted c c') (h' : Accounted c' c'') : Accounted c c'' := by
  obtain ⟨new, hnew, hlive⟩ := h
  obtain ⟨new', hnew', hlive'⟩ := h'
  refine ⟨new' ++ new, by rw [hnew', hnew, List.append_assoc], fun id record hrecord => ?_⟩
  obtain ⟨charge, hcharge, hid⟩ | ⟨record', hrecord', hle⟩ := hlive id record hrecord
  · exact .inl ⟨charge, List.mem_append_right _ hcharge, hid⟩
  · obtain ⟨charge, hcharge, hid⟩ | ⟨record'', hrecord'', hle'⟩ := hlive' id record' hrecord'
    · exact .inl ⟨charge, List.mem_append_left _ hcharge, hid⟩
    · exact .inr ⟨record'', hrecord'', hle'.trans hle⟩

/-- The failures of the live nodes are as before. -/
theorem accounted_of_live (hlive : ∀ id, c'.routing.table.live id = c.routing.table.live id)
    (hcharges : c'.charges = c.charges) : Accounted c c' :=
  ⟨[], hcharges, fun id record hrecord => .inr ⟨record, (hlive id).trans hrecord, le_refl _⟩⟩

theorem SameCore.accounted (h : SameCore c c') : Accounted c c' :=
  accounted_of_live (fun _ => by rw [h.routing]) h.charges

theorem Accounted.foldl {α : Type} {f : DhtCrawler → α → DhtCrawler}
    (hf : ∀ c a, Accounted c (f c a)) (l : List α) (c : DhtCrawler) :
    Accounted c (l.foldl f c) := by
  induction l generalizing c with
  | nil => exact (SameCore.refl c).accounted
  | cons a l ih => exact (hf c a).trans (ih (f c a))

theorem accounted_sendRpc (w : Surroundings) (request : RpcRequest) (c : DhtCrawler) :
    Accounted c (c.sendRpc w request) := by
  rw [DhtCrawler.sendRpc]
  split <;> exact accounted_of_live (fun _ => rfl) rfl

theorem accounted_updateLookups (lookupId : Option (BitVec 64))
    (f : BitVec 64 → RealLookupTracker → RealLookupTracker) (c : DhtCrawler) :
    Accounted c (lookupId.elim c fun id => c.updateLookups (f id)) := by
  cases lookupId <;> exact accounted_of_live (fun _ => rfl) rfl

theorem accounted_validate (op : TableOp) {id : NodeId} {addr : SocketAddrV4}
    (hop : op.validation = some (id, addr)) (hrouting : c'.routing = c.routing.apply op)
    (hcharges : c'.charges = c.charges) : Accounted c c' := by
  obtain ⟨entered, hvalid⟩ := LiveTable.validated hop c.routing
  refine ⟨[], hcharges, fun id' record hrecord => .inr ?_⟩
  rw [hrouting]
  by_cases heq : id' = id
  · subst heq
    rw [hvalid.own, hrecord, Option.isSome_some, Bool.or_true, if_pos rfl]
    exact ⟨_, rfl, Nat.zero_le _⟩
  · exact ⟨record, (hvalid.other id' heq).trans hrecord, le_refl _⟩

theorem accounted_chargeFailure (rpc : PendingRpc) (c : DhtCrawler) :
    Accounted c (c.chargeFailure rpc) := by
  rw [DhtCrawler.chargeFailure]
  split
  · exact (SameCore.refl c).accounted
  · next id _ =>
    have hother : ∀ k, k ≠ id → (c.routing.apply (.recordFailure id)).table.live k =
        c.routing.table.live k := fun k hk => by rw [LiveTable.live_recordFailure, if_neg hk]
    -- A failure of a node that is not live is not counted, and changes no record.
    cases hlive : c.routing.table.live id with
    | none =>
      refine accounted_of_live (fun k => ?_) rfl
      show (c.routing.apply (.recordFailure id)).table.live k = _
      rw [LiveTable.live_recordFailure, hlive]
      split
      · next heq => rw [heq, hlive]; rfl
      · rfl
    | some record =>
      refine ⟨[⟨id, record.contact.addr, rpc⟩], rfl, fun k old hold => ?_⟩
      by_cases hk : k = id
      · exact .inl ⟨_, List.mem_cons_self, hk.symm⟩
      · exact .inr ⟨old, (hother k hk).trans hold, le_refl _⟩

theorem accounted_expireOne (c : DhtCrawler) (transaction : Bytes) :
    Accounted c (c.expireOne transaction) := by
  rw [DhtCrawler.expireOne]
  split
  · exact (SameCore.refl c).accounted
  · next rpc _ =>
    have hresolve : Accounted c (c.resolveRpc transaction rpc .timedOut) :=
      accounted_of_live (fun _ => rfl) rfl
    have hcharge := (hresolve.trans (accounted_chargeFailure rpc _)).trans
      (sameCore_requeue rpc _).accounted
    exact (hcharge.trans (accounted_updateLookups rpc.lookupId _ _)).trans
      (sameCore_emitStat _ _).accounted

theorem accounted_expirePending (w : Surroundings) (c : DhtCrawler) :
    Accounted c (c.expirePending w) := by
  have hsweep : Accounted c { c with rpcs := { c.rpcs with pool := c.rpcs.pool.sweep } } :=
    accounted_of_live (fun _ => rfl) rfl
  exact hsweep.trans (Accounted.foldl accounted_expireOne _ _)

theorem accounted_admitCandidates (nodes : List NodeContact) (c : DhtCrawler) :
    Accounted c (c.admitCandidates nodes) := by
  refine Accounted.foldl (fun c node => ?_) _ c
  exact accounted_of_live (fun id => LiveTable.live_addCandidate node c.routing id) rfl

theorem accounted_sendAll {α : Type} (w : Surroundings) {g : DhtCrawler → α → DhtCrawler}
    (hg : ∀ c a, SameCore c (g c a)) (q : α → RpcRequest) (l : List α) (c : DhtCrawler) :
    Accounted c (l.foldl (fun c a => (g c a).sendRpc w (q a)) c) :=
  Accounted.foldl (fun c a => (hg c a).accounted.trans (accounted_sendRpc w (q a) _)) l c

theorem accounted_answerGetPeers (w : Surroundings) (message : KrpcMessage) (pending : PendingRpc)
    (c : DhtCrawler) : Accounted c (c.answerGetPeers w message pending) := by
  rw [DhtCrawler.answerGetPeers]
  simp only
  refine Accounted.trans ?_ (accounted_updateLookups pending.lookupId _ _)
  have hrecord : Accounted c (c.recordGetPeersResponse (!message.parseGetPeersResponse.1.isEmpty)) :=
    accounted_of_live (fun _ => rfl) rfl
  refine (hrecord.trans (accounted_admitCandidates message.parseGetPeersResponse.2 _)).trans ?_
  rw [DhtCrawler.followGetPeers]
  simp only
  split
  · exact (SameCore.refl _).accounted
  · next hash _ =>
    refine (sameCore_gatherPeers w hash message.parseGetPeersResponse.1
      pending.isRealLookup _).accounted.trans ?_
    rw [DhtCrawler.continueGetPeers]
    split
    · exact (SameCore.refl _).accounted
    · exact accounted_sendAll w (fun c _ => .refl c) _ _ _

theorem accounted_answerSample (w : Surroundings) (message : KrpcMessage) (source : SocketAddrV4)
    (c : DhtCrawler) : Accounted c (c.answerSample w message source) := by
  rw [answerSample]
  split
  · exact (sameCore_emitStat _ c).accounted
  · next response _ =>
    simp only
    have hallow : SameCore c (c.allowSampling response.nodeId
        (c.now + max response.interval c.config.samplingMinRemoteInterval)) := ⟨rfl, rfl, rfl, rfl⟩
    refine (hallow.accounted.trans (accounted_admitCandidates response.nodes _)).trans ?_
    refine Accounted.trans (Accounted.foldl (fun c hash => ?_) response.samples _)
      (sameCore_emitStat _ _).accounted
    exact ((sameCore_publishDiscovery w _ _ _ c).trans (sameCore_emitStat _ _)).accounted

theorem accounted_acceptResponse (w : Surroundings) (message : KrpcMessage) (source : SocketAddrV4)
    (pending : PendingRpc) (id : NodeId) (c : DhtCrawler) :
    Accounted c (c.acceptResponse w message source pending id) := by
  rw [DhtCrawler.acceptResponse]
  simp only
  generalize hvalidate : emitStat _ (emitStat _ _) = c₁
  have hvalid : Accounted c c₁ := accounted_validate (.markValidated id source) rfl
    (hvalidate ▸ rfl) (hvalidate ▸ rfl)
  refine hvalid.trans ?_
  split
  · exact (SameCore.refl _).accounted
  · refine (accounted_admitCandidates message.responseNodes c₁).trans ?_
    rw [DhtCrawler.continueFindNode]
    split
    · exact (SameCore.refl _).accounted
    · exact accounted_sendAll w (fun c _ => .refl c) _ _ _
  · exact accounted_answerGetPeers w message pending c₁
  · exact accounted_answerSample w message source c₁

theorem accounted_handleResponse (w : Surroundings) (message : KrpcMessage) (source : SocketAddrV4)
    (c : DhtCrawler) : Accounted c (c.handleResponse w message source) := by
  rw [DhtCrawler.handleResponse]
  split
  · exact (sameCore_emitStat _ c).accounted
  · exact (sameCore_emitStat _ c).accounted
  · next pending _ =>
    have hresolve : Accounted c ((c.resolveRpc message.transactionId pending .malformed).emitStat
        .rpcMalformed) := accounted_of_live (fun _ => rfl) rfl
    exact hresolve.trans (accounted_updateLookups pending.lookupId _ _)
  · next pending id _ =>
    have hresolve : Accounted c (c.resolveRpc message.transactionId pending (.answered message)) :=
      accounted_of_live (fun _ => rfl) rfl
    exact hresolve.trans (accounted_acceptResponse w message source pending id _)

theorem accounted_handleError (message : KrpcMessage) (source : SocketAddrV4) (c : DhtCrawler) :
    Accounted c (c.handleError message source) := by
  rw [DhtCrawler.handleError]
  split
  · exact (sameCore_emitStat _ c).accounted
  · next pending _ =>
    split
    · exact (sameCore_emitStat _ c).accounted
    · have hresolve : Accounted c (c.resolveRpc message.transactionId pending .failed) :=
        accounted_of_live (fun _ => rfl) rfl
      exact ((hresolve.trans (accounted_chargeFailure pending _)).trans
        (accounted_updateLookups pending.lookupId _ _)).trans (sameCore_emitStat _ _).accounted

theorem accounted_bootstrap (w : Surroundings) (resolved : List SocketAddrV4) (c : DhtCrawler) :
    Accounted c (c.bootstrap w resolved) := by
  refine Accounted.foldl (fun c addr => ?_) resolved c
  have hroots : Accounted c { c with rpcs := { c.rpcs with roots := c.rpcs.roots + 1 } } :=
    accounted_of_live (fun _ => rfl) rfl
  exact hroots.trans (accounted_sendRpc w _ _)

theorem accounted_discoverPeers (w : Surroundings) (random : InfoHash)
    (resolved : List SocketAddrV4) (c : DhtCrawler) :
    Accounted c (c.discoverPeers w random resolved) := by
  have hpop := (accounted_expirePending w c).trans (sameCore_popHash _).accounted
  rw [DhtCrawler.discoverPeers]
  simp only
  generalize (c.expirePending w).popHash = popped at hpop ⊢
  obtain ⟨hash, c₁⟩ := popped
  refine hpop.trans ?_
  simp only
  split
  · refine Accounted.trans ?_ (accounted_bootstrap w resolved _)
    cases hash with
    | none => exact (SameCore.refl c₁).accounted
    | some hash => exact (sameCore_queueHash hash c₁).accounted
  · rw [DhtCrawler.lookupHash]
    split
    · have hbegin : Accounted c₁ (c₁.updateLookups fun lookups => lookups.begin.2) :=
        accounted_of_live (fun _ => rfl) rfl
      exact (hbegin.trans (accounted_sendAll w (fun c _ => .refl c) _ _ _)).trans
        (accounted_of_live (fun _ => rfl) rfl)
    · exact accounted_sendAll w (fun c _ => .refl c) _ _ _

/-- No event lets a live node fail more often, or go, without a charge. -/
theorem accounted_step (x : Externals) (c : DhtCrawler) (turn : Turn) :
    Accounted c (step x c turn) := by
  obtain ⟨w, event⟩ := turn
  have hwait : Accounted c (c.wait w.elapsed) := accounted_of_live (fun _ => rfl) rfl
  refine hwait.trans ?_
  show Accounted (c.wait w.elapsed) ((c.wait w.elapsed).handle x w event)
  generalize c.wait w.elapsed = c
  cases event with
  | seedInfoHashes hashes => exact (sameCore_seedInfoHashes w hashes c).accounted
  | seedNodes nodes =>
    refine Accounted.foldl (fun c node => ?_) nodes c
    exact accounted_validate (.addNode node.id node.addr) rfl rfl rfl
  | bootstrap resolved => exact accounted_bootstrap w resolved c
  | packet data source =>
    rw [handle]
    split
    · exact (SameCore.refl c).accounted
    · rw [DhtCrawler.handlePacket]
      split
      · exact (sameCore_emitStat _ c).accounted
      · split
        · exact (sameCore_handleQuery x w _ source c).accounted
        · exact accounted_handleResponse w _ source c
        · exact accounted_handleError _ source c
  | discoveryTick random resolved => exact accounted_discoverPeers w random resolved c
  | samplingTick order targets =>
    rw [handle]
    split
    · have hround : Accounted c
          { c with samplingRoundId := (c.samplingRoundId + 1) % 2 ^ 64 } :=
        accounted_of_live (fun _ => rfl) rfl
      exact hround.trans (accounted_sendAll w (g := fun c' (node : NodeContact) =>
        c'.allowSampling node.id (c.now + c'.config.samplingMinRemoteInterval))
        (fun c node => ⟨rfl, rfl, rfl, rfl⟩) _ _ _)
    · exact (SameCore.refl c).accounted
  | refreshTick =>
    exact (accounted_expirePending w c).trans (sameCore_expirePeerCache _).accounted
  | statsTick => exact (sameCore_emitStat _ c).accounted

end DhtCrawler

end Btfind
