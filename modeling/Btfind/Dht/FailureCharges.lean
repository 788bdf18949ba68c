import Btfind.Dht.FailureAccounts

/-!
# Whom a failure is counted against

A failure is counted against a live node by its id alone. It is counted against the node
that failed as long as the pending calls to live nodes go to the addresses that the table
has for them; a response that names a live node with another address breaks that.
-/

namespace Btfind

open Quarantine RoutingTable

namespace DhtCrawler

variable {c c' c'' : DhtCrawler} {w : Surroundings} {x : Externals}

/-- Whom a call goes to, if it is sent to a live node. -/
def AddressedIn (routing : LiveTable) (rpc : RpcRequest) : Prop :=
  ∀ id record, rpc.expectedNodeId = some id → routing.table.live id = some record →
    record.contact.addr = rpc.expectedAddr

/-- Every pending call to a live node goes to its recorded address. -/
def Aligned (c : DhtCrawler) : Prop :=
  ∀ k rpc, c.rpcs.pool.pending.lookup k = some rpc → AddressedIn c.routing rpc.toRpcRequest

/-- Every failure was counted for a call to the node at its recorded address, a call that
was not answered or was answered with an error. -/
def FairlyCharged (c : DhtCrawler) : Prop :=
  ∀ charge ∈ c.charges, charge.rpc.expectedNodeId = some charge.id ∧
    charge.rpc.expectedAddr = charge.addr ∧
    ∃ k t, .resolved k charge.rpc .timedOut t ∈ c.rpcs.pool.history ∨
      .resolved k charge.rpc .failed t ∈ c.rpcs.pool.history

structure Fair (c : DhtCrawler) : Prop where
  aligned : c.Aligned
  charged : c.FairlyCharged

/-- No call is added, no address of a live node is new, and no failure is counted. -/
structure Narrower (c c' : DhtCrawler) : Prop where
  pending : ∀ k rpc, c'.rpcs.pool.pending.lookup k = some rpc →
    c.rpcs.pool.pending.lookup k = some rpc
  live : ∀ id record, c'.routing.table.live id = some record →
    ∃ old, c.routing.table.live id = some old ∧ old.contact.addr = record.contact.addr
  history : ∀ a ∈ c.rpcs.pool.history, a ∈ c'.rpcs.pool.history
  charges : c'.charges = c.charges

theorem Narrower.trans (h : Narrower c c') (h' : Narrower c' c'') : Narrower c c'' where
  pending k rpc hk := h.pending k rpc (h'.pending k rpc hk)
  live id record hlive := by
    obtain ⟨old, hold, haddr⟩ := h'.live id record hlive
    obtain ⟨older, holder, haddr'⟩ := h.live id old hold
    exact ⟨older, holder, haddr'.trans haddr⟩
  history a ha := h'.history a (h.history a ha)
  charges := h'.charges.trans h.charges

theorem SameCore.narrower (h : SameCore c c') : Narrower c c' := by
  refine ⟨?_, ?_, ?_, h.charges⟩
  · rw [h.rpcs]
    exact fun _ _ hk => hk
  · rw [h.routing]
    exact fun _ record hlive => ⟨record, hlive, rfl⟩
  · rw [h.rpcs]
    exact fun _ ha => ha

theorem FairlyCharged.narrow (h : c.FairlyCharged)
    (hhistory : ∀ a ∈ c.rpcs.pool.history, a ∈ c'.rpcs.pool.history)
    (hcharges : c'.charges = c.charges) : c'.FairlyCharged := by
  intro charge hcharge
  rw [hcharges] at hcharge
  obtain ⟨hid, haddr, k, t, hended⟩ := h charge hcharge
  exact ⟨hid, haddr, k, t, hended.imp (hhistory _) (hhistory _)⟩

theorem Fair.narrow (h : Fair c) (hn : Narrower c c') : Fair c' where
  aligned k rpc hk id record hid hlive := by
    obtain ⟨old, hold, haddr⟩ := hn.live id record hlive
    exact haddr.symm.trans (h.aligned k rpc (hn.pending k rpc hk) id old hid hold)
  charged := h.charged.narrow hn.history hn.charges

theorem Narrower.foldl {α : Type} {f : DhtCrawler → α → DhtCrawler}
    (hf : ∀ c a, Narrower c (f c a)) (l : List α) (c : DhtCrawler) : Narrower c (l.foldl f c) := by
  induction l generalizing c with
  | nil => exact (SameCore.refl c).narrower
  | cons a l ih => exact (hf c a).trans (ih (f c a))

theorem narrower_admitCandidates (nodes : List NodeContact) (c : DhtCrawler) :
    Narrower c (c.admitCandidates nodes) := by
  refine Narrower.foldl (fun c node => ?_) _ c
  refine ⟨fun _ _ hk => hk, fun id record hlive => ?_, fun _ ha => ha, rfl⟩
  rw [LiveTable.live_addCandidate] at hlive
  exact ⟨record, hlive, rfl⟩

theorem narrower_resolveRpc (transaction : Bytes) (rpc : PendingRpc) (outcome : RpcOutcome)
    (c : DhtCrawler) : Narrower c (c.resolveRpc transaction rpc outcome) := by
  refine ⟨fun k rpc' hk => ?_, fun id record hlive => ⟨record, hlive, rfl⟩,
    fun a ha => List.mem_cons_of_mem _ ha, rfl⟩
  change (c.rpcs.pool.pending.erase transaction).lookup k = some rpc' at hk
  rw [AList.lookup_erase_eq] at hk
  split at hk
  · cases hk
  · exact hk

theorem narrower_updateLookups (lookupId : Option (BitVec 64))
    (f : BitVec 64 → RealLookupTracker → RealLookupTracker) (c : DhtCrawler) :
    Narrower c (lookupId.elim c fun id => c.updateLookups (f id)) := by
  cases lookupId <;>
    exact ⟨fun _ _ hk => hk, fun _ record hlive => ⟨record, hlive, rfl⟩, fun _ ha => ha, rfl⟩

/-! ## Calls -/

/-- A call to a live node goes to its recorded address. -/
theorem Fair.sendRpc (h : Fair c) (w : Surroundings) {request : RpcRequest}
    (hrequest : AddressedIn c.routing request) : Fair (c.sendRpc w request) := by
  have hcall : Called c.config.maxPendingRpcs c.config.rpcTimeout request c.rpcs _ :=
    RpcState.sendRpc_called w.sends request c.rpcs
  rw [← (sendRpc_rpcs w request c).1] at hcall
  have hrest : (c.sendRpc w request).routing = c.routing ∧
      (c.sendRpc w request).charges = c.charges := by
    rw [DhtCrawler.sendRpc]
    split <;> exact ⟨rfl, rfl⟩
  refine ⟨fun k rpc hk => ?_, h.charged.narrow ?_ hrest.2⟩
  · rw [hrest.1]
    cases hcall with
    | unsent _ hpool =>
      rw [hpool] at hk
      exact h.aligned k rpc hk
    | sent _ tx _ _ hpool =>
      rw [hpool, Pool.issue, AList.lookup_insert_eq] at hk
      split at hk
      · cases hk
        exact hrequest
      · exact h.aligned k rpc hk
  · intro a ha
    cases hcall with
    | unsent _ hpool =>
      rw [hpool]
      exact ha
    | sent _ tx _ _ hpool =>
      rw [hpool]
      exact List.mem_cons_of_mem _ ha

theorem sendRpc_routing (w : Surroundings) (request : RpcRequest) (c : DhtCrawler) :
    (c.sendRpc w request).routing = c.routing := by
  rw [DhtCrawler.sendRpc]
  split <;> rfl

/-- Calls to the elements of a list, with other work in between. -/
theorem Fair.sendAll {α : Type} (h : Fair c) (w : Surroundings) {g : DhtCrawler → α → DhtCrawler}
    (hg : ∀ c a, SameCore c (g c a)) {q : α → RpcRequest} {l : List α}
    (hrequests : ∀ a ∈ l, AddressedIn c.routing (q a)) :
    Fair (l.foldl (fun c a => (g c a).sendRpc w (q a)) c) := by
  induction l generalizing c with
  | nil => exact h
  | cons a l ih =>
    have hcore := hg c a
    have hrouting : ((g c a).sendRpc w (q a)).routing = c.routing :=
      (sendRpc_routing w (q a) _).trans hcore.routing
    refine ih (Fair.sendRpc (h.narrow hcore.narrower) w ?_) fun b hb => ?_
    · rw [hcore.routing]
      exact hrequests a List.mem_cons_self
    · rw [hrouting]
      exact hrequests b (List.mem_cons_of_mem _ hb)

theorem addressedIn_of_recordedAt {routing : LiveTable} {node : NodeContact} {request : RpcRequest}
    (h : routing.recordedAt node = true) (hid : request.expectedNodeId = some node.id)
    (haddr : request.expectedAddr = node.addr) : AddressedIn routing request := by
  intro id record hexpected hlive
  rw [hid, Option.some_inj] at hexpected
  subst hexpected
  rw [haddr]
  exact LiveTable.recordedAt_iff.mp h record hlive

theorem addressedIn_of_none {routing : LiveTable} {request : RpcRequest}
    (hid : request.expectedNodeId = none) : AddressedIn routing request := by
  intro id record hexpected
  rw [hid] at hexpected
  cases hexpected

/-! ## Failures -/

theorem Fair.chargeFailure (h : Fair c) {rpc : PendingRpc}
    (hrpc : AddressedIn c.routing rpc.toRpcRequest)
    (hended : ∃ k t, .resolved k rpc .timedOut t ∈ c.rpcs.pool.history ∨
      .resolved k rpc .failed t ∈ c.rpcs.pool.history) : Fair (c.chargeFailure rpc) := by
  rw [DhtCrawler.chargeFailure]
  split
  · exact h
  · next id hid =>
    -- A failure moves no node to another address.
    have hlive : ∀ k record, (c.routing.apply (.recordFailure id)).table.live k = some record →
        ∃ old, c.routing.table.live k = some old ∧ old.contact.addr = record.contact.addr := by
      intro k record hk
      rw [LiveTable.live_recordFailure] at hk
      split at hk
      · next heq =>
        subst heq
        obtain ⟨old, hold, hnew⟩ := Option.bind_eq_some_iff.mp hk
        split at hnew
        · cases hnew
          exact ⟨old, hold, rfl⟩
        · cases hnew
      · exact ⟨record, hk, rfl⟩
    refine ⟨fun k rpc' hk id' record hid' hlive' => ?_, ?_⟩
    · obtain ⟨old, hold, haddr⟩ := hlive id' record hlive'
      exact haddr.symm.trans (h.aligned k rpc' hk id' old hid' hold)
    · intro charge hcharge
      simp only at hcharge
      split at hcharge
      · next record hrecord =>
        -- The call went to the recorded address, by the invariant about pending calls.
        obtain rfl | hold := List.mem_cons.mp hcharge
        · exact ⟨hid, (hrpc id record hid hrecord).symm, hended⟩
        · exact h.charged charge hold
      · exact h.charged charge hcharge

/-- The end of a pending call that failed. -/
theorem Fair.failed (h : Fair c) {transaction : Bytes} {rpc : PendingRpc} {outcome : RpcOutcome}
    (hpending : c.rpcs.pool.pending.lookup transaction = some rpc)
    (houtcome : outcome = .timedOut ∨ outcome = .failed) :
    Fair ((c.resolveRpc transaction rpc outcome).chargeFailure rpc) := by
  refine Fair.chargeFailure (h.narrow (narrower_resolveRpc transaction rpc outcome c))
    (h.aligned transaction rpc hpending) ⟨transaction, c.rpcs.pool.clock, ?_⟩
  obtain rfl | rfl := houtcome
  · exact .inl List.mem_cons_self
  · exact .inr List.mem_cons_self

theorem Fair.expireOne (h : Fair c) (transaction : Bytes) : Fair (c.expireOne transaction) := by
  rw [DhtCrawler.expireOne]
  split
  · exact h
  · next rpc hpending =>
    have hcharged := h.failed hpending (.inl rfl)
    have hqueued := hcharged.narrow (sameCore_requeue rpc _).narrower
    exact (hqueued.narrow (narrower_updateLookups rpc.lookupId _ _)).narrow
      (sameCore_emitStat _ _).narrower

theorem Fair.expirePending (h : Fair c) (w : Surroundings) : Fair (c.expirePending w) := by
  have hsweep : Fair { c with rpcs := { c.rpcs with pool := c.rpcs.pool.sweep } } :=
    h.narrow ⟨fun _ _ hk => hk, fun _ record hlive => ⟨record, hlive, rfl⟩, fun _ ha => ha, rfl⟩
  rw [DhtCrawler.expirePending]
  simp only
  generalize orderBy _ _ = transactions
  generalize DhtCrawler.mk _ _ _ _ _ _ _ _ _ _ _ _ _ _ _ _ _ _ = c at hsweep ⊢
  induction transactions generalizing c with
  | nil => exact hsweep
  | cons transaction transactions ih => exact ih _ (hsweep.expireOne transaction)

theorem Fair.handleError (h : Fair c) (message : KrpcMessage) (source : SocketAddrV4) :
    Fair (c.handleError message source) := by
  rw [DhtCrawler.handleError]
  split
  · exact h.narrow (sameCore_emitStat _ c).narrower
  · next pending hpending =>
    split
    · exact h.narrow (sameCore_emitStat _ c).narrower
    · have hcharged := h.failed hpending (.inr rfl)
      exact (hcharged.narrow (narrower_updateLookups pending.lookupId _ _)).narrow
        (sameCore_emitStat _ _).narrower

/-! ## Responses -/

/-- The calls that go to a node all go to this address. -/
def expectedAt (node : NodeContact) (pending : KeyedTable Bytes PendingRpc) : Bool :=
  pending.entries.all fun e => e.2.expectedNodeId ≠ some node.id || e.2.expectedAddr = node.addr

theorem addr_of_expectedAt {node : NodeContact} {pending : KeyedTable Bytes PendingRpc}
    (h : expectedAt node pending = true) {k : Bytes} {rpc : PendingRpc}
    (hk : pending.lookup k = some rpc) (hid : rpc.expectedNodeId = some node.id) :
    rpc.expectedAddr = node.addr := by
  have hrow := List.all_eq_true.mp h ⟨k, rpc⟩ (AList.lookup_eq_some_iff.mp hk)
  simpa [hid] using hrow

/-- A node is validated at the address at which the pending calls expect it. -/
theorem Fair.validate (h : Fair c) (op : TableOp) {id : NodeId} {addr : SocketAddrV4}
    (hop : op.validation = some (id, addr))
    (hexpected : expectedAt ⟨id, addr⟩ c.rpcs.pool.pending = true)
    (hrouting : c'.routing = c.routing.apply op) (hrpcs : c'.rpcs = c.rpcs)
    (hcharges : c'.charges = c.charges) : Fair c' := by
  obtain ⟨entered, hvalid⟩ := LiveTable.validated hop c.routing
  refine ⟨fun k rpc hk id' record hid hlive => ?_,
    h.charged.narrow (hrpcs ▸ fun _ ha => ha) hcharges⟩
  rw [hrpcs] at hk
  rw [hrouting] at hlive
  -- Only the record of the validated node changes, and its calls go to the new address.
  by_cases heq : id' = id
  · subst heq
    rw [hvalid.own] at hlive
    split at hlive
    · cases hlive
      exact (addr_of_expectedAt hexpected hk hid).symm
    · cases hlive
  · rw [hvalid.other id' heq] at hlive
    exact h.aligned k rpc hk id' record hid hlive

theorem Fair.seedNodes (h : Fair c) {nodes : List NodeContact}
    (hexpected : ∀ node ∈ nodes, expectedAt node c.rpcs.pool.pending = true) :
    Fair (c.seedNodes nodes) := by
  rw [DhtCrawler.seedNodes]
  induction nodes generalizing c with
  | nil => exact h
  | cons node nodes ih =>
    rw [List.foldl_cons]
    refine ih ?_ fun next hnext => hexpected next (List.mem_cons_of_mem _ hnext)
    exact h.validate (.addNode node.id node.addr) rfl (hexpected node List.mem_cons_self)
      rfl rfl rfl

theorem Fair.continueFindNode (h : Fair c) (w : Surroundings) {nodes : List NodeContact}
    {pending : PendingRpc} (hnodes : pending.continuationBudget ≠ 0 →
      ∀ node ∈ nodes.take lookupContinuationFanout, c.routing.recordedAt node = true) :
    Fair (c.continueFindNode w nodes pending) := by
  rw [DhtCrawler.continueFindNode]
  split
  · exact h
  · next hbudget =>
    exact h.sendAll w (fun c _ => .refl c) fun node hnode =>
      addressedIn_of_recordedAt (hnodes hbudget node hnode) rfl rfl

theorem Fair.continueGetPeers (h : Fair c) (w : Surroundings) (hash : InfoHash)
    {nodes : List NodeContact} {pending : PendingRpc}
    (hnodes : pending.continuationBudget ≠ 0 →
      ∀ node ∈ nodes.take lookupContinuationFanout, c.routing.recordedAt node = true) :
    Fair (c.continueGetPeers w hash nodes pending) := by
  rw [DhtCrawler.continueGetPeers]
  split
  · exact h
  · next hbudget =>
    exact h.sendAll w (fun c _ => .refl c) fun node hnode =>
      addressedIn_of_recordedAt (hnodes hbudget node hnode) rfl rfl

theorem live_admitCandidates (nodes : List NodeContact) (c : DhtCrawler) (id : NodeId) :
    (c.admitCandidates nodes).routing.table.live id = c.routing.table.live id := by
  rw [admitCandidates]
  generalize nodes.take _ = nodes
  induction nodes generalizing c with
  | nil => rfl
  | cons node nodes ih =>
    rw [List.foldl_cons, ih]
    exact LiveTable.live_addCandidate node c.routing id

theorem recordedAt_admitCandidates (nodes : List NodeContact) (c : DhtCrawler)
    (node : NodeContact) :
    (c.admitCandidates nodes).routing.recordedAt node = c.routing.recordedAt node := by
  unfold LiveTable.recordedAt
  rw [live_admitCandidates]

variable {message : KrpcMessage} {pending : PendingRpc}

theorem snd_parseGetPeersResponse (message : KrpcMessage) :
    message.parseGetPeersResponse.2 = message.responseNodes := by
  cases message <;> rfl

theorem Fair.answerGetPeers (h : Fair c) (w : Surroundings)
    (hnodes : pending.continuationBudget ≠ 0 →
      ∀ node ∈ message.responseNodes.take lookupContinuationFanout,
        c.routing.recordedAt node = true) :
    Fair (c.answerGetPeers w message pending) := by
  rw [DhtCrawler.answerGetPeers]
  simp only
  refine Fair.narrow ?_ (narrower_updateLookups pending.lookupId _ _)
  have hrecord : Fair (c.recordGetPeersResponse (!message.parseGetPeersResponse.1.isEmpty)) :=
    h.narrow (SameCore.narrower ⟨rfl, rfl, rfl, rfl⟩)
  have hadmitted := hrecord.narrow
    (narrower_admitCandidates message.parseGetPeersResponse.2 _)
  have hrecorded : ∀ node, ((c.recordGetPeersResponse
      (!message.parseGetPeersResponse.1.isEmpty)).admitCandidates
        message.parseGetPeersResponse.2).routing.recordedAt node = c.routing.recordedAt node :=
    fun node => recordedAt_admitCandidates _ _ node
  generalize admitCandidates _ _ = c₁ at hadmitted hrecorded
  rw [DhtCrawler.followGetPeers]
  simp only
  split
  · exact hadmitted
  · next hash _ =>
    have hgather := sameCore_gatherPeers w hash message.parseGetPeersResponse.1
      pending.isRealLookup c₁
    refine Fair.continueGetPeers (hadmitted.narrow hgather.narrower) w hash fun hbudget node hnode => ?_
    rw [hgather.routing, hrecorded]
    rw [snd_parseGetPeersResponse] at hnode
    exact hnodes hbudget node hnode

theorem narrower_answerSample (w : Surroundings) (message : KrpcMessage) (source : SocketAddrV4)
    (c : DhtCrawler) : Narrower c (c.answerSample w message source) := by
  rw [answerSample]
  split
  · exact (sameCore_emitStat _ c).narrower
  · next response _ =>
    simp only
    have hallow : SameCore c (c.allowSampling response.nodeId
        (c.now + max response.interval c.config.samplingMinRemoteInterval)) := ⟨rfl, rfl, rfl, rfl⟩
    refine (hallow.narrower.trans (narrower_admitCandidates response.nodes _)).trans ?_
    refine Narrower.trans (Narrower.foldl (fun c hash => ?_) response.samples _)
      (sameCore_emitStat _ _).narrower
    exact ((sameCore_publishDiscovery w _ _ _ c).trans (sameCore_emitStat _ _)).narrower

/-- The responder is validated where the other pending calls expect it, and the nodes of
the response that are asked next are named with their recorded addresses. -/
theorem Fair.acceptResponse (h : Fair c) (w : Surroundings) {source : SocketAddrV4} {id : NodeId}
    (hexpected : expectedAt ⟨id, source⟩ c.rpcs.pool.pending = true)
    (hnodes : pending.continuationBudget ≠ 0 →
      ∀ node ∈ message.responseNodes.take lookupContinuationFanout,
        (c.routing.apply (.markValidated id source)).recordedAt node = true) :
    Fair (c.acceptResponse w message source pending id) := by
  rw [DhtCrawler.acceptResponse]
  simp only
  generalize hvalidate : emitStat _ (emitStat _ _) = c₁
  have hrouting : c₁.routing = c.routing.apply (.markValidated id source) := hvalidate ▸ rfl
  have hfair : Fair c₁ := h.validate (.markValidated id source) rfl hexpected hrouting
    (hvalidate ▸ rfl) (hvalidate ▸ rfl)
  rw [← hrouting] at hnodes
  split
  · exact hfair
  · refine (hfair.narrow (narrower_admitCandidates _ c₁)).continueFindNode w fun hbudget node hnode => ?_
    rw [recordedAt_admitCandidates]
    exact hnodes hbudget node hnode
  · exact hfair.answerGetPeers w hnodes
  · exact hfair.narrow (narrower_answerSample w message source c₁)

/-- What the code does not check of a response that it accepts. -/
def truthful (message : KrpcMessage) (source : SocketAddrV4) (c : DhtCrawler) : Bool :=
  match correlateResponse c.rpcs.pool.pending message source with
  | .accepted pending id =>
    expectedAt ⟨id, source⟩ (c.rpcs.pool.pending.erase message.transactionId) &&
      (pending.continuationBudget = 0 ||
        (message.responseNodes.take lookupContinuationFanout).all
          (c.routing.apply (.markValidated id source)).recordedAt)
  | _ => true

theorem Fair.handleResponse (h : Fair c) (w : Surroundings) {source : SocketAddrV4}
    (htruthful : c.truthful message source = true) : Fair (c.handleResponse w message source) := by
  rw [truthful] at htruthful
  rw [DhtCrawler.handleResponse]
  split
  · exact h.narrow (sameCore_emitStat _ c).narrower
  · exact h.narrow (sameCore_emitStat _ c).narrower
  · next pending _ =>
    have hresolve := h.narrow (narrower_resolveRpc message.transactionId pending .malformed c)
    exact (hresolve.narrow (sameCore_emitStat _ _).narrower).narrow
      (narrower_updateLookups pending.lookupId _ _)
  · next pending id haccepted =>
    rw [haccepted] at htruthful
    simp only [Bool.and_eq_true, Bool.or_eq_true, decide_eq_true_eq, List.all_eq_true] at htruthful
    obtain ⟨hexpected, hnodes⟩ := htruthful
    exact Fair.acceptResponse
      (h.narrow (narrower_resolveRpc message.transactionId pending (.answered message) c)) w
      hexpected hnodes.resolve_left

theorem Fair.handlePacket (h : Fair c) (x : Externals) (w : Surroundings) (data : Bytes)
    (source : SocketAddrV4)
    (htruthful : ∀ message, KrpcMessage.fromBytes x.decode data = .ok message →
      c.truthful message source = true) : Fair (c.handlePacket x w data source) := by
  rw [DhtCrawler.handlePacket]
  split
  · exact h.narrow (sameCore_emitStat _ c).narrower
  · next message hmessage =>
    split
    · exact h.narrow (sameCore_handleQuery x w _ source c).narrower
    · exact h.handleResponse w (htruthful _ hmessage)
    · exact h.handleError _ source

/-! ## Ticks -/

theorem Fair.bootstrap (h : Fair c) (w : Surroundings) (resolved : List SocketAddrV4) :
    Fair (c.bootstrap w resolved) := by
  rw [DhtCrawler.bootstrap]
  induction resolved generalizing c with
  | nil => exact h
  | cons addr resolved ih =>
    rw [List.foldl_cons]
    have hroots : Fair { c with rpcs := { c.rpcs with roots := c.rpcs.roots + 1 } } :=
      h.narrow ⟨fun _ _ hk => hk, fun _ record hlive => ⟨record, hlive, rfl⟩, fun _ ha => ha, rfl⟩
    exact ih (hroots.sendRpc w (addressedIn_of_none rfl))

/-- A lookup asks live nodes at their recorded addresses, and candidates are not live. -/
theorem recordedAt_lookupNodes (hash : InfoHash) (c : DhtCrawler) {node : NodeContact}
    (hnode : node ∈ c.lookupNodes hash) : c.routing.recordedAt node = true := by
  -- Live nodes come with their recorded address, and candidates have none.
  have hlive : ∀ node ∈ c.routing.table.closestNodes hash lookupFanout,
      c.routing.recordedAt node = true := fun node hnode =>
    c.routing.recordedAt_of_mem
      ((List.perm_insertionSort _ _).subset (List.mem_of_mem_take hnode))
  unfold lookupNodes at hnode
  simp only at hnode
  split at hnode
  · obtain hnode | hnode := List.mem_append.mp hnode
    · exact hlive node hnode
    · rw [LiveTable.recordedAt_iff, c.routing.not_live_of_mem_closest hnode]
      exact nofun
  · exact hlive node hnode

theorem narrower_updateLookup (f : RealLookupTracker → RealLookupTracker) (c : DhtCrawler) :
    Narrower c (c.updateLookups f) := narrower_updateLookups (some 0) (fun _ => f) c

theorem Fair.askNodes (h : Fair c) (w : Surroundings) (hash : InfoHash) (real : Bool)
    (lookupId : Option (BitVec 64)) {nodes : List NodeContact}
    (hnodes : ∀ node ∈ nodes, c.routing.recordedAt node = true) :
    Fair (c.askNodes w hash real lookupId nodes) :=
  h.sendAll w (fun c _ => .refl c) fun node hnode =>
    addressedIn_of_recordedAt (hnodes node hnode) rfl rfl

theorem Fair.lookupHash (h : Fair c) (w : Surroundings) (hash : InfoHash) (real : Bool)
    {nodes : List NodeContact} (hnodes : ∀ node ∈ nodes, c.routing.recordedAt node = true) :
    Fair (c.lookupHash w hash real nodes) := by
  rw [DhtCrawler.lookupHash]
  split
  · have hbegin : Fair (c.updateLookups fun lookups => lookups.begin.2) :=
      h.narrow (narrower_updateLookup _ c)
    exact (hbegin.askNodes w hash real _ hnodes).narrow (narrower_updateLookup _ _)
  · exact h.askNodes w hash real none hnodes

theorem Fair.discoverPeers (h : Fair c) (w : Surroundings) (random : InfoHash)
    (resolved : List SocketAddrV4) : Fair (c.discoverPeers w random resolved) := by
  have hpop : Fair (c.expirePending w).popHash.2 :=
    (h.expirePending w).narrow (sameCore_popHash _).narrower
  rw [DhtCrawler.discoverPeers]
  simp only
  generalize (c.expirePending w).popHash = popped at hpop ⊢
  obtain ⟨hash, c₁⟩ := popped
  simp only at hpop ⊢
  split
  · refine Fair.bootstrap ?_ w resolved
    cases hash with
    | none => exact hpop
    | some hash => exact hpop.narrow (sameCore_queueHash hash c₁).narrower
  · exact hpop.lookupHash w _ _ fun node => recordedAt_lookupNodes _ c₁

theorem Fair.sampleRandomNodes (h : Fair c) (w : Surroundings) (order : NodeContact → Nat)
    (targets : NodeContact → NodeId) : Fair (c.sampleRandomNodes w order targets) := by
  have hround : Fair { c with samplingRoundId := (c.samplingRoundId + 1) % 2 ^ 64 } :=
    h.narrow (SameCore.narrower ⟨rfl, rfl, rfl, rfl⟩)
  rw [DhtCrawler.sampleRandomNodes]
  simp only
  refine hround.sendAll w (g := fun c' (node : NodeContact) =>
    c'.allowSampling node.id (c.now + c'.config.samplingMinRemoteInterval))
    (fun c node => ⟨rfl, rfl, rfl, rfl⟩) fun node hnode => ?_
  have hsampled := List.mem_of_mem_filter (List.mem_of_mem_take hnode)
  have hrecorded := c.routing.recordedAt_of_mem
    ((List.perm_insertionSort _ _).subset (List.mem_of_mem_take hsampled))
  exact addressedIn_of_recordedAt hrecorded rfl rfl

/-! ## Runs -/

/-- What the code does not check of an event. -/
def truthfulTurn (x : Externals) (c : DhtCrawler) (turn : Turn) : Bool :=
  match turn.2 with
  | .seedNodes nodes => nodes.all fun node => expectedAt node c.rpcs.pool.pending
  | .packet data source =>
    match KrpcMessage.fromBytes x.decode (data.take maxPacketSize) with
    | .ok message => c.truthful message source
    | .error _ => true
  | _ => true

def truthfulRun (x : Externals) : DhtCrawler → List Turn → Bool
  | _, [] => true
  | c, turn :: turns => truthfulTurn x c turn && truthfulRun x (step x c turn) turns

theorem Fair.step (h : Fair c) {turn : Turn} (htruthful : truthfulTurn x c turn = true) :
    Fair (step x c turn) := by
  obtain ⟨w, event⟩ := turn
  have hwait : Fair (c.wait w.elapsed) :=
    h.narrow ⟨fun _ _ hk => hk, fun _ record hlive => ⟨record, hlive, rfl⟩, fun _ ha => ha, rfl⟩
  show Fair ((c.wait w.elapsed).handle x w event)
  cases event with
  | seedInfoHashes hashes => exact hwait.narrow (sameCore_seedInfoHashes w hashes _).narrower
  | seedNodes nodes => exact hwait.seedNodes (List.all_eq_true.mp htruthful)
  | bootstrap resolved => exact hwait.bootstrap w resolved
  | packet data source =>
    rw [handle]
    split
    · exact hwait
    · refine hwait.handlePacket x w _ source fun message hmessage => ?_
      rw [truthfulTurn] at htruthful
      simp only [hmessage] at htruthful
      exact htruthful
  | discoveryTick random resolved => exact hwait.discoverPeers w random resolved
  | samplingTick order targets =>
    rw [handle]
    split
    · exact hwait.sampleRandomNodes w order targets
    · exact hwait
  | refreshTick => exact (hwait.expirePending w).narrow (sameCore_expirePeerCache _).narrower
  | statsTick => exact hwait.narrow (sameCore_emitStat _ _).narrower

theorem Fair.run (h : Fair c) {turns : List Turn} (htruthful : truthfulRun x c turns = true) :
    Fair (run x c turns) := by
  induction turns generalizing c with
  | nil => exact h
  | cons turn turns ih =>
    rw [truthfulRun] at htruthful
    obtain ⟨hturn, hturns⟩ := Bool.and_eq_true_iff.mp htruthful
    exact ih (h.step hturn) hturns

theorem truthfulRun_append (x : Externals) (before after : List Turn) (c : DhtCrawler) :
    truthfulRun x c (before ++ after) =
      (truthfulRun x c before && truthfulRun x (run x c before) after) := by
  induction before generalizing c with
  | nil => rfl
  | cons turn before ih =>
    rw [List.cons_append, truthfulRun, ih, truthfulRun, Bool.and_assoc]
    rfl

theorem fair_new (ourId : NodeId) (tokenSecret : Bytes) (config : DhtConfig) (clock : Nat)
    (nextTx : BitVec 16) : Fair (.withConfig ourId tokenSecret config clock nextTx) :=
  ⟨nofun, nofun⟩

/-- In every run of truthful events every failure is counted against the node that
failed; and in every run a failure that an event adds to a live node is one that it counts. -/
theorem run_fairly_charged (x : Externals) (ourId : NodeId) (tokenSecret : Bytes)
    (config : DhtConfig) (clock : Nat) (nextTx : BitVec 16) (turns : List Turn)
    (htruthful : truthfulRun x (.withConfig ourId tokenSecret config clock nextTx) turns = true) :
    ∀ before after, turns = before ++ after →
      (run x (.withConfig ourId tokenSecret config clock nextTx) before).FairlyCharged ∧
        ∀ turn, Accounted (run x (.withConfig ourId tokenSecret config clock nextTx) before)
          (step x (run x (.withConfig ourId tokenSecret config clock nextTx) before) turn) := by
  rintro before after rfl
  rw [truthfulRun_append, Bool.and_eq_true_iff] at htruthful
  have hfair := (fair_new ourId tokenSecret config clock nextTx).run htruthful.1
  exact ⟨hfair.charged, accounted_step x _⟩

/-! ## Two runs -/

def answeringNode : NodeContact := ⟨2, ⟨⟨8, 8, 8, 8⟩, 53⟩⟩

def otherNode : NodeContact := ⟨3, ⟨⟨9, 9, 9, 9⟩, 53⟩⟩

def nodesResponse (tx : BitVec 16) (id : NodeId) (nodes : List NodeContact) : Bytes :=
  (responseMessage id (transactionIdBytes tx)
    [("nodes", .bytes (encodeCompactNodes nodes))]).toBytes BencodeValue.encode

/-- Both nodes are asked; the first one answers, and the answer of the second one, if
there is one, names the nodes. -/
def twoNodes (named : Option (List NodeContact)) : List Turn :=
  [(.quiet 0, .seedNodes [answeringNode, otherNode]),
    (.quiet 0, .discoveryTick 0 []),
    (.quiet 0, .packet (nodesResponse 0 answeringNode.id []) answeringNode.addr)] ++
  (named.elim [] fun nodes =>
    [(.quiet 0, .packet (nodesResponse 1 otherNode.id nodes) otherNode.addr)]) ++
  [(.quiet (fromSecs 31), .refreshTick)]

/-- The call that the second node does not answer is counted against it. -/
theorem run_fairly_charged_silent :
    let c := run ⟨BencodeValue.decode, fun b => b⟩ (.withConfig 1 [] .default 0 0) (twoNodes none)
    c.charges.map Charge.id = [otherNode.id] ∧ c.FairlyCharged :=
  ⟨by decide +kernel, (run_fairly_charged ⟨BencodeValue.decode, fun b => b⟩ 1 [] .default 0 0
    (twoNodes none) (by decide +kernel) (twoNodes none) [] (List.append_nil _).symm).1⟩

/-- The first node answered its only call, and goes for two calls to addresses that the
second node made up. -/
theorem named_node_evicted :
    let c := run ⟨BencodeValue.decode, fun b => b⟩ (.withConfig 1 [] .default 0 0)
      (twoNodes (some [⟨answeringNode.id, ⟨⟨7, 7, 7, 7⟩, 53⟩⟩, ⟨answeringNode.id, ⟨⟨7, 7, 7, 8⟩, 53⟩⟩]))
    ¬c.FairlyCharged ∧ c.routing.table.live answeringNode.id = none ∧
      c.outbox.countP (fun sent => sent.1 = answeringNode.addr) = 1 := by
  intro c
  refine ⟨fun hfair => ?_, by decide +kernel, by decide +kernel⟩
  have hall : c.charges.all (fun charge => charge.rpc.expectedAddr = charge.addr) = true :=
    List.all_eq_true.mpr fun charge hcharge => decide_eq_true (hfair charge hcharge).2.1
  have hsome : c.charges.all (fun charge => charge.rpc.expectedAddr = charge.addr) = false := by
    decide +kernel
  rw [hsome] at hall
  cases hall

end DhtCrawler

end Btfind
