import Mathlib.Logic.Relation
import Btfind.Dht.Crawler

/-!
# What an event does to the calls

Most of the state of the crawler has no part in its calls. Here is all that an event can
do to them, one constructor for each way, so that the proofs about runs look at these
and not at the handlers.
-/

namespace Btfind

open Quarantine

/-! ## One call -/

variable {maxPending rpcTimeout : Nat} {request : RpcRequest} {requests : List RpcRequest}
  {r r' : RpcState}

theorem searchTransaction_some {free : BitVec 16 → Bool} {turns : Nat} {start tx next : BitVec 16}
    (h : searchTransaction free turns start = (some tx, next)) : free tx = true := by
  induction turns generalizing start with
  | zero => cases h
  | succ turns ih =>
    rw [searchTransaction] at h
    split at h
    · next hfree =>
      cases h
      exact hfree
    · exact ih h

theorem RpcState.allocateTransaction_some {tx next : BitVec 16}
    (h : r.allocateTransaction maxPending = (some tx, next)) :
    r.pool.Free (transactionIdBytes tx) ∧ r.pool.pending.count < maxPending := by
  rw [RpcState.allocateTransaction] at h
  split at h
  · cases h
  · next hroom => exact ⟨of_decide_eq_true (searchTransaction_some h), Nat.not_le.mp hroom⟩

/-- What `send_rpc` does to the calls. -/
inductive Called (maxPending rpcTimeout : Nat) (request : RpcRequest) (r r' : RpcState) : Prop
  | unsent (elapsed : Nat) (pool : r'.pool = r.pool.advance elapsed)
      (lookups : r'.lookups = r.lookups.unsent request.lookupId) (roots : r'.roots = r.roots)
  | sent (elapsed : Nat) (tx : BitVec 16) (free : r.pool.Free (transactionIdBytes tx))
      (room : r.pool.pending.count < maxPending)
      (pool : r'.pool = (r.pool.advance elapsed).issue (transactionIdBytes tx)
        { request with deadline := r.pool.clock + elapsed + rpcTimeout })
      (lookups : r'.lookups = request.lookupId.elim r.lookups fun id => r.lookups.attach id)
      (roots : r'.roots = r.roots)

theorem AList.erase_insert_of_none {K V : Type*} [DecidableEq K] {k : K} {v : V}
    {t : KeyedTable K V} (h : t.lookup k = none) : (t.insert k v).erase k = t := by
  rw [AList.erase_insert_self]
  apply AList.ext
  exact List.kerase_of_notMem_keys (AList.lookup_eq_none.mp h)

/-- A call that gets a transaction finds its key free, whether it is sent or not. -/
theorem RpcState.transmit_called {tx next : BitVec 16} (answer : SendAnswer)
    (hfree : r.pool.Free (transactionIdBytes tx)) (hroom : r.pool.pending.count < maxPending) :
    Called maxPending rpcTimeout request r
      ({ r with nextTx := next }.transmit rpcTimeout answer request tx).2 := by
  rw [RpcState.transmit]
  split
  · exact .sent answer.elapsed tx hfree hroom rfl rfl rfl
  · refine .unsent answer.elapsed ?_ rfl rfl
    have hpending : ∀ rpc : PendingRpc, ((r.pool.advance answer.elapsed).pending.insert
        (transactionIdBytes tx) rpc).erase (transactionIdBytes tx) = r.pool.pending :=
      fun rpc => AList.erase_insert_of_none hfree.1
    exact congrArg (fun pending => { r.pool.advance answer.elapsed with pending := pending })
      (hpending _)

theorem RpcState.sendRpc_called (answers : Nat → SendAnswer) (request : RpcRequest)
    (r : RpcState) :
    Called maxPending rpcTimeout request r (r.sendRpc maxPending rpcTimeout answers request).2 := by
  rw [RpcState.sendRpc]
  cases halloc : r.allocateTransaction maxPending with
  | mk found next =>
    cases found with
    | none => exact .unsent 0 rfl rfl rfl
    | some tx =>
      obtain ⟨hfree, hroom⟩ := RpcState.allocateTransaction_some halloc
      exact RpcState.transmit_called _ hfree hroom

/-- Calls one after the other. -/
inductive Calls (maxPending rpcTimeout : Nat) : List RpcRequest → RpcState → RpcState → Prop
  | nil (r : RpcState) : Calls maxPending rpcTimeout [] r r
  | cons {request : RpcRequest} {requests : List RpcRequest} {r r₁ r' : RpcState}
      (head : Called maxPending rpcTimeout request r r₁)
      (tail : Calls maxPending rpcTimeout requests r₁ r') :
      Calls maxPending rpcTimeout (request :: requests) r r'

/-- What every call keeps, calls keep. -/
theorem Calls.invariant {I : RpcState → Prop} (h : Calls maxPending rpcTimeout requests r r')
    (hcall : ∀ request ∈ requests, ∀ r r', I r → Called maxPending rpcTimeout request r r' → I r')
    (hr : I r) : I r' := by
  induction h with
  | nil => exact hr
  | cons head tail ih =>
    exact ih (fun request hmem => hcall request (List.mem_cons_of_mem _ hmem))
      (hcall _ List.mem_cons_self _ _ hr head)

theorem Called.clock_le (h : Called maxPending rpcTimeout request r r') :
    r.pool.clock ≤ r'.pool.clock := by
  cases h with
  | unsent elapsed hpool =>
    rw [hpool]
    exact Nat.le_add_right _ _
  | sent elapsed tx _ _ hpool =>
    rw [hpool]
    exact Nat.le_add_right _ _

theorem Calls.clock_le (h : Calls maxPending rpcTimeout requests r r') :
    r.pool.clock ≤ r'.pool.clock := by
  induction h with
  | nil => exact Nat.le_refl _
  | cons head _ ih => exact head.clock_le.trans ih

/-! ## One event -/

/-- The tracker after a call that got no good answer. -/
def RpcOutcome.drop (outcome : RpcOutcome) (id : BitVec 64) (t : RealLookupTracker) :
    RealLookupTracker :=
  match outcome with
  | .timedOut => t.timeout id
  | _ => t.failure id

def RpcOutcome.isAnswer : RpcOutcome → Bool
  | .answered _ => true
  | _ => false

/-- Whether a response has peers. -/
def KrpcMessage.hasPeers (message : KrpcMessage) : Bool := !message.parseGetPeersResponse.1.isEmpty

def RpcState.resolve (rpcTimeout : Nat) (transaction : Bytes) (rpc : PendingRpc)
    (outcome : RpcOutcome) (r : RpcState) : RpcState :=
  { r with pool := r.pool.resolve rpcTimeout transaction rpc outcome }

def RpcState.withLookups (lookups : RealLookupTracker) (r : RpcState) : RpcState :=
  { r with lookups := lookups }

/-- The call that continues another one, with a smaller budget. -/
def Continues (pending : PendingRpc) (request : RpcRequest) : Prop :=
  request.continuationBudget + 1 = pending.continuationBudget ∧
    (pending.method = .findNode ∧ request.method = .findNode ∧ request.lookupId = none ∧
        request.root = pending.root ∨
      pending.method = .getPeers ∧ request.method = .getPeers ∧ request.infoHash.isSome ∧
        request.lookupId = pending.lookupId ∧ request.root = none)

/-- The first calls of a lookup. -/
def Asks (lookupId : Option (BitVec 64)) (request : RpcRequest) : Prop :=
  request.method = .getPeers ∧ request.infoHash.isSome ∧ request.continuationBudget = 2 ∧
    request.lookupId = lookupId ∧ request.root = none

/-- What a part of an event does to the calls. -/
inductive RpcStep (maxPending rpcTimeout : Nat) : RpcState → RpcState → Prop
  | wait (r : RpcState) (elapsed : Nat) :
      RpcStep maxPending rpcTimeout r { r with pool := r.pool.advance elapsed }
  | sweep (r : RpcState) : RpcStep maxPending rpcTimeout r { r with pool := r.pool.sweep }
  | dropped {r : RpcState} {transaction : Bytes} {rpc : PendingRpc} {outcome : RpcOutcome}
      (pending : r.pool.pending.lookup transaction = some rpc)
      (bad : outcome.isAnswer = false) :
      RpcStep maxPending rpcTimeout r ((r.resolve rpcTimeout transaction rpc outcome).withLookups
        (rpc.lookupId.elim r.lookups fun id => outcome.drop id r.lookups))
  | answered {r r' : RpcState} {transaction : Bytes} {rpc : PendingRpc} {message : KrpcMessage}
      {requests : List RpcRequest} (pending : r.pool.pending.lookup transaction = some rpc)
      (few : requests.length ≤ lookupContinuationFanout)
      (continues : ∀ request ∈ requests, Continues rpc request)
      (calls : Calls maxPending rpcTimeout requests
        (r.resolve rpcTimeout transaction rpc (.answered message)) r') :
      RpcStep maxPending rpcTimeout r (r'.withLookups
        (if rpc.method = .getPeers then
          rpc.lookupId.elim r'.lookups fun id => r'.lookups.respond id message.hasPeers
        else r'.lookups))
  | bootstrap {r r' : RpcState} {request : RpcRequest} (method : request.method = .findNode)
      (lookupId : request.lookupId = none) (budget : request.continuationBudget = 2)
      (root : request.root = some r.roots)
      (call : Called maxPending rpcTimeout request { r with roots := r.roots + 1 } r') :
      RpcStep maxPending rpcTimeout r r'
  | lookup {r r' : RpcState} {requests : List RpcRequest} (few : requests.length ≤ lookupFanout)
      (asks : ∀ request ∈ requests, Asks (some r.lookups.nextId) request)
      (calls : Calls maxPending rpcTimeout requests (r.withLookups r.lookups.begin.2) r') :
      RpcStep maxPending rpcTimeout r (r'.withLookups (r'.lookups.started r.lookups.nextId))
  | untracked {r r' : RpcState} {requests : List RpcRequest}
      (plain : ∀ request ∈ requests, request.lookupId = none ∧ request.root = none ∧
        request.method ≠ .findNode)
      (calls : Calls maxPending rpcTimeout requests r r') : RpcStep maxPending rpcTimeout r r'

/-- What an event does to the calls, part by part. -/
abbrev RpcSteps (maxPending rpcTimeout : Nat) : RpcState → RpcState → Prop :=
  Relation.ReflTransGen (RpcStep maxPending rpcTimeout)

theorem RpcStep.clock_le (h : RpcStep maxPending rpcTimeout r r') :
    r.pool.clock ≤ r'.pool.clock := by
  cases h with
  | wait elapsed => exact Nat.le_add_right _ _
  | sweep | dropped => exact Nat.le_refl _
  | answered _ _ _ hcalls => exact hcalls.clock_le
  | bootstrap _ _ _ _ hcall => exact hcall.clock_le
  | lookup _ _ hcalls => exact hcalls.clock_le
  | untracked _ hcalls => exact hcalls.clock_le

theorem RpcSteps.clock_le (h : RpcSteps maxPending rpcTimeout r r') :
    r.pool.clock ≤ r'.pool.clock := by
  induction h with
  | refl => exact Nat.le_refl _
  | tail _ hlast ih => exact ih.trans hlast.clock_le

/-! ## What has no part in the calls -/

namespace DhtCrawler

/-- The calls, the routing table, the counted failures and the configuration are as
before. -/
structure SameCore (c c' : DhtCrawler) : Prop where
  rpcs : c'.rpcs = c.rpcs
  config : c'.config = c.config
  routing : c'.routing = c.routing
  charges : c'.charges = c.charges

variable {c c' c'' : DhtCrawler} {w : Surroundings} {x : Externals}

theorem SameCore.refl (c : DhtCrawler) : SameCore c c := ⟨rfl, rfl, rfl, rfl⟩

theorem SameCore.trans (h : SameCore c c') (h' : SameCore c' c'') : SameCore c c'' :=
  ⟨h'.rpcs.trans h.rpcs, h'.config.trans h.config, h'.routing.trans h.routing,
    h'.charges.trans h.charges⟩

theorem SameCore.foldl {α : Type} {f : DhtCrawler → α → DhtCrawler}
    (hf : ∀ c a, SameCore c (f c a)) (l : List α) (c : DhtCrawler) : SameCore c (l.foldl f c) := by
  induction l generalizing c with
  | nil => exact .refl c
  | cons a l ih => exact (hf c a).trans (ih (f c a))

theorem sameCore_emitStat (event : CrawlStatsEvent) (c : DhtCrawler) :
    SameCore c (c.emitStat event) := ⟨rfl, rfl, rfl, rfl⟩

theorem sameCore_queueHash (hash : InfoHash) (c : DhtCrawler) :
    SameCore c (c.queueHash hash).2 := by
  rw [queueHash]
  split
  · exact .refl c
  · split
    · exact ⟨rfl, rfl, rfl, rfl⟩
    · split <;> exact ⟨rfl, rfl, rfl, rfl⟩

theorem sameCore_requeue (rpc : PendingRpc) (c : DhtCrawler) : SameCore c (c.requeue rpc) := by
  rw [requeue]
  split
  · exact sameCore_queueHash _ c
  · exact .refl c

theorem sameCore_enqueueDiscovery (w : Surroundings) (discovery : HashDiscovery)
    (c : DhtCrawler) : SameCore c (c.enqueueDiscovery w discovery) := by
  unfold enqueueDiscovery
  simp only
  split <;> exact ⟨rfl, rfl, rfl, rfl⟩

theorem sameCore_publishDiscovery (w : Surroundings) (infoHash : InfoHash)
    (peers : List PeerContact) (source : DiscoverySource) (c : DhtCrawler) :
    SameCore c (c.publishDiscovery w infoHash peers source) := by
  rw [publishDiscovery]
  split
  · exact .refl c
  · have hcount : SameCore c
        { c with infoHashesFound := min (c.infoHashesFound + 1) (2 ^ 64 - 1) } :=
      ⟨rfl, rfl, rfl, rfl⟩
    exact (hcount.trans (sameCore_queueHash infoHash _)).trans (sameCore_enqueueDiscovery w _ _)

theorem sameCore_seedInfoHashes (w : Surroundings) (hashes : List InfoHash) (c : DhtCrawler) :
    SameCore c (c.seedInfoHashes w hashes) := by
  refine SameCore.foldl (fun c hash => ?_) hashes c
  have hqueue := sameCore_queueHash hash c
  simp only
  split
  · exact hqueue.trans (sameCore_enqueueDiscovery w _ _)
  · exact hqueue

theorem sameCore_expirePeerCache (c : DhtCrawler) : SameCore c c.expirePeerCache :=
  ⟨rfl, rfl, rfl, rfl⟩

theorem sameCore_cachePeer (w : Surroundings) (hash : InfoHash) (peer : PeerContact)
    (c : DhtCrawler) : SameCore c (c.cachePeer w hash peer) := by
  rw [cachePeer]
  split <;> exact ⟨rfl, rfl, rfl, rfl⟩

theorem sameCore_answerQuery (x : Externals) (w : Surroundings) (t : Bytes) (q : String)
    (a : KrpcMap) (source : SocketAddrV4) (c : DhtCrawler) :
    SameCore c (c.answerQuery x w t q a source).2 := by
  have hget : SameCore c (c.getPeersResponse x w a t source).2 := by
    rw [getPeersResponse]
    split
    · exact .refl c
    · exact (sameCore_publishDiscovery w _ _ _ c).trans (sameCore_expirePeerCache _)
  have hannounce : SameCore c (c.announcePeerResponse x w a t source).2 := by
    rw [announcePeerResponse]
    split
    · exact .refl c
    · split
      · exact .refl c
      · split
        · exact .refl c
        · exact (sameCore_cachePeer w _ _ c).trans (sameCore_publishDiscovery w _ _ _ _)
  rw [answerQuery]
  simp only
  split
  · exact .refl c
  · split
    · exact .refl c
    · split
      · exact hget
      · split
        · exact hannounce
        · split <;> exact .refl c

/-- A query changes neither the calls nor the routing table. -/
theorem sameCore_handleQuery (x : Externals) (w : Surroundings) (message : KrpcMessage)
    (source : SocketAddrV4) (c : DhtCrawler) :
    SameCore c (c.handleQuery x w message source) := by
  unfold handleQuery
  split
  · exact .refl c
  · split
    · next t y q a extra =>
      have hnote : SameCore c ((KrpcMessage.query t y q a extra).extractNodeId.elim c fun id =>
          c.noteProvisional w id source) := by
        cases (KrpcMessage.query t y q a extra).extractNodeId with
        | none => exact .refl c
        | some id => exact ⟨rfl, rfl, rfl, rfl⟩
      have hanswer := sameCore_answerQuery x w t q a source
        ((KrpcMessage.query t y q a extra).extractNodeId.elim c fun id =>
          c.noteProvisional w id source)
      exact (hnote.trans hanswer).trans ⟨rfl, rfl, rfl, rfl⟩
    · exact .refl c

/-! ## Handlers -/

/-- The calls and the configuration are as before. -/
structure SameCalls (c c' : DhtCrawler) : Prop where
  rpcs : c'.rpcs = c.rpcs
  config : c'.config = c.config

theorem SameCore.calls (h : SameCore c c') : SameCalls c c' := ⟨h.rpcs, h.config⟩

theorem SameCalls.refl (c : DhtCrawler) : SameCalls c c := ⟨rfl, rfl⟩

theorem SameCalls.trans (h : SameCalls c c') (h' : SameCalls c' c'') : SameCalls c c'' :=
  ⟨h'.rpcs.trans h.rpcs, h'.config.trans h.config⟩

theorem SameCalls.foldl {α : Type} {f : DhtCrawler → α → DhtCrawler}
    (hf : ∀ c a, SameCalls c (f c a)) (l : List α) (c : DhtCrawler) :
    SameCalls c (l.foldl f c) := by
  induction l generalizing c with
  | nil => exact .refl c
  | cons a l ih => exact (hf c a).trans (ih (f c a))

theorem sameCalls_admitCandidates (nodes : List NodeContact) (c : DhtCrawler) :
    SameCalls c (c.admitCandidates nodes) := by
  refine SameCalls.foldl (fun c node => ?_) _ c
  exact ⟨rfl, rfl⟩

theorem sameCalls_seedNodes (nodes : List NodeContact) (c : DhtCrawler) :
    SameCalls c (c.seedNodes nodes) := by
  refine SameCalls.foldl (fun c node => ?_) _ c
  exact ⟨rfl, rfl⟩

theorem sameCalls_chargeFailure (rpc : PendingRpc) (c : DhtCrawler) :
    SameCalls c (c.chargeFailure rpc) := by
  rw [chargeFailure]
  split <;> exact ⟨rfl, rfl⟩

theorem sendRpc_rpcs (w : Surroundings) (request : RpcRequest) (c : DhtCrawler) :
    (c.sendRpc w request).rpcs =
        (c.rpcs.sendRpc c.config.maxPendingRpcs c.config.rpcTimeout w.sends request).2 ∧
      (c.sendRpc w request).config = c.config := by
  rw [sendRpc]
  split <;> next heq => exact ⟨(congrArg Prod.snd heq).symm, rfl⟩

/-- Calls to the elements of a list, with other work in between. -/
theorem calls_foldl {α : Type} (w : Surroundings) {g : DhtCrawler → α → DhtCrawler}
    (hg : ∀ c a, SameCalls c (g c a)) (q : α → RpcRequest) (l : List α) (c : DhtCrawler) :
    Calls c.config.maxPendingRpcs c.config.rpcTimeout (l.map q) c.rpcs
        (l.foldl (fun c a => (g c a).sendRpc w (q a)) c).rpcs ∧
      (l.foldl (fun c a => (g c a).sendRpc w (q a)) c).config = c.config := by
  induction l generalizing c with
  | nil => exact ⟨.nil _, rfl⟩
  | cons a l ih =>
    obtain ⟨hrpcs, hconfig⟩ := sendRpc_rpcs w (q a) (g c a)
    obtain ⟨hcalls, hrest⟩ := ih ((g c a).sendRpc w (q a))
    rw [hconfig, (hg c a).config] at hcalls hrest
    rw [(hg c a).rpcs, (hg c a).config] at hrpcs
    rw [List.map_cons, List.foldl_cons]
    refine ⟨.cons ?_ hcalls, hrest⟩
    rw [hrpcs]
    exact RpcState.sendRpc_called w.sends (q a) c.rpcs

/-- The calls make steps, and the configuration is as before. -/
structure Stepped (c c' : DhtCrawler) : Prop where
  rpcs : RpcSteps c.config.maxPendingRpcs c.config.rpcTimeout c.rpcs c'.rpcs
  config : c'.config = c.config

theorem SameCalls.stepped (h : SameCalls c c') : Stepped c c' := ⟨h.rpcs ▸ .refl, h.config⟩

theorem Stepped.trans (h : Stepped c c') (h' : Stepped c' c'') : Stepped c c'' :=
  ⟨h.rpcs.trans (h.config ▸ h'.rpcs), h'.config.trans h.config⟩

theorem Stepped.foldl {α : Type} {f : DhtCrawler → α → DhtCrawler}
    (hf : ∀ c a, Stepped c (f c a)) (l : List α) (c : DhtCrawler) : Stepped c (l.foldl f c) := by
  induction l generalizing c with
  | nil => exact (SameCalls.refl c).stepped
  | cons a l ih => exact (hf c a).trans (ih (f c a))

theorem Stepped.single (hconfig : c'.config = c.config)
    (h : RpcStep c.config.maxPendingRpcs c.config.rpcTimeout c.rpcs c'.rpcs) : Stepped c c' :=
  ⟨.single h, hconfig⟩

theorem stepped_bootstrap (w : Surroundings) (resolved : List SocketAddrV4) (c : DhtCrawler) :
    Stepped c (c.bootstrap w resolved) := by
  refine Stepped.foldl (fun c addr => ?_) resolved c
  obtain ⟨hrpcs, hconfig⟩ := sendRpc_rpcs w
    ⟨addr, none, .findNode, c.ourId, none, false, 2, none, some c.rpcs.roots⟩
    { c with rpcs := { c.rpcs with roots := c.rpcs.roots + 1 } }
  refine .single hconfig ?_
  rw [hrpcs]
  exact .bootstrap rfl rfl rfl rfl (RpcState.sendRpc_called w.sends _ _)

/-- The end of a call without a good answer, and the work after it. -/
theorem Stepped.of_dropped {transaction : Bytes} {rpc : PendingRpc} (outcome : RpcOutcome)
    (hpending : c.rpcs.pool.pending.lookup transaction = some rpc)
    (hbad : outcome.isAnswer = false) (hconfig : c'.config = c.config)
    (hrpcs : c'.rpcs = ((c.rpcs.resolve c.config.rpcTimeout transaction rpc outcome).withLookups
      (rpc.lookupId.elim c.rpcs.lookups fun id => outcome.drop id c.rpcs.lookups))) :
    Stepped c c' :=
  .single hconfig (hrpcs ▸ .dropped hpending hbad)

theorem updateLookups_elim (lookupId : Option (BitVec 64))
    (f : BitVec 64 → RealLookupTracker → RealLookupTracker) (c : DhtCrawler) :
    (lookupId.elim c fun id => c.updateLookups (f id)).rpcs =
        c.rpcs.withLookups (lookupId.elim c.rpcs.lookups fun id => f id c.rpcs.lookups) ∧
      (lookupId.elim c fun id => c.updateLookups (f id)).config = c.config := by
  cases lookupId <;> exact ⟨rfl, rfl⟩

theorem stepped_expireOne (c : DhtCrawler) (transaction : Bytes) :
    Stepped c (c.expireOne transaction) := by
  rw [expireOne]
  split
  · exact (SameCalls.refl c).stepped
  · next rpc hpending =>
    have hall := (sameCalls_chargeFailure rpc (c.resolveRpc transaction rpc .timedOut)).trans
      (sameCore_requeue rpc _).calls
    obtain ⟨hlookups, hconfig⟩ := updateLookups_elim rpc.lookupId RealLookupTracker.timeout
      (((c.resolveRpc transaction rpc .timedOut).chargeFailure rpc).requeue rpc)
    refine .of_dropped .timedOut hpending rfl (hconfig.trans hall.config) ?_
    refine hlookups.trans ?_
    rw [hall.rpcs]
    rfl

theorem stepped_expirePending (w : Surroundings) (c : DhtCrawler) :
    Stepped c (c.expirePending w) := by
  have hsweep : Stepped c { c with rpcs := { c.rpcs with pool := c.rpcs.pool.sweep } } :=
    .single rfl (.sweep c.rpcs)
  exact hsweep.trans (.foldl stepped_expireOne _ _)

/-- The checks on a response, in their order. -/
theorem correlate_cases (pendingRpcs : KeyedTable Bytes PendingRpc) (message : KrpcMessage)
    (source : SocketAddrV4) :
    (pendingRpcs.lookup message.transactionId = none ∧
      correlateResponse pendingRpcs message source = .unsolicited) ∨
    ∃ pending, pendingRpcs.lookup message.transactionId = some pending ∧
      ((pending.expectedAddr ≠ source ∧
          correlateResponse pendingRpcs message source = .unexpectedSource) ∨
        (pending.expectedAddr = source ∧
          (correlateResponse pendingRpcs message source = .malformed pending ∨
            ∃ id, correlateResponse pendingRpcs message source = .accepted pending id ∧
              message.extractNodeId = some id ∧
              (∀ expected, pending.expectedNodeId = some expected → expected = id) ∧
              message.responseHasShape pending.method = true))) := by
  unfold correlateResponse
  cases hlookup : pendingRpcs.lookup message.transactionId with
  | none => exact .inl ⟨rfl, rfl⟩
  | some pending =>
    refine .inr ⟨pending, rfl, ?_⟩
    simp only
    by_cases haddr : pending.expectedAddr = source
    · rw [if_neg (not_not.mpr haddr)]
      refine .inr ⟨haddr, ?_⟩
      cases message.extractNodeId with
      | none => exact .inl rfl
      | some id =>
        simp only
        split
        · exact .inl rfl
        · next hchecked =>
          rw [Bool.or_eq_true, not_or] at hchecked
          refine .inr ⟨id, rfl, rfl, fun expected hexpected => ?_, by simpa using hchecked.2⟩
          have hsame := hchecked.1
          rw [hexpected] at hsame
          simpa using hsame
    · rw [if_pos haddr]
      exact .inl ⟨haddr, rfl⟩

theorem correlate_pending {message : KrpcMessage} {source : SocketAddrV4} {pending : PendingRpc}
    {pendingRpcs : KeyedTable Bytes PendingRpc}
    (h : correlateResponse pendingRpcs message source = .malformed pending ∨
      ∃ id, correlateResponse pendingRpcs message source = .accepted pending id) :
    pendingRpcs.lookup message.transactionId = some pending := by
  obtain ⟨-, heq⟩ | ⟨other, hlookup, ⟨-, heq⟩ | ⟨-, heq | ⟨_, heq, -⟩⟩⟩ :=
    correlate_cases pendingRpcs message source
  all_goals
    rw [heq] at h
    obtain h | ⟨id, h⟩ := h <;> cases h
  all_goals exact hlookup

theorem stepped_handleError (message : KrpcMessage) (source : SocketAddrV4) (c : DhtCrawler) :
    Stepped c (c.handleError message source) := by
  rw [handleError]
  split
  · exact (sameCore_emitStat _ c).calls.stepped
  · next pending hpending =>
    split
    · exact (sameCore_emitStat _ c).calls.stepped
    · have hcharge := sameCalls_chargeFailure pending
        (c.resolveRpc message.transactionId pending .failed)
      obtain ⟨hlookups, hconfig⟩ := updateLookups_elim pending.lookupId RealLookupTracker.failure
        ((c.resolveRpc message.transactionId pending .failed).chargeFailure pending)
      refine .of_dropped .failed hpending rfl (hconfig.trans hcharge.config) ?_
      refine hlookups.trans ?_
      rw [hcharge.rpcs]
      rfl

/-! ## Answers -/

/-- What follows an answer: calls that continue the call, and the end of its lookup. -/
structure Answered (rpc : PendingRpc) (message : KrpcMessage) (c c' : DhtCrawler) : Prop where
  rpcs : ∃ requests : List RpcRequest, ∃ r, requests.length ≤ lookupContinuationFanout ∧
    (∀ request ∈ requests, Continues rpc request) ∧
    Calls c.config.maxPendingRpcs c.config.rpcTimeout requests c.rpcs r ∧
    c'.rpcs = r.withLookups (if rpc.method = .getPeers then
      rpc.lookupId.elim r.lookups fun id => r.lookups.respond id message.hasPeers else r.lookups)
  config : c'.config = c.config

variable {rpc : PendingRpc} {message : KrpcMessage}

theorem Answered.of_same (hmethod : rpc.method ≠ .getPeers) (h : SameCalls c c') :
    Answered rpc message c c' := by
  refine ⟨⟨[], c.rpcs, Nat.zero_le _, nofun, .nil _, ?_⟩, h.config⟩
  rw [h.rpcs, if_neg hmethod]
  rfl

theorem Answered.of_calls {requests : List RpcRequest} (hmethod : rpc.method ≠ .getPeers)
    (hfew : requests.length ≤ lookupContinuationFanout)
    (hcontinues : ∀ request ∈ requests, Continues rpc request)
    (hcalls : Calls c.config.maxPendingRpcs c.config.rpcTimeout requests c.rpcs c'.rpcs)
    (hconfig : c'.config = c.config) : Answered rpc message c c' := by
  refine ⟨⟨requests, c'.rpcs, hfew, hcontinues, hcalls, ?_⟩, hconfig⟩
  rw [if_neg hmethod]
  rfl

theorem Answered.after {c₁ : DhtCrawler} (h : SameCalls c c₁) (h' : Answered rpc message c₁ c') :
    Answered rpc message c c' := by
  obtain ⟨⟨requests, r, hfew, hcontinues, hcalls, hrpcs⟩, hconfig⟩ := h'
  rw [h.rpcs, h.config] at hcalls
  exact ⟨⟨requests, r, hfew, hcontinues, hcalls, hrpcs⟩, hconfig.trans h.config⟩

theorem answered_continueFindNode (w : Surroundings) (nodes : List NodeContact)
    (hmethod : rpc.method = .findNode) (c : DhtCrawler) :
    Answered rpc message c (c.continueFindNode w nodes rpc) := by
  have hother : rpc.method ≠ .getPeers := by
    rw [hmethod]
    nofun
  rw [continueFindNode]
  split
  · exact .of_same hother (.refl c)
  · next hbudget =>
    obtain ⟨hcalls, hconfig⟩ := calls_foldl w (fun c (_ : NodeContact) => SameCalls.refl c)
      (fun node => ⟨node.addr, some node.id, .findNode, rpc.target, none, false,
        rpc.continuationBudget - 1, none, rpc.root⟩) (nodes.take lookupContinuationFanout) c
    refine .of_calls hother ?_ ?_ hcalls hconfig
    · rw [List.length_map]
      exact List.length_take_le _ _
    · intro request hrequest
      obtain ⟨node, -, rfl⟩ := List.mem_map.mp hrequest
      exact ⟨Nat.sub_add_cancel (Nat.pos_of_ne_zero hbudget), .inl ⟨hmethod, rfl, rfl, rfl⟩⟩

theorem calls_continueGetPeers (w : Surroundings) (hash : InfoHash) (nodes : List NodeContact)
    (hmethod : rpc.method = .getPeers) (c : DhtCrawler) :
    ∃ requests : List RpcRequest, requests.length ≤ lookupContinuationFanout ∧
      (∀ request ∈ requests, Continues rpc request) ∧
      Calls c.config.maxPendingRpcs c.config.rpcTimeout requests c.rpcs
        (c.continueGetPeers w hash nodes rpc).rpcs ∧
      (c.continueGetPeers w hash nodes rpc).config = c.config := by
  rw [continueGetPeers]
  split
  · exact ⟨[], Nat.zero_le _, nofun, .nil _, rfl⟩
  · next hbudget =>
    obtain ⟨hcalls, hconfig⟩ := calls_foldl w (fun c (_ : NodeContact) => SameCalls.refl c)
      (fun node => ⟨node.addr, some node.id, .getPeers, hash, some hash, rpc.isRealLookup,
        rpc.continuationBudget - 1, rpc.lookupId, none⟩) (nodes.take lookupContinuationFanout) c
    refine ⟨_, ?_, ?_, hcalls, hconfig⟩
    · rw [List.length_map]
      exact List.length_take_le _ _
    · intro request hrequest
      obtain ⟨node, -, rfl⟩ := List.mem_map.mp hrequest
      exact ⟨Nat.sub_add_cancel (Nat.pos_of_ne_zero hbudget), .inr ⟨hmethod, rfl, rfl, rfl, rfl⟩⟩

theorem sameCore_gatherPeers (w : Surroundings) (hash : InfoHash) (peers : List PeerContact)
    (isRealLookup : Bool) (c : DhtCrawler) :
    SameCore c (c.gatherPeers w hash peers isRealLookup) := by
  have hcache : SameCore c (peers.foldl (fun c peer => c.cachePeer w hash peer) c) :=
    SameCore.foldl (fun c peer => sameCore_cachePeer w hash peer c) peers c
  unfold gatherPeers
  simp only
  split
  · exact hcache.trans (sameCore_publishDiscovery w _ _ _ _)
  · exact hcache

theorem calls_followGetPeers (w : Surroundings) (message : KrpcMessage)
    (hmethod : rpc.method = .getPeers) (c : DhtCrawler) :
    ∃ requests : List RpcRequest, requests.length ≤ lookupContinuationFanout ∧
      (∀ request ∈ requests, Continues rpc request) ∧
      Calls c.config.maxPendingRpcs c.config.rpcTimeout requests c.rpcs
        (c.followGetPeers w message rpc).rpcs ∧
      (c.followGetPeers w message rpc).config = c.config := by
  rw [followGetPeers]
  simp only
  split
  · exact ⟨[], Nat.zero_le _, nofun, .nil _, rfl⟩
  · next hash _ =>
    have hgather := sameCore_gatherPeers w hash message.parseGetPeersResponse.1 rpc.isRealLookup c
    obtain ⟨requests, hfew, hcontinues, hcalls, hconfig⟩ :=
      calls_continueGetPeers w hash message.parseGetPeersResponse.2 hmethod
        (c.gatherPeers w hash message.parseGetPeersResponse.1 rpc.isRealLookup)
    rw [hgather.rpcs, hgather.config] at hcalls
    exact ⟨requests, hfew, hcontinues, hcalls, hconfig.trans hgather.config⟩

theorem answered_getPeers (w : Surroundings) (hmethod : rpc.method = .getPeers) (c : DhtCrawler) :
    Answered rpc message c (c.answerGetPeers w message rpc) := by
  rw [answerGetPeers]
  simp only
  have hrecord : SameCalls c (c.recordGetPeersResponse (!message.parseGetPeersResponse.1.isEmpty)) :=
    ⟨rfl, rfl⟩
  have hadmitted := hrecord.trans (sameCalls_admitCandidates message.parseGetPeersResponse.2 _)
  -- The metrics and the candidates come before the calls and have no part in them.
  refine .after hadmitted ?_
  generalize admitCandidates _ _ = c₁
  obtain ⟨requests, hfew, hcontinues, hcalls, hconfig⟩ := calls_followGetPeers w message hmethod c₁
  obtain ⟨hlookups, hsame⟩ := updateLookups_elim rpc.lookupId
    (fun id => RealLookupTracker.respond id message.hasPeers) (c₁.followGetPeers w message rpc)
  refine ⟨⟨requests, _, hfew, hcontinues, hcalls, ?_⟩, hsame.trans hconfig⟩
  rw [if_pos hmethod]
  exact hlookups

theorem sameCalls_answerSample (w : Surroundings) (message : KrpcMessage) (source : SocketAddrV4)
    (c : DhtCrawler) : SameCalls c (c.answerSample w message source) := by
  rw [answerSample]
  split
  · exact (sameCore_emitStat _ c).calls
  · next response _ =>
    simp only
    have hadmitted := sameCalls_admitCandidates response.nodes (c.allowSampling response.nodeId
      (c.now + max response.interval c.config.samplingMinRemoteInterval))
    refine SameCalls.trans ⟨hadmitted.rpcs, hadmitted.config⟩ ?_
    refine SameCalls.trans (SameCalls.foldl (fun c hash => ?_) response.samples _) ⟨rfl, rfl⟩
    exact (sameCore_publishDiscovery w _ _ _ c).calls.trans ⟨rfl, rfl⟩

theorem answered_acceptResponse (w : Surroundings) (source : SocketAddrV4) (responseId : NodeId)
    (c : DhtCrawler) : Answered rpc message c (c.acceptResponse w message source rpc responseId) := by
  rw [acceptResponse]
  simp only
  generalize hvalidate : emitStat _ (emitStat _ _) = c₁
  have hsame : SameCalls c c₁ := hvalidate ▸ ⟨rfl, rfl⟩
  refine .after hsame ?_
  split
  · next hmethod => exact .of_same (by rw [hmethod]; nofun) (.refl c₁)
  · next hmethod =>
    exact .after (sameCalls_admitCandidates _ c₁) (answered_continueFindNode w _ hmethod _)
  · next hmethod => exact answered_getPeers w hmethod c₁
  · next hmethod =>
    exact .of_same (by rw [hmethod]; nofun) (sameCalls_answerSample w message source c₁)

theorem stepped_handleResponse (w : Surroundings) (message : KrpcMessage) (source : SocketAddrV4)
    (c : DhtCrawler) : Stepped c (c.handleResponse w message source) := by
  rw [handleResponse]
  split
  · exact (sameCore_emitStat _ c).calls.stepped
  · exact (sameCore_emitStat _ c).calls.stepped
  · next pending hcorrelate =>
    have hpending := correlate_pending (.inl hcorrelate)
    obtain ⟨hlookups, hconfig⟩ := updateLookups_elim pending.lookupId RealLookupTracker.failure
      ((c.resolveRpc message.transactionId pending .malformed).emitStat .rpcMalformed)
    exact .of_dropped .malformed hpending rfl hconfig hlookups
  · next pending responseId hcorrelate =>
    have hpending := correlate_pending (.inr ⟨_, hcorrelate⟩)
    obtain ⟨⟨requests, r, hfew, hcontinues, hcalls, hrpcs⟩, hconfig⟩ :=
      answered_acceptResponse w source responseId
        (c.resolveRpc message.transactionId pending (.answered message))
    refine .single hconfig ?_
    rw [hrpcs]
    exact .answered hpending hfew hcontinues hcalls

theorem stepped_handlePacket (x : Externals) (w : Surroundings) (data : Bytes)
    (source : SocketAddrV4) (c : DhtCrawler) : Stepped c (c.handlePacket x w data source) := by
  rw [handlePacket]
  split
  · exact (sameCore_emitStat _ c).calls.stepped
  · split
    · exact (sameCore_handleQuery x w _ source c).calls.stepped
    · exact stepped_handleResponse w _ source c
    · exact stepped_handleError _ source c

/-! ## Ticks -/

theorem length_lookupNodes (hash : InfoHash) (c : DhtCrawler) :
    (c.lookupNodes hash).length ≤ lookupFanout := by
  have hlive : (c.routing.table.closestNodes hash lookupFanout).length ≤ lookupFanout :=
    List.length_take_le _ _
  unfold lookupNodes
  simp only
  split
  · have hmore : (c.routing.table.closestCandidates hash (lookupFanout -
        (c.routing.table.closestNodes hash lookupFanout).length)).length ≤ lookupFanout -
          (c.routing.table.closestNodes hash lookupFanout).length := List.length_take_le _ _
    rw [List.length_append]
    omega
  · exact hlive

theorem calls_askNodes (w : Surroundings) (hash : InfoHash) (real : Bool)
    (lookupId : Option (BitVec 64)) (nodes : List NodeContact) (c : DhtCrawler) :
    ∃ requests : List RpcRequest, requests.length = nodes.length ∧
      (∀ request ∈ requests, Asks lookupId request) ∧
      Calls c.config.maxPendingRpcs c.config.rpcTimeout requests c.rpcs
        (c.askNodes w hash real lookupId nodes).rpcs ∧
      (c.askNodes w hash real lookupId nodes).config = c.config := by
  obtain ⟨hcalls, hconfig⟩ := calls_foldl w (fun c (_ : NodeContact) => SameCalls.refl c)
    (fun node => ⟨node.addr, some node.id, .getPeers, hash, some hash, real, 2, lookupId, none⟩)
    nodes c
  refine ⟨_, List.length_map _, ?_, hcalls, hconfig⟩
  intro request hrequest
  obtain ⟨node, -, rfl⟩ := List.mem_map.mp hrequest
  exact ⟨rfl, rfl, rfl, rfl, rfl⟩

theorem sameCore_popHash (c : DhtCrawler) : SameCore c c.popHash.2 := by
  rw [popHash]
  split <;> exact ⟨rfl, rfl, rfl, rfl⟩

theorem stepped_lookupHash (w : Surroundings) (hash : InfoHash) (real : Bool)
    (nodes : List NodeContact) (hfew : nodes.length ≤ lookupFanout) (c : DhtCrawler) :
    Stepped c (c.lookupHash w hash real nodes) := by
  rw [lookupHash]
  split
  · obtain ⟨requests, hlength, hasks, hcalls, hconfig⟩ := calls_askNodes w hash real
      (some c.rpcs.lookups.begin.1) nodes (c.updateLookups fun lookups => lookups.begin.2)
    exact .single hconfig (.lookup (hlength ▸ hfew) hasks hcalls)
  · obtain ⟨requests, -, hasks, hcalls, hconfig⟩ := calls_askNodes w hash real none nodes c
    refine .single hconfig (.untracked (fun request h => ?_) hcalls)
    obtain ⟨hmethod, -, -, hlookup, hroot⟩ := hasks request h
    exact ⟨hlookup, hroot, by rw [hmethod]; nofun⟩

theorem stepped_discoverPeers (w : Surroundings) (random : InfoHash)
    (resolved : List SocketAddrV4) (c : DhtCrawler) :
    Stepped c (c.discoverPeers w random resolved) := by
  rw [discoverPeers]
  simp only
  -- First the expiry and the queue; then either the bootstrap or the lookup.
  have hpop := (stepped_expirePending w c).trans (sameCore_popHash _).calls.stepped
  generalize (c.expirePending w).popHash = popped at hpop ⊢
  obtain ⟨hash, c₁⟩ := popped
  refine hpop.trans ?_
  split
  · refine Stepped.trans ?_ (stepped_bootstrap w resolved _)
    cases hash with
    | none => exact (SameCalls.refl c₁).stepped
    | some hash => exact (sameCore_queueHash hash c₁).calls.stepped
  · exact stepped_lookupHash w _ _ _ (length_lookupNodes _ c₁) c₁

theorem stepped_sampleRandomNodes (w : Surroundings) (order : NodeContact → Nat)
    (targets : NodeContact → NodeId) (c : DhtCrawler) :
    Stepped c (c.sampleRandomNodes w order targets) := by
  rw [sampleRandomNodes]
  simp only
  generalize List.take _ (List.filter _ _) = nodes
  obtain ⟨hcalls, hconfig⟩ := calls_foldl w
    (g := fun c' (node : NodeContact) =>
      c'.allowSampling node.id (c.now + c'.config.samplingMinRemoteInterval))
    (fun _ _ => ⟨rfl, rfl⟩)
    (fun node => ⟨node.addr, some node.id, .sampleInfohashes, targets node, none, false, 0, none,
      none⟩) nodes { c with samplingRoundId := (c.samplingRoundId + 1) % 2 ^ 64 }
  refine .single hconfig (.untracked (fun request h => ?_) hcalls)
  obtain ⟨node, -, rfl⟩ := List.mem_map.mp h
  exact ⟨rfl, rfl, nofun⟩

theorem stepped_handle (x : Externals) (w : Surroundings) (event : Event) (c : DhtCrawler) :
    Stepped c (c.handle x w event) := by
  cases event with
  | seedInfoHashes hashes => exact (sameCore_seedInfoHashes w hashes c).calls.stepped
  | seedNodes nodes => exact (sameCalls_seedNodes nodes c).stepped
  | bootstrap resolved => exact stepped_bootstrap w resolved c
  | packet data source =>
    rw [handle]
    split
    · exact (SameCalls.refl c).stepped
    · exact stepped_handlePacket x w _ source c
  | discoveryTick random resolved => exact stepped_discoverPeers w random resolved c
  | samplingTick order targets =>
    rw [handle]
    split
    · exact stepped_sampleRandomNodes w order targets c
    · exact (SameCalls.refl c).stepped
  | refreshTick =>
    exact (stepped_expirePending w c).trans (sameCore_expirePeerCache _).calls.stepped
  | statsTick => exact (sameCore_emitStat _ c).calls.stepped

/-- An event does to the calls what steps of the calls do. -/
theorem stepped_step (x : Externals) (c : DhtCrawler) (turn : Turn) :
    Stepped c (step x c turn) := by
  have hwait : Stepped c (c.wait turn.1.elapsed) := .single rfl (.wait c.rpcs turn.1.elapsed)
  exact hwait.trans (stepped_handle x turn.1 turn.2 _)

theorem stepped_run (x : Externals) (c : DhtCrawler) (turns : List Turn) :
    Stepped c (run x c turns) :=
  Stepped.foldl (stepped_step x) turns c

/-- What every step of the calls keeps holds in every run. -/
theorem run_invariant {I : RpcState → Prop} (x : Externals) (turns : List Turn)
    (hstep : ∀ r r', I r → RpcStep c.config.maxPendingRpcs c.config.rpcTimeout r r' → I r')
    (hc : I c.rpcs) : I (run x c turns).rpcs := by
  have hsteps := (stepped_run x c turns).rpcs
  generalize (run x c turns).rpcs = r at hsteps ⊢
  induction hsteps with
  | refl => exact hc
  | tail _ hlast ih => exact hstep _ _ ih hlast

end DhtCrawler

end Btfind
