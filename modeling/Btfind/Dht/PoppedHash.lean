import Btfind.Dht.DiscoveryQueue
import Btfind.Dht.Transactions

/-!
# A hash that was taken from the queue

`discover_peers` takes a hash before it knows whether a node can be asked for it. If there is
no node at all it queues the hash again, but if there are nodes and none of the calls is sent
the hash is gone.
-/

namespace Btfind

open Quarantine

namespace DhtCrawler

variable {c c' c'' c₀ : DhtCrawler} {w : Surroundings} {hash : InfoHash} {request : RpcRequest}
  {nodes : List NodeContact}

/-! ## One call -/

/-- A transaction can be allocated. -/
structure Ready (c : DhtCrawler) : Prop where
  room : c.rpcs.pool.pending.count < c.config.maxPendingRpcs
  free : ∃ tx, c.rpcs.pool.Free (transactionIdBytes tx)

/-- No call was sent, and the next one can be made as before. -/
structure Unsent (c c' : DhtCrawler) : Prop where
  pending : c'.rpcs.pool.pending = c.rpcs.pool.pending
  retired : c'.rpcs.pool.retired = c.rpcs.pool.retired
  outbox : c'.outbox = c.outbox
  config : c'.config = c.config
  ourId : c'.ourId = c.ourId

theorem Unsent.refl (c : DhtCrawler) : Unsent c c := ⟨rfl, rfl, rfl, rfl, rfl⟩

theorem Unsent.trans (h : Unsent c c') (h' : Unsent c' c'') : Unsent c c'' :=
  ⟨h'.pending.trans h.pending, h'.retired.trans h.retired, h'.outbox.trans h.outbox,
    h'.config.trans h.config, h'.ourId.trans h.ourId⟩

theorem Unsent.ready_iff (h : Unsent c c') : c'.Ready ↔ c.Ready := by
  have hfree : ∀ k, c'.rpcs.pool.Free k ↔ c.rpcs.pool.Free k := fun k => by
    rw [Pool.Free, Pool.Free, h.pending, h.retired]
  constructor
  · rintro ⟨hroom, tx, htx⟩
    rw [h.pending, h.config] at hroom
    exact ⟨hroom, tx, (hfree _).mp htx⟩
  · rintro ⟨hroom, tx, htx⟩
    rw [← h.pending, ← h.config] at hroom
    exact ⟨hroom, tx, (hfree _).mpr htx⟩

/-- What a call comes to. -/
inductive Tried (w : Surroundings) (request : RpcRequest) (c c' : DhtCrawler) : Prop
  | blocked (ready : ¬c.Ready) (unsent : Unsent c c')
      (attempts : c'.rpcs.attempts = c.rpcs.attempts)
  | refused (answer : (w.sends c.rpcs.attempts).sent = false) (unsent : Unsent c c')
      (attempts : c'.rpcs.attempts = c.rpcs.attempts + 1)
  | sent (tx : BitVec 16) (deadline : Nat) (answer : (w.sends c.rpcs.attempts).sent = true)
      (ready : c.Ready) (free : c.rpcs.pool.Free (transactionIdBytes tx))
      (pending : c'.rpcs.pool.pending =
        c.rpcs.pool.pending.insert (transactionIdBytes tx) ⟨request, deadline⟩)
      (outbox : c'.outbox =
        (request.expectedAddr, queryMessage request.method c.ourId request.target tx) :: c.outbox)

theorem tried_sendRpc (w : Surroundings) (request : RpcRequest) (c : DhtCrawler) :
    Tried w request c (c.sendRpc w request) := by
  have hready := RpcState.allocateTransaction_isSome c.config.maxPendingRpcs c.rpcs
  rw [sendRpc, RpcState.sendRpc]
  cases halloc : c.rpcs.allocateTransaction c.config.maxPendingRpcs with
  | mk found nextTx =>
    rw [halloc] at hready
    cases found with
    | none =>
      refine .blocked (fun h => ?_) ⟨rfl, rfl, rfl, rfl, rfl⟩ rfl
      exact Bool.false_ne_true (hready.mpr ⟨h.room, h.free⟩)
    | some tx =>
      obtain ⟨hroom, hfree⟩ := hready.mp rfl
      obtain ⟨htx, -⟩ := RpcState.allocateTransaction_some halloc
      simp only
      rw [RpcState.transmit]
      cases hanswer : (w.sends c.rpcs.attempts).sent with
      | true => exact .sent tx _ hanswer ⟨hroom, hfree⟩ htx rfl rfl
      | false =>
        -- The entry of the failed call is removed, and its key was not in use.
        refine .refused hanswer ⟨?_, rfl, rfl, rfl, rfl⟩ rfl
        exact AList.erase_insert_of_none htx.1

/-! ## The calls of a lookup -/

/-- A call for the hash was sent, and is pending. -/
def Asked (hash : InfoHash) (c c' : DhtCrawler) : Prop :=
  ∃ (tx : BitVec 16) (rpc : PendingRpc) (sent : List (SocketAddrV4 × KrpcMessage)),
    c'.outbox = sent ++ c.outbox ∧
    (rpc.expectedAddr, queryMessage .getPeers c.ourId hash tx) ∈ sent ∧
    c.rpcs.pool.pending.lookup (transactionIdBytes tx) = none ∧
    c'.rpcs.pool.pending.lookup (transactionIdBytes tx) = some rpc ∧
    rpc.method = .getPeers ∧ rpc.infoHash = some hash

/-- A transaction can be allocated, and the network takes one of the calls. -/
structure CanAsk (w : Surroundings) (nodes : List NodeContact) (c : DhtCrawler) : Prop where
  ready : c.Ready
  taken : ∃ i < nodes.length, (w.sends (c.rpcs.attempts + i)).sent = true

theorem Unsent.not_asked (h : Unsent c c') : ¬Asked hash c c' := by
  rintro ⟨tx, rpc, sent, houtbox, hmem, -⟩
  rw [h.outbox] at houtbox
  rw [List.self_eq_append_left.mp houtbox] at hmem
  cases hmem

/-- A later call has another transaction. -/
theorem Asked.tried (h : Asked hash c₀ c) (htried : Tried w request c c') : Asked hash c₀ c' := by
  obtain ⟨tx, rpc, sent, houtbox, hmem, hbefore, hpending, hmethod, hhash⟩ := h
  cases htried with
  | blocked _ hunsent | refused _ hunsent =>
    refine ⟨tx, rpc, sent, hunsent.outbox.trans houtbox, hmem, hbefore, ?_, hmethod, hhash⟩
    rw [hunsent.pending]
    exact hpending
  | sent tx' deadline _ _ hfree hpending' houtbox' =>
    have hother : transactionIdBytes tx ≠ transactionIdBytes tx' := by
      intro heq
      rw [heq, hfree.1] at hpending
      cases hpending
    let datagram := (request.expectedAddr, queryMessage request.method c.ourId request.target tx')
    refine ⟨tx, rpc, datagram :: sent, ?_, List.mem_cons_of_mem _ hmem, hbefore, ?_, hmethod, hhash⟩
    · rw [houtbox', houtbox]
      rfl
    · rw [hpending', AList.lookup_insert_ne hother]
      exact hpending

variable {real : Bool} {lookupId : Option (BitVec 64)}

theorem Asked.askNodes (h : Asked hash c₀ c) (w : Surroundings) (nodes : List NodeContact) :
    Asked hash c₀ (c.askNodes w hash real lookupId nodes) :=
  List.foldlRecOn nodes _ h fun c hc _ _ => hc.tried (tried_sendRpc w _ c)

theorem Unsent.asked (h : Unsent c₀ c) (hasked : Asked hash c c') : Asked hash c₀ c' := by
  obtain ⟨tx, rpc, sent, houtbox, hmem, hbefore, hrest⟩ := hasked
  rw [h.outbox] at houtbox
  rw [h.ourId] at hmem
  rw [h.pending] at hbefore
  exact ⟨tx, rpc, sent, houtbox, hmem, hbefore, hrest⟩

/-- The nodes are asked one after the other until a call is sent, and then on. -/
theorem asked_of_canAsk (h : CanAsk w nodes c) :
    Asked hash c (c.askNodes w hash real lookupId nodes) := by
  induction nodes generalizing c with
  | nil =>
    obtain ⟨i, hi, -⟩ := h.taken
    exact absurd hi (Nat.not_lt_zero i)
  | cons node nodes ih =>
    let request : RpcRequest :=
      ⟨node.addr, some node.id, .getPeers, hash, some hash, real, 2, lookupId, none⟩
    have hfirst := tried_sendRpc w request c
    show Asked hash c ((c.sendRpc w request).askNodes w hash real lookupId nodes)
    generalize c.sendRpc w request = c₁ at hfirst ⊢
    cases hfirst with
    | blocked hblocked => exact absurd h.ready hblocked
    | refused hanswer hunsent hattempts =>
      refine hunsent.asked (ih ⟨hunsent.ready_iff.mpr h.ready, ?_⟩)
      obtain ⟨i, hi, htaken⟩ := h.taken
      cases i with
      | zero =>
        rw [Nat.add_zero, hanswer] at htaken
        cases htaken
      | succ i =>
        refine ⟨i, Nat.lt_of_succ_lt_succ hi, ?_⟩
        rw [hattempts, Nat.add_assoc, Nat.add_comm 1]
        exact htaken
    | sent tx deadline _ _ hfree hpending houtbox =>
      refine Asked.askNodes ⟨tx, ⟨request, deadline⟩, [_], houtbox, List.mem_singleton_self _,
        hfree.1, ?_, rfl, rfl⟩ w nodes
      rw [hpending]
      exact AList.lookup_insert _

theorem unsent_of_not_canAsk (h : ¬CanAsk w nodes c) :
    Unsent c (c.askNodes w hash real lookupId nodes) := by
  induction nodes generalizing c with
  | nil => exact .refl c
  | cons node nodes ih =>
    let request : RpcRequest :=
      ⟨node.addr, some node.id, .getPeers, hash, some hash, real, 2, lookupId, none⟩
    have hfirst := tried_sendRpc w request c
    show Unsent c ((c.sendRpc w request).askNodes w hash real lookupId nodes)
    generalize c.sendRpc w request = c₁ at hfirst ⊢
    cases hfirst with
    | blocked hblocked hunsent =>
      exact hunsent.trans (ih fun hcan => hblocked (hunsent.ready_iff.mp hcan.ready))
    | refused _ hunsent hattempts =>
      refine hunsent.trans (ih fun hcan => h ⟨hunsent.ready_iff.mp hcan.ready, ?_⟩)
      obtain ⟨i, hi, htaken⟩ := hcan.taken
      refine ⟨i + 1, Nat.succ_lt_succ hi, ?_⟩
      rwa [hattempts, Nat.add_assoc, Nat.add_comm 1] at htaken
    | sent _ _ hanswer hready =>
      exact absurd ⟨hready, 0, Nat.succ_pos _, hanswer⟩ h

/-- The calls of a lookup, with the tracker before and after them. -/
theorem asked_lookupHash_iff (w : Surroundings) (real : Bool) (nodes : List NodeContact)
    (c : DhtCrawler) : Asked hash c (c.lookupHash w hash real nodes) ↔ CanAsk w nodes c := by
  have hiff : ∀ c (lookupId : Option (BitVec 64)),
      Asked hash c (c.askNodes w hash real lookupId nodes) ↔ CanAsk w nodes c := by
    intro c lookupId
    refine ⟨fun hasked => ?_, asked_of_canAsk⟩
    by_contra hcan
    exact (unsent_of_not_canAsk hcan).not_asked hasked
  rw [lookupHash]
  split
  · let begun := c.updateLookups fun lookups => lookups.begin.2
    have hbegun : CanAsk w nodes begun ↔ CanAsk w nodes c :=
      ⟨fun h => ⟨⟨h.ready.room, h.ready.free⟩, h.taken⟩,
        fun h => ⟨⟨h.ready.room, h.ready.free⟩, h.taken⟩⟩
    exact (hiff begun (some c.rpcs.lookups.begin.1)).trans hbegun
  · exact hiff c none

/-! ## A tick -/

/-- The hash is asked for or queued again. -/
def Kept (hash : InfoHash) (c c' : DhtCrawler) : Prop :=
  Asked hash c c' ∨ hash ∈ c'.discoveryQueue ∧ hash ∈ c'.discoverySet

variable {limit : Nat} {q : DistinctQueue InfoHash limit}

/-- The front that was taken comes back to the end of the queue. -/
theorem Shows.queueHash_front (h : Shows c q) (hfront : c.popHash.1 = some hash) :
    hash ∈ (c.popHash.2.queueHash hash).2.discoveryQueue ∧
      hash ∈ (c.popHash.2.queueHash hash).2.discoverySet := by
  obtain ⟨hpopped, hshows⟩ := h.popHash
  rw [hfront] at hpopped
  have hmem : hash ∈ q.waiting := List.mem_of_mem_head? hpopped.symm
  have hzero : hash ≠ 0 := fun heq => h.nonzero (heq ▸ hmem)
  have hqueued := hshows.queueHash_of_admits hzero (DistinctQueue.admits_front hpopped.symm)
  rw [hqueued.queue, hqueued.set, List.mem_toFinset]
  have hback : hash ∈ q.take.waiting ++ [hash] := List.mem_concat_self
  exact ⟨hback, hback⟩

theorem Shows.not_mem_popHash (h : Shows c q) (hfront : c.popHash.1 = some hash) :
    hash ∉ c.popHash.2.discoveryQueue := by
  obtain ⟨hpopped, hshows⟩ := h.popHash
  rw [hfront] at hpopped
  rw [hshows.queue]
  exact (DistinctQueue.admits_front hpopped.symm).1

theorem Shows.kept_iff (h : Shows (c.expirePending w) q) (random : InfoHash)
    (resolved : List SocketAddrV4) (hfront : (c.expirePending w).popHash.1 = some hash) :
    Kept hash (c.expirePending w).popHash.2 (c.discoverPeers w random resolved) ↔
      (c.expirePending w).popHash.2.lookupNodes hash = [] ∨
        CanAsk w ((c.expirePending w).popHash.2.lookupNodes hash) (c.expirePending w).popHash.2 := by
  have hback := h.queueHash_front hfront
  have hgone := h.not_mem_popHash hfront
  rw [DhtCrawler.discoverPeers]
  generalize (c.expirePending w).popHash = popped at hfront hback hgone ⊢
  obtain ⟨front, c₁⟩ := popped
  obtain rfl : front = some hash := hfront
  simp only [Option.getD_some, Option.elim_some, Option.isSome_some] at hback hgone ⊢
  by_cases hnone : c₁.lookupNodes hash = []
  · -- The bootstrap leaves the queue alone.
    have haside := aside_bootstrap w resolved (c₁.queueHash hash).2
    refine iff_of_true (.inr ?_) (.inl hnone)
    rw [if_pos (List.isEmpty_iff.mpr hnone), haside.queue, haside.set]
    exact hback
  · have haside := aside_lookupHash w hash true (c₁.lookupNodes hash) c₁
    have hasked : Asked hash c₁ _ ↔ _ := asked_lookupHash_iff w true (c₁.lookupNodes hash) c₁
    rw [if_neg (mt List.isEmpty_iff.mp hnone), Kept, hasked, haside.queue]
    constructor
    · rintro (hcan | ⟨hmem, -⟩)
      · exact .inr hcan
      · exact absurd hmem hgone
    · rintro (hempty | hcan)
      · exact absurd hempty hnone
      · exact .inl hcan

/-- A hash that a lookup takes is asked for or queued again exactly if no node is known, or a
transaction can be allocated and the network takes a call. -/
theorem popped_hash_kept_iff (x : Externals) (ourId : NodeId) (tokenSecret : Bytes)
    (config : DhtConfig) (clock : Nat) (nextTx : BitVec 16) (turns : List Turn) (w : Surroundings)
    (random : InfoHash) (resolved : List SocketAddrV4) (hash : InfoHash) :
    let c := run x (.withConfig ourId tokenSecret config clock nextTx) turns
    let c₁ := (c.wait w.elapsed).expirePending w
    c₁.popHash.1 = some hash →
      (Kept hash c₁.popHash.2 (step x c (w, .discoveryTick random resolved)) ↔
        c₁.popHash.2.lookupNodes hash = [] ∨
          CanAsk w (c₁.popHash.2.lookupNodes hash) c₁.popHash.2) := by
  intro c c₁ hfront
  obtain ⟨q, hshows, -⟩ := (shows_withConfig ourId tokenSecret config clock nextTx).run x turns
  have hexpire : Effects x (w, .discoveryTick random resolved) (c.wait w.elapsed) (c.wait w.elapsed)
      c₁ := effects_expirePending w _
  obtain ⟨q₁, hshows₁, -⟩ := (hshows.aside (aside_wait w.elapsed c)).effects hexpire
  exact hshows₁.kept_iff random resolved hfront

/-- A node and a hash to ask it for. -/
def seeded : DhtCrawler :=
  let node : NodeContact := ⟨2, ⟨⟨8, 8, 8, 8⟩, 53⟩⟩
  run ⟨BencodeValue.decode, id⟩ (.withConfig 1 [] .default 0 0)
    [(.quiet 0, .seedNodes [node]), (.quiet 0, .seedInfoHashes [7])]

/-- In a quiet network the node is asked. -/
theorem popped_hash_kept_quiet :
    Kept 7 (((seeded.wait 0).expirePending (.quiet 0)).popHash.2)
      (step ⟨BencodeValue.decode, id⟩ seeded (.quiet 0, .discoveryTick 9 [])) := by
  have hfront : ((seeded.wait 0).expirePending (.quiet 0)).popHash.1 = some 7 := by decide +kernel
  refine (popped_hash_kept_iff ⟨BencodeValue.decode, id⟩ 1 [] .default 0 0 _ (.quiet 0) 9 [] 7
    hfront).mpr (.inr ⟨⟨?_, 0, ?_⟩, 0, ?_, rfl⟩)
  · decide +kernel
  · exact ⟨rfl, rfl⟩
  · decide +kernel

/-- A network that takes no datagram. -/
def refusing : Surroundings := { Surroundings.quiet 0 with sends _ := ⟨0, false⟩ }

/-- When the only call is refused, the hash is neither asked for nor queued. -/
theorem not_every_popped_hash_kept :
    ¬ ∀ (x : Externals) (ourId : NodeId) (tokenSecret : Bytes) (config : DhtConfig) (clock : Nat)
      (nextTx : BitVec 16) (turns : List Turn) (w : Surroundings) (random : InfoHash)
      (resolved : List SocketAddrV4) (hash : InfoHash),
      let c := run x (.withConfig ourId tokenSecret config clock nextTx) turns
      let c₁ := (c.wait w.elapsed).expirePending w
      c₁.popHash.1 = some hash →
        Kept hash c₁.popHash.2 (step x c (w, .discoveryTick random resolved)) := by
  intro hclaim
  have hfront : ((seeded.wait 0).expirePending refusing).popHash.1 = some 7 := by decide +kernel
  let after := step ⟨BencodeValue.decode, id⟩ seeded (refusing, .discoveryTick 9 [])
  have hsent : after.outbox.length = 0 := by decide +kernel
  have hqueue : after.discoveryQueue = [] := by decide +kernel
  rcases hclaim ⟨BencodeValue.decode, id⟩ 1 [] .default 0 0 _ refusing 9 [] 7 hfront with
    ⟨tx, rpc, sent, houtbox, hmem, -⟩ | ⟨hmem, -⟩
  · have hnone : after.outbox = [] := List.eq_nil_of_length_eq_zero hsent
    have happend : sent ++ _ = [] := houtbox.symm.trans hnone
    rw [(List.append_eq_nil_iff.mp happend).1] at hmem
    cases hmem
  · have hempty : 7 ∈ after.discoveryQueue := hmem
    rw [hqueue] at hempty
    cases hempty

end DhtCrawler

end Btfind
