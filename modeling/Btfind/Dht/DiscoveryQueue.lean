import Btfind.Dht.Effects
import Btfind.Library.DistinctQueue

/-!
# The discovery queue

The queue, its set, its gauge and its counter are four views of one queue without repetitions,
whatever the crawler does.
-/

namespace Btfind

namespace DhtCrawler

variable {c c' c₀ : DhtCrawler} {x : Externals} {turn : Turn} {limit : Nat}
  {q : DistinctQueue InfoHash limit}

/-- The crawler shows a queue. -/
structure Shows (c : DhtCrawler) (q : DistinctQueue InfoHash limit) : Prop where
  queue : c.discoveryQueue = q.waiting
  set : c.discoverySet = q.waiting.toFinset
  depth : c.metrics.discoveryQueueDepth = q.waiting.length
  accepted : c.metrics.lookupQueueAccepted = q.entered.length
  config : c.config.maxDiscoveryHashes = limit
  nonzero : 0 ∉ q.waiting

theorem Shows.aside (h : Shows c q) (haside : Aside c c') : Shows c' q where
  queue := haside.queue.trans h.queue
  set := haside.set.trans h.set
  depth := haside.depth.trans h.depth
  accepted := haside.accepted.trans h.accepted
  config := by
    rw [haside.config]
    exact h.config
  nonzero := h.nonzero

/-- `queue_hash` lets a hash in exactly when the queue admits it. -/
theorem Shows.queueHash_of_admits (h : Shows c q) {hash : InfoHash} (hzero : hash ≠ 0)
    (hadmits : q.Admits hash) : Shows (c.queueHash hash).2 (q.enter hash hadmits) := by
  have hnew : hash ∉ c.discoverySet := by
    rw [h.set, List.mem_toFinset]
    exact hadmits.1
  have hroom : ¬c.config.maxDiscoveryHashes ≤ c.discoveryQueue.length := by
    rw [h.config, h.queue, not_le]
    exact hadmits.2
  rw [queueHash, if_neg hzero, if_neg hnew, if_neg hroom]
  refine ⟨?_, ?_, ?_, ?_, h.config, ?_⟩
  · exact congrArg (· ++ [hash]) h.queue
  · show insert hash c.discoverySet = (q.waiting ++ [hash]).toFinset
    ext other
    rw [Finset.mem_insert, h.set, List.mem_toFinset, List.mem_toFinset, List.mem_append,
      List.mem_singleton, or_comm]
  · show c.discoveryQueue.length + 1 = (q.waiting ++ [hash]).length
    rw [h.queue, List.length_append, List.length_singleton]
  · show c.metrics.lookupQueueAccepted + 1 = (q.taken ++ (q.waiting ++ [hash])).length
    rw [h.accepted, ← List.append_assoc, List.length_append, List.length_singleton]
    rfl
  · show 0 ∉ q.waiting ++ [hash]
    rw [List.mem_append, List.mem_singleton, not_or]
    exact ⟨h.nonzero, fun heq => hzero heq.symm⟩

theorem Shows.queueHash_of_refuses (h : Shows c q) {hash : InfoHash} (hrefuses : ¬q.Admits hash) :
    Shows (c.queueHash hash).2 q := by
  rw [queueHash]
  split
  · exact h
  · split
    · exact ⟨h.queue, h.set, h.depth, h.accepted, h.config, h.nonzero⟩
    · split
      · exact ⟨h.queue, h.set, h.depth, h.accepted, h.config, h.nonzero⟩
      · next hnew hroom =>
        refine absurd ⟨?_, ?_⟩ hrefuses
        · rwa [h.set, List.mem_toFinset] at hnew
        · rwa [h.config, h.queue, not_le] at hroom

/-- The hash of zeros is never queued, whatever the queue admits. -/
theorem Shows.queueHash (h : Shows c q) (hash : InfoHash) :
    ∃ q' : DistinctQueue InfoHash limit, Shows (c.queueHash hash).2 q' ∧ q'.taken = q.taken ∧
      q.waiting <+: q'.waiting := by
  by_cases hzero : hash = 0
  · refine ⟨q, ?_, rfl, List.prefix_rfl⟩
    rw [DhtCrawler.queueHash, if_pos hzero]
    exact h
  · by_cases hadmits : q.Admits hash
    · exact ⟨q.enter hash hadmits, h.queueHash_of_admits hzero hadmits, rfl, List.prefix_append _ _⟩
    · exact ⟨q, h.queueHash_of_refuses hadmits, rfl, List.prefix_rfl⟩

/-- `pop_front`, with the set and the gauge. -/
theorem Shows.popHash (h : Shows c q) :
    c.popHash.1 = q.waiting.head? ∧ Shows c.popHash.2 q.take := by
  have hentered : c.metrics.lookupQueueAccepted = q.take.entered.length := by
    rw [q.entered_take]
    exact h.accepted
  rw [DhtCrawler.popHash]
  split
  · next hempty =>
    rw [h.queue] at hempty
    have htail : q.take.waiting = q.waiting := by
      show q.waiting.tail = q.waiting
      rw [hempty]
      rfl
    refine ⟨by rw [hempty]; rfl, ?_, ?_, ?_, hentered, h.config, ?_⟩
    · rw [htail]
      exact h.queue
    · rw [htail]
      exact h.set
    · rw [htail, hempty]
      rfl
    · rw [htail]
      exact h.nonzero
  · next hash rest hqueue =>
    rw [h.queue] at hqueue
    have htail : q.take.waiting = rest := congrArg List.tail hqueue
    have hdistinct := q.distinct
    rw [hqueue, List.nodup_cons] at hdistinct
    refine ⟨by rw [hqueue]; rfl, htail.symm, ?_, ?_, hentered, h.config, ?_⟩
    · show c.discoverySet.erase hash = q.take.waiting.toFinset
      rw [h.set, hqueue, htail, List.toFinset_cons, Finset.erase_insert]
      rw [List.mem_toFinset]
      exact hdistinct.1
    · rw [htail]
    · rw [htail]
      intro hmem
      refine h.nonzero ?_
      rw [hqueue]
      exact List.mem_cons_of_mem hash hmem

/-! ## Runs -/

/-- The cache of the peers has no part in the queue. -/
theorem Shows.cachePeer (h : Shows c q) (w : Surroundings) (hash : InfoHash) (peer : PeerContact) :
    Shows (c.cachePeer w hash peer) q := by
  rw [DhtCrawler.cachePeer]
  split <;> exact ⟨h.queue, h.set, h.depth, h.accepted, h.config, h.nonzero⟩

/-- No part of an event takes a hash, or overtakes one that waits. -/
theorem Shows.effects (h : Shows c q) (heffects : Effects x turn c₀ c c') :
    ∃ q' : DistinctQueue InfoHash limit, Shows c' q' ∧ q'.taken = q.taken ∧
      q.waiting <+: q'.waiting := by
  refine heffects.invariant (I := fun c' => ∃ q' : DistinctQueue InfoHash limit, Shows c' q' ∧
    q'.taken = q.taken ∧ q.waiting <+: q'.waiting) ?_ ⟨q, h, rfl, List.prefix_rfl⟩
  rintro c₁ c₂ ⟨q₁, hshows, htaken, hprefix⟩ heffect
  cases heffect with
  | aside haside => exact ⟨q₁, hshows.aside haside, htaken, hprefix⟩
  | offered hash =>
    obtain ⟨q₂, hshows₂, htaken₂, hprefix₂⟩ := hshows.queueHash hash
    exact ⟨q₂, hshows₂, htaken₂.trans htaken, hprefix.trans hprefix₂⟩
  | cached => exact ⟨q₁, hshows.cachePeer _ _ _, htaken, hprefix⟩
  | expired =>
    exact ⟨q₁, ⟨hshows.queue, hshows.set, hshows.depth, hshows.accepted, hshows.config,
      hshows.nonzero⟩, htaken, hprefix⟩

/-- The hash that a turn takes from the queue. -/
def poppedBy (c : DhtCrawler) (turn : Turn) : Option InfoHash :=
  match turn.2 with
  | .discoveryTick .. => ((c.wait turn.1.elapsed).expirePending turn.1).popHash.1
  | _ => none

/-- The hashes that a run takes from the queue, in order. -/
def popped (x : Externals) : DhtCrawler → List Turn → List InfoHash
  | _, [] => []
  | c, turn :: turns => (c.poppedBy turn).toList ++ popped x (step x c turn) turns

theorem Shows.discoverPeers (h : Shows c q) (x : Externals) (w : Surroundings) (random : InfoHash)
    (resolved : List SocketAddrV4) : ∃ q' : DistinctQueue InfoHash limit,
      Shows (c.discoverPeers w random resolved) q' ∧
        q'.taken = q.taken ++ (c.expirePending w).popHash.1.toList := by
  have hexpire : Effects x (w, .discoveryTick random resolved) c c (c.expirePending w) :=
    effects_expirePending w c
  have hlookup : Effects x (w, .discoveryTick random resolved) c (c.expirePending w).popHash.2
      (c.discoverPeers w random resolved) := effects_discoverPeers w random resolved c
  obtain ⟨q₁, hshows₁, htaken₁, -⟩ := h.effects hexpire
  obtain ⟨hpopped, hshows₂⟩ := hshows₁.popHash
  obtain ⟨q₃, hshows₃, htaken₃, -⟩ := hshows₂.effects hlookup
  refine ⟨q₃, hshows₃, htaken₃.trans ?_⟩
  rw [hpopped, ← htaken₁]
  rfl

theorem Shows.step (h : Shows c q) (x : Externals) (turn : Turn) :
    ∃ q' : DistinctQueue InfoHash limit, Shows (step x c turn) q' ∧
      q'.taken = q.taken ++ (c.poppedBy turn).toList := by
  obtain ⟨w, event⟩ := turn
  have hwait := h.aside (aside_wait w.elapsed c)
  have hother : (∀ random resolved, event ≠ .discoveryTick random resolved) →
      ∃ q' : DistinctQueue InfoHash limit, Shows (DhtCrawler.step x c (w, event)) q' ∧
        q'.taken = q.taken ++ [] := by
    intro hevent
    obtain ⟨q', hshows, htaken, -⟩ := hwait.effects (effects_handle (x := x) w event _ hevent)
    exact ⟨q', hshows, htaken.trans (List.append_nil _).symm⟩
  cases event with
  | discoveryTick random resolved => exact hwait.discoverPeers x w random resolved
  | _ => exact hother (by rintro _ _ ⟨⟩)

/-- In a run the crawler shows one queue, from which the hashes were taken that the run
took. -/
theorem Shows.run (h : Shows c q) (x : Externals) (turns : List Turn) :
    ∃ q' : DistinctQueue InfoHash limit, Shows (run x c turns) q' ∧
      q'.taken = q.taken ++ popped x c turns := by
  induction turns generalizing c q with
  | nil => exact ⟨q, h, (List.append_nil _).symm⟩
  | cons turn turns ih =>
    obtain ⟨q₁, hshows₁, htaken₁⟩ := h.step x turn
    obtain ⟨q₂, hshows₂, htaken₂⟩ := ih hshows₁
    refine ⟨q₂, hshows₂, ?_⟩
    rw [htaken₂, htaken₁, List.append_assoc]
    rfl

theorem shows_withConfig (ourId : NodeId) (tokenSecret : Bytes) (config : DhtConfig) (clock : Nat)
    (nextTx : BitVec 16) : Shows (.withConfig ourId tokenSecret config clock nextTx)
      (.empty : DistinctQueue InfoHash config.maxDiscoveryHashes) :=
  ⟨rfl, rfl, rfl, rfl, rfl, List.not_mem_nil⟩

/-- The queue, its set, its gauge and its counter agree at the end of every run. -/
theorem discovery_queue_consistent (x : Externals) (ourId : NodeId) (tokenSecret : Bytes)
    (config : DhtConfig) (clock : Nat) (nextTx : BitVec 16) (turns : List Turn) :
    let start := withConfig ourId tokenSecret config clock nextTx
    let c := run x start turns
    c.discoveryQueue.Nodup ∧
      (∀ hash, hash ∈ c.discoverySet ↔ hash ∈ c.discoveryQueue) ∧
      c.discoveryQueue.length ≤ config.maxDiscoveryHashes ∧
      c.metrics.discoveryQueueDepth = c.discoveryQueue.length ∧
      c.metrics.lookupQueueAccepted = (popped x start turns).length + c.discoveryQueue.length := by
  intro start c
  obtain ⟨q, hshows, htaken⟩ := (shows_withConfig ourId tokenSecret config clock nextTx).run x turns
  have hqueue : c.discoveryQueue = q.waiting := hshows.queue
  have hset : c.discoverySet = q.waiting.toFinset := hshows.set
  refine ⟨hqueue ▸ q.distinct, fun hash => ?_, hqueue ▸ q.few, ?_, ?_⟩
  · rw [hset, hqueue, List.mem_toFinset]
  · rw [hqueue]
    exact hshows.depth
  · have haccepted : c.metrics.lookupQueueAccepted = q.entered.length := hshows.accepted
    rw [haccepted, q.length_entered, hqueue, htaken]
    rfl

end DhtCrawler

end Btfind
