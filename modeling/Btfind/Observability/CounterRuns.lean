import Btfind.Dht.PublicPeers
import Btfind.Library.Transition
import Btfind.Observability.CrawlerMetrics

/-!
# Runs of the counters

The crawler and its counters. The updates of a turn are made one after the other, and those
of the other tasks come in between.
-/

namespace Btfind

open CrawlerMetrics MetricUpdate Transition

/-- The calls of the metadata worker, of the statistics task and of the status task. -/
inductive OtherCall
  | metadataFetched
  | metadataFetchFailed (reason : MetadataFailureReason)
  | discoveryBackpressure
  | metadataQueue (activeJobs queuedJobs pendingPeers : Nat)
  | persistenceError
  | metadataJobAdmission (admission : MetadataJobAdmission)
  | metadataRetrievalOutcome (outcome : MetadataRetrievalOutcome)
  | torrentsInserted (count : UInt64)
  | hashJobsCreated (count : UInt64)
  | peerlessJobsSkipped (count : UInt64)
  | peerBearingDiscoveriesPersisted (count : UInt64)
  | peerRecords (inserted updated deleted : UInt64)
  | metadataFetchedInterval (total : UInt64)

def OtherCall.updates : OtherCall → List MetricUpdate
  | .metadataFetched => apply .metadataFetched
  | .metadataFetchFailed reason => apply (.metadataFetchFailed reason)
  | .discoveryBackpressure => apply .discoveryBackpressure
  | .metadataQueue activeJobs queuedJobs pendingPeers =>
    apply (.metadataQueue activeJobs queuedJobs pendingPeers)
  | .persistenceError => recordPersistenceError
  | .metadataJobAdmission admission => recordMetadataJobAdmission admission
  | .metadataRetrievalOutcome outcome => recordMetadataRetrievalOutcome outcome
  | .torrentsInserted count => recordTorrentsInserted count
  | .hashJobsCreated count => recordHashJobsCreated count
  | .peerlessJobsSkipped count => recordPeerlessJobsSkipped count
  | .peerBearingDiscoveriesPersisted count => recordPeerBearingDiscoveriesPersisted count
  | .peerRecords inserted updated deleted => recordPeerRecords inserted updated deleted
  | .metadataFetchedInterval total => CrawlerMetrics.metadataFetchedInterval total

/-! ## The crawler -/

/-- The calls that the crawler makes besides `emit_stat`, and how many it has made. -/
def DhtCrawler.recorded (c : DhtCrawler) : List (List MetricUpdate × Nat) :=
  [(recordLookupQueueAccepted, c.metrics.lookupQueueAccepted),
    (recordLookupQueueDuplicate, c.metrics.lookupQueueDuplicate),
    (recordLookupQueueCapacityRejected, c.metrics.lookupQueueCapacityRejected),
    (recordRealLookupInitiated, c.rpcs.lookups.initiated),
    (recordRealLookupSucceeded, c.rpcs.lookups.succeeded),
    (recordRealLookupFailed, c.rpcs.lookups.failed),
    (recordRealLookupRpcTimeout, c.rpcs.lookups.rpcTimeouts),
    (recordRealLookupRpcFailure, c.rpcs.lookups.rpcFailures),
    (recordRealLookupRpcUnsent, c.rpcs.lookups.rpcUnsent),
    (CrawlerMetrics.recordGetPeersResponse true, c.metrics.responsesWithPeers),
    (CrawlerMetrics.recordGetPeersResponse false, c.metrics.responsesNodesOnly)]

/-- The updates of the other calls of a turn. -/
def otherUpdates (c c' : DhtCrawler) : List MetricUpdate :=
  (c.recorded.zip c'.recorded).flatMap
      (fun e => (List.replicate (e.2.2 - e.1.2) e.1.1).flatten) ++
    setDiscoveryQueueDepth c'.metrics.discoveryQueueDepth

/-- The updates of a turn: those of the new statistics, and those of the other calls, which
are about other counters. -/
def turnUpdates (c c' : DhtCrawler) : List MetricUpdate :=
  (c'.stats.take (c'.stats.length - c.stats.length)).reverse.flatMap apply ++ otherUpdates c c'

/-- `todo` holds the updates that the turn of the crawler has still to make. -/
structure Process where
  crawler : DhtCrawler
  metrics : CrawlerMetrics
  todo : List MetricUpdate

inductive ProcessEvent
  | turned (turn : DhtCrawler.Turn)
  | updated
  | recorded (call : OtherCall) (index : Nat)

namespace Process

variable {x : Externals} {p p' : Process} {e : ProcessEvent}

def next (x : Externals) (p : Process) : ProcessEvent → Option Process
  | .turned turn =>
    if p.todo.isEmpty then
      let crawler := p.crawler.step x turn
      some { p with crawler := crawler, todo := turnUpdates p.crawler crawler }
    else none
  | .updated =>
    match p.todo with
    | [] => none
    | update :: todo => some { p with metrics := update.run p.metrics, todo := todo }
  | .recorded call index =>
    call.updates[index]?.map fun update => { p with metrics := update.run p.metrics }

def Step (x : Externals) (p : Process) (e : ProcessEvent) (p' : Process) : Prop :=
  next x p e = some p'

/-- `with_config` also stores the capacity of the queue. -/
def start (ourId : NodeId) (tokenSecret : Bytes) (config : DhtConfig) (clock : Nat)
    (nextTx : BitVec 16) : Process where
  crawler := .withConfig ourId tokenSecret config clock nextTx
  metrics := (setDiscoveryQueueCapacity config.maxDiscoveryHashes).foldl MetricUpdate.run CrawlerMetrics.default
  todo := []

end Process

/-! ## When a total falls -/

namespace CrawlStatsEvent

def isSnapshot : CrawlStatsEvent → Bool
  | .dhtSnapshot .. => true
  | _ => false

/-- An observation that `seed_info_hashes` reports. -/
def isResumed : CrawlStatsEvent → Bool
  | .hashObserved _ source _ _ _ => source = .resume
  | _ => false

/-- An observation that `publish_discovery` reports. -/
def isFound : CrawlStatsEvent → Bool
  | .hashObserved _ source _ _ _ => source ≠ .resume
  | _ => false

end CrawlStatsEvent

/-- How many resumed hashes were reported since the last snapshot. -/
def resumedSince (stats : List CrawlStatsEvent) : Nat :=
  (stats.takeWhile fun event => !event.isSnapshot).countP CrawlStatsEvent.isResumed

/-- An update that a snapshot does not make. -/
def MetricUpdate.isPlain : MetricUpdate → Bool
  | .add counter n => counter ≠ .queriesSent && (counter ≠ .hashesDiscovered || n = 1)
  | .store counter _ => isGauge counter

/-- The sum fits into the counter. -/
def MetricUpdate.fits (m : CrawlerMetrics) : MetricUpdate → Bool
  | .add counter n => (m counter).toNat + n.toNat < 2 ^ 64
  | .store _ _ => true

namespace Process

/-- A snapshot is taken only if no hash was resumed since the last one, and no counter
overflows. -/
def safe (p : Process) : ProcessEvent → Bool
  | .turned turn =>
    match turn.2 with
    | .statsTick => resumedSince p.crawler.stats = 0 && p.crawler.queriesSent < 2 ^ 64
    | _ => true
  | .updated => p.todo.head?.all fun update => update.fits p.metrics
  | .recorded call index => call.updates[index]?.all fun update => update.fits p.metrics

/-- What the crawler counts and what it reports agree. -/
structure Counted (p : Process) : Prop where
  found : p.crawler.infoHashesFound =
    min (p.crawler.stats.countP CrawlStatsEvent.isFound) (2 ^ 64 - 1)
  queries : (p.metrics .queriesSent).toNat ≤ p.crawler.queriesSent
  hashes : (p.metrics .hashesDiscovered).toNat + p.todo.count (increment .hashesDiscovered) ≤
    p.crawler.stats.countP CrawlStatsEvent.isFound + resumedSince p.crawler.stats
  pending : ∀ update ∈ p.todo, update.isPlain = true ∨
    update = .store .queriesSent (ofUsize p.crawler.queriesSent) ∧
      p.crawler.queriesSent < 2 ^ 64 ∨
    update = .store .hashesDiscovered (ofUsize p.crawler.infoHashesFound) ∧
      resumedSince p.crawler.stats = 0 ∧ p.todo.count (increment .hashesDiscovered) = 0

end Process

/-! ## What the crawler reports -/

section Updates

variable {event : CrawlStatsEvent} {update : MetricUpdate}

theorem isPlain_apply (h : event.isSnapshot = false) :
    ∀ update ∈ apply event, update.isPlain = true := by
  cases event with
  | dhtSnapshot => cases h
  | hashObserved hash source hasPeers accepted peers =>
    cases hasPeers <;> cases accepted <;> simp [apply, observe, increment, MetricUpdate.isPlain]
  | _ => simp [apply, increment, MetricUpdate.isPlain, isGauge]

theorem count_apply (h : event.isSnapshot = false) :
    (apply event).count (increment .hashesDiscovered) =
      [event].countP CrawlStatsEvent.isFound + [event].countP CrawlStatsEvent.isResumed := by
  cases event with
  | dhtSnapshot => cases h
  | hashObserved hash source hasPeers accepted peers =>
    cases hasPeers <;> cases accepted <;> cases source <;> rfl
  | _ => rfl

/-- Every observation is counted once. -/
theorem count_flatMap_apply {new : List CrawlStatsEvent}
    (h : ∀ event ∈ new, event.isSnapshot = false) :
    (new.reverse.flatMap apply).count (increment .hashesDiscovered) =
      new.countP CrawlStatsEvent.isFound + new.countP CrawlStatsEvent.isResumed := by
  induction new with
  | nil => rfl
  | cons event new ih =>
    have hcons : ∀ q : CrawlStatsEvent → Bool,
        (event :: new).countP q = [event].countP q + new.countP q := by
      intro q
      show ([event] ++ new).countP q = _
      exact List.countP_append
    rw [List.reverse_cons, List.flatMap_append, List.count_append,
      ih fun other hother => h other (List.mem_cons_of_mem _ hother), List.flatMap_singleton,
      count_apply (h event List.mem_cons_self), hcons, hcons]
    omega

/-- Neither of the totals that a snapshot stores. -/
def Unrelated (update : MetricUpdate) : Prop :=
  update.isPlain = true ∧ update.counter ≠ .hashesDiscovered ∧ update.counter ≠ .queriesSent

theorem unrelated_other (call : OtherCall) : ∀ update ∈ call.updates, Unrelated update := by
  cases call <;> simp [OtherCall.updates, apply, recordPersistenceError, recordMetadataJobAdmission,
    recordMetadataRetrievalOutcome, recordTorrentsInserted, recordHashJobsCreated,
    recordPeerlessJobsSkipped, recordPeerBearingDiscoveriesPersisted, recordPeerRecords,
    CrawlerMetrics.metadataFetchedInterval, increment, Unrelated, MetricUpdate.isPlain,
    MetricUpdate.counter, isGauge]

theorem unrelated_recorded (c : DhtCrawler) :
    ∀ call ∈ c.recorded, ∀ update ∈ call.1, Unrelated update := by
  simp [DhtCrawler.recorded, recordLookupQueueAccepted, recordLookupQueueDuplicate,
    recordLookupQueueCapacityRejected, recordRealLookupInitiated, recordRealLookupSucceeded,
    recordRealLookupFailed, recordRealLookupRpcTimeout, recordRealLookupRpcFailure,
    recordRealLookupRpcUnsent, CrawlerMetrics.recordGetPeersResponse, increment, Unrelated, MetricUpdate.isPlain,
    MetricUpdate.counter]

theorem unrelated_otherUpdates (c c' : DhtCrawler) :
    ∀ update ∈ otherUpdates c c', Unrelated update := by
  intro update h
  obtain h | h := List.mem_append.mp h
  · obtain ⟨⟨call, call'⟩, hcalls, hmem⟩ := List.mem_flatMap.mp h
    obtain ⟨updates, hupdates, hmem⟩ := List.mem_flatten.mp hmem
    rw [List.eq_of_mem_replicate hupdates] at hmem
    exact unrelated_recorded c call (List.of_mem_zip hcalls).1 update hmem
  · rw [List.mem_singleton.mp h]
    exact ⟨rfl, nofun, nofun⟩

theorem count_unrelated {updates : List MetricUpdate}
    (h : ∀ update ∈ updates, Unrelated update) :
    updates.count (increment .hashesDiscovered) = 0 :=
  List.count_eq_zero.mpr fun hmem => (h _ hmem).2.1 rfl

end Updates

namespace DhtCrawler

variable {x : Externals} {turn : Turn} {samples : List InfoHash} {c c' c'' : DhtCrawler}

/-- The crawler counts the observations that it reports. -/
def Tallied (c : DhtCrawler) : Prop :=
  c.infoHashesFound = min (c.stats.countP CrawlStatsEvent.isFound) (2 ^ 64 - 1)

/-- What the handling of an event reports, when it takes no snapshot. -/
structure Reported (c c' : DhtCrawler) : Prop where
  stats : ∃ new, c'.stats = new ++ c.stats ∧ ∀ event ∈ new, event.isSnapshot = false
  queries : c.queriesSent ≤ c'.queriesSent
  found : Tallied c → Tallied c'

theorem Reported.trans (h : Reported c c') (h' : Reported c' c'') : Reported c c'' := by
  obtain ⟨new, hnew, hplain⟩ := h.stats
  obtain ⟨new', hnew', hplain'⟩ := h'.stats
  refine ⟨⟨new' ++ new, ?_, fun event hevent => ?_⟩, h.queries.trans h'.queries,
    fun htallied => h'.found (h.found htallied)⟩
  · rw [hnew', hnew, List.append_assoc]
  · exact (List.mem_append.mp hevent).elim (hplain' event) (hplain event)

theorem Reported.of_eq (hstats : c'.stats = c.stats) (hqueries : c.queriesSent ≤ c'.queriesSent)
    (hfound : c'.infoHashesFound = c.infoHashesFound) : Reported c c' := by
  refine ⟨⟨[], hstats, nofun⟩, hqueries, fun htallied => ?_⟩
  rw [Tallied, hstats, hfound]
  exact htallied

theorem reported_emitStat {event : CrawlStatsEvent} (hsnapshot : event.isSnapshot = false)
    (hfound : event.isFound = false) (c : DhtCrawler) : Reported c (c.emitStat event) := by
  refine ⟨⟨[event], rfl, fun other hother => ?_⟩, Nat.le_refl _, fun htallied => ?_⟩
  · rw [List.mem_singleton.mp hother]
    exact hsnapshot
  · rw [Tallied, emitStat, List.countP_cons_of_neg (by simp [hfound])]
    exact htallied

theorem reported_queueHash (hash : InfoHash) (c : DhtCrawler) :
    Reported c (c.queueHash hash).2 := by
  rw [queueHash]
  split
  · exact .of_eq rfl (Nat.le_refl _) rfl
  · split
    · exact .of_eq rfl (Nat.le_refl _) rfl
    · split <;> exact .of_eq rfl (Nat.le_refl _) rfl

theorem reported_sendRpc (w : Surroundings) (request : RpcRequest) (c : DhtCrawler) :
    Reported c (c.sendRpc w request) := by
  rw [sendRpc]
  split
  · next rpcs _ =>
    have hcalls : Reported c { c with rpcs := rpcs } := .of_eq rfl (Nat.le_refl _) rfl
    exact hcalls.trans (reported_emitStat rfl rfl _)
  · exact .of_eq rfl (Nat.le_refl _) rfl
  · exact .of_eq rfl (Nat.le_succ _) rfl

theorem infoHashesFound_queueHash (hash : InfoHash) (c : DhtCrawler) :
    (c.queueHash hash).2.infoHashesFound = c.infoHashesFound := by
  rw [queueHash]
  split
  · rfl
  · split
    · rfl
    · split <;> rfl

/-- A published hash is counted when it is reported. -/
theorem reported_publishDiscovery (w : Surroundings) (hash : InfoHash) (peers : List PeerContact)
    {source : DiscoverySource} (hsource : source ≠ .resume) (c : DhtCrawler) :
    Reported c (c.publishDiscovery w hash peers source) := by
  rw [publishDiscovery]
  split
  · exact .of_eq rfl (Nat.le_refl _) rfl
  · have hfound := infoHashesFound_queueHash hash
      { c with infoHashesFound := min (c.infoHashesFound + 1) (2 ^ 64 - 1) }
    have hstats := stats_queueHash hash
      { c with infoHashesFound := min (c.infoHashesFound + 1) (2 ^ 64 - 1) }
    have hqueries : c.queriesSent ≤ ({ c with
        infoHashesFound := min (c.infoHashesFound + 1) (2 ^ 64 - 1) }.queueHash hash).2.queriesSent :=
      (reported_queueHash hash
        { c with infoHashesFound := min (c.infoHashesFound + 1) (2 ^ 64 - 1) }).queries
    simp only at hfound hstats ⊢
    generalize (queueHash hash _).2 = c₁ at hfound hstats hqueries ⊢
    have hobserved : ∀ accepted, Reported c ({ c₁ with
        discoveries := (⟨hash, preparePeers c.config.maxPeersPerHash peers, source⟩, accepted) ::
          c₁.discoveries }.emitStat (.hashObserved hash source
            (!(preparePeers c.config.maxPeersPerHash peers).isEmpty) accepted
              (preparePeers c.config.maxPeersPerHash peers).length)) := by
      intro accepted
      refine ⟨⟨[_], congrArg (List.cons _) hstats, fun event hevent => ?_⟩, hqueries,
        fun htallied => ?_⟩
      · rw [List.mem_singleton.mp hevent]
        rfl
      · show c₁.infoHashesFound = min (List.countP _ (_ :: c₁.stats)) (2 ^ 64 - 1)
        have hthis : CrawlStatsEvent.isFound (.hashObserved hash source
            (!(preparePeers c.config.maxPeersPerHash peers).isEmpty) accepted
              (preparePeers c.config.maxPeersPerHash peers).length) = true :=
          decide_eq_true hsource
        rw [hfound, htallied, List.countP_cons_of_pos hthis, hstats]
        omega
    rw [enqueueDiscovery]
    split
    · exact hobserved _
    · exact (hobserved _).trans (reported_emitStat rfl rfl _)

theorem reported_resumeHash (w : Surroundings) (hash : InfoHash) (c : DhtCrawler) :
    Reported c (c.resumeHash w hash) := by
  have hqueue := reported_queueHash hash c
  rw [resumeHash]
  split
  · have hsent : ∀ accepted, Reported (c.queueHash hash).2 { (c.queueHash hash).2 with
        discoveries := (⟨hash, [], .resume⟩, accepted) :: (c.queueHash hash).2.discoveries } :=
      fun accepted => .of_eq rfl (Nat.le_refl _) rfl
    have hobserved := fun accepted => (hqueue.trans (hsent accepted)).trans
      (reported_emitStat (show CrawlStatsEvent.isSnapshot
        (.hashObserved hash .resume false accepted 0) = false from rfl) rfl _)
    rw [enqueueDiscovery]
    split
    · exact hobserved _
    · exact (hobserved _).trans (reported_emitStat rfl rfl _)
  · exact hqueue

theorem Move.reported (h : Move x turn samples c c') (hturn : turn.2 ≠ .statsTick) :
    Reported c c' := by
  cases h with
  | quiet hquiet =>
    exact .of_eq (hquiet.keeps DhtCrawler.stats rfl) (hquiet.keeps queriesSent rfl).ge
      (hquiet.keeps infoHashesFound rfl)
  | @stat event hplain =>
    refine reported_emitStat ?_ ?_ c
    · cases event <;> first | rfl | cases hplain
    · cases event <;> first | rfl | cases hplain
  | snapshot _ htick => exact absurd htick hturn
  | sampled => exact reported_emitStat rfl rfl c
  | call => exact reported_sendRpc _ _ c
  | reply | expired => exact .of_eq rfl (Nat.le_refl _) rfl
  | queued hash => exact reported_queueHash hash c
  | popped =>
    rw [popHash]
    split <;> exact .of_eq rfl (Nat.le_refl _) rfl
  | resumed hash => exact reported_resumeHash _ hash c
  | published hash hpublished =>
    refine reported_publishDiscovery _ hash _ ?_ c
    cases hpublished with
    | peerless _ hresume => exact hresume
    | answered | announced => rintro ⟨⟩
  | cached hash =>
    rw [cachePeer]
    split <;> exact .of_eq rfl (Nat.le_refl _) rfl

theorem reported_step (hturn : turn.2 ≠ .statsTick) : Reported c (step x c turn) := by
  have hwait : Reported c (c.wait turn.1.elapsed) := .of_eq rfl (Nat.le_refl _) rfl
  refine (handled_handle x turn.1 turn.2 _).invariant (I := Reported c) ?_ ?_ ?_ hwait
  · exact fun _ _ h hmove => h.trans (hmove.reported hturn)
  · exact fun _ _ _ h => h.trans (.of_eq rfl (Nat.le_refl _) rfl)
  · exact fun _ request h => h.trans (reported_sendRpc _ request _)

end DhtCrawler

/-! ## Runs -/

theorem turnUpdates_eq {c c' : DhtCrawler} {new : List CrawlStatsEvent}
    (h : c'.stats = new ++ c.stats) :
    turnUpdates c c' = new.reverse.flatMap apply ++ otherUpdates c c' := by
  rw [turnUpdates, h, List.length_append, Nat.add_sub_cancel, List.take_left]

theorem resumedSince_append {new stats : List CrawlStatsEvent}
    (h : ∀ event ∈ new, event.isSnapshot = false) :
    resumedSince (new ++ stats) = new.countP CrawlStatsEvent.isResumed + resumedSince stats := by
  rw [resumedSince, List.takeWhile_append_of_pos (by simpa using h), List.countP_append,
    resumedSince]

/-- An update that fits, and stores no smaller total, makes no total fall. -/
theorem MetricUpdate.run_grown {m : CrawlerMetrics} {update : MetricUpdate}
    (hfits : update.fits m = true)
    (hstore : ∀ counter value, update = .store counter value →
      isGauge counter = true ∨ m counter ≤ value)
    {counter : Counter} (hcounter : isGauge counter = false) :
    m counter ≤ update.run m counter := by
  cases update with
  | add own n =>
    rw [MetricUpdate.run, Function.update_apply]
    split
    · next heq =>
      have hroom : (m own).toNat + n.toNat < 2 ^ 64 := of_decide_eq_true hfits
      rw [heq, UInt64.le_iff_toNat_le, UInt64.toNat_add, Nat.mod_eq_of_lt hroom]
      exact Nat.le_add_right _ _
    · exact UInt64.le_refl _
  | store own value =>
    rw [MetricUpdate.run, Function.update_apply]
    split
    · next heq =>
      rw [heq] at hcounter ⊢
      refine (hstore own value rfl).resolve_left ?_
      rw [hcounter]
      exact Bool.false_ne_true
    · exact UInt64.le_refl _

theorem MetricUpdate.run_other {m : CrawlerMetrics} {update : MetricUpdate} {counter : Counter}
    (h : update.counter ≠ counter) : update.run m counter = m counter := by
  cases update <;> exact Function.update_of_ne (Ne.symm h) _ _

theorem toNat_ofUsize {n : Nat} (h : n < 2 ^ 64) : (ofUsize n).toNat = n :=
  UInt64.toNat_ofNat_of_lt' h

namespace Process

variable {x : Externals} {p p' : Process} {e : ProcessEvent}

theorem Counted.found_lt (h : Counted p) : p.crawler.infoHashesFound < 2 ^ 64 := by
  have hfound := h.found
  omega

/-- When nothing was resumed, a snapshot reports all that was counted. -/
theorem Counted.hashes_le (h : Counted p) (hresumed : resumedSince p.crawler.stats = 0) :
    (p.metrics .hashesDiscovered).toNat ≤ p.crawler.infoHashesFound := by
  have hhashes := h.hashes
  have hbound := (p.metrics .hashesDiscovered).toNat_lt
  rw [hresumed] at hhashes
  rw [h.found]
  omega

/-- No total falls when the next update of the crawler is made. -/
theorem Counted.stores (h : Counted p) {update : MetricUpdate} (hmem : update ∈ p.todo)
    (counter : Counter) (value : UInt64) (hupdate : update = .store counter value) :
    isGauge counter = true ∨ p.metrics counter ≤ value := by
  subst hupdate
  obtain hplain | ⟨hqueries, hlt⟩ | ⟨hhashes, hresumed, -⟩ := h.pending _ hmem
  · exact Or.inl hplain
  · cases hqueries
    right
    rw [UInt64.le_iff_toNat_le, toNat_ofUsize hlt]
    exact h.queries
  · cases hhashes
    right
    rw [UInt64.le_iff_toNat_le, toNat_ofUsize h.found_lt]
    exact h.hashes_le hresumed

theorem Counted.grown (h : Counted p) (hsafe : p.safe e = true) (hstep : Step x p e p')
    {counter : Counter} (hcounter : isGauge counter = false) :
    p.metrics counter ≤ p'.metrics counter := by
  rw [Step, next.eq_def] at hstep
  cases e with
  | turned turn =>
    simp only at hstep
    split at hstep
    · cases hstep
      exact UInt64.le_refl _
    · cases hstep
  | updated =>
    simp only at hstep
    split at hstep
    · cases hstep
    · next update todo htodo =>
      cases hstep
      have hmem : update ∈ p.todo := htodo ▸ List.mem_cons_self
      have hfits : update.fits p.metrics = true := by simpa [safe, htodo] using hsafe
      exact update.run_grown hfits (h.stores hmem) hcounter
  | recorded call index =>
    obtain ⟨update, hupdate, rfl⟩ := Option.map_eq_some_iff.mp hstep
    have hfits : update.fits p.metrics = true := by simpa [safe, hupdate] using hsafe
    have hunrelated := unrelated_other call update (List.mem_of_getElem? hupdate)
    refine update.run_grown hfits (fun own value hstore => ?_) hcounter
    subst hstore
    exact Or.inl hunrelated.1

/-- A turn that takes no snapshot. -/
theorem Counted.reported (h : Counted p) (htodo : p.todo = []) {c : DhtCrawler}
    (hreported : DhtCrawler.Reported p.crawler c) :
    Counted { p with crawler := c, todo := turnUpdates p.crawler c } := by
  obtain ⟨new, hstats, hplain⟩ := hreported.stats
  have hcount := count_flatMap_apply hplain
  have hother := count_unrelated (unrelated_otherUpdates p.crawler c)
  have hhashes := h.hashes
  rw [htodo, List.count_nil] at hhashes
  refine ⟨hreported.found h.found, h.queries.trans hreported.queries, ?_, ?_⟩
  · simp only
    rw [turnUpdates_eq hstats, List.count_append, hcount, hother, hstats, List.countP_append,
      resumedSince_append hplain]
    omega
  · intro update hupdate
    rw [turnUpdates_eq hstats] at hupdate
    obtain hnew | hrest := List.mem_append.mp hupdate
    · obtain ⟨event, hevent, hmem⟩ := List.mem_flatMap.mp hnew
      exact Or.inl (isPlain_apply (hplain event (List.mem_reverse.mp hevent)) update hmem)
    · exact Or.inl (unrelated_otherUpdates _ _ update hrest).1

/-- A turn that takes a snapshot. -/
theorem Counted.snapshot (h : Counted p) (htodo : p.todo = [])
    (hresumed : resumedSince p.crawler.stats = 0) (hqueries : p.crawler.queriesSent < 2 ^ 64)
    {turn : DhtCrawler.Turn} (hturn : turn.2 = .statsTick) :
    Counted { p with
      crawler := p.crawler.step x turn
      todo := turnUpdates p.crawler (p.crawler.step x turn) } := by
  obtain ⟨nodes, hstep⟩ : ∃ nodes, p.crawler.step x turn =
      (p.crawler.wait turn.1.elapsed).emitStat
        (.dhtSnapshot nodes p.crawler.queriesSent p.crawler.infoHashesFound) := by
    rw [DhtCrawler.step, hturn]
    exact ⟨_, rfl⟩
  rw [hstep]
  have hstats : ((p.crawler.wait turn.1.elapsed).emitStat
      (.dhtSnapshot nodes p.crawler.queriesSent p.crawler.infoHashesFound)).stats =
        [.dhtSnapshot nodes p.crawler.queriesSent p.crawler.infoHashesFound] ++ p.crawler.stats :=
    rfl
  have hother := unrelated_otherUpdates p.crawler ((p.crawler.wait turn.1.elapsed).emitStat
    (.dhtSnapshot nodes p.crawler.queriesSent p.crawler.infoHashesFound))
  have hhashes := h.hashes
  rw [htodo, List.count_nil, hresumed] at hhashes
  have hcount : (turnUpdates p.crawler ((p.crawler.wait turn.1.elapsed).emitStat (.dhtSnapshot nodes
      p.crawler.queriesSent p.crawler.infoHashesFound))).count (increment .hashesDiscovered) = 0 := by
    rw [turnUpdates_eq hstats, List.count_append, count_unrelated hother]
    rfl
  refine ⟨h.found, h.queries, ?_, ?_⟩
  · simp only
    rw [hcount]
    exact hhashes
  · intro update hupdate
    rw [hcount]
    rw [turnUpdates_eq hstats] at hupdate
    obtain hsnapshot | hrest := List.mem_append.mp hupdate
    · have hcases : update = .store .knownNodes (ofUsize nodes) ∨
          update = .store .queriesSent (ofUsize p.crawler.queriesSent) ∨
          update = .store .hashesDiscovered (ofUsize p.crawler.infoHashesFound) := by
        simpa [apply] using hsnapshot
      obtain rfl | hsent | hfound := hcases
      · exact Or.inl rfl
      · exact Or.inr (Or.inl ⟨hsent, hqueries⟩)
      · exact Or.inr (Or.inr ⟨hfound, rfl, rfl⟩)
    · exact Or.inl (hother update hrest).1

/-- An update of neither total keeps the account. -/
theorem Counted.unrelated (h : Counted p) {update : MetricUpdate}
    (hhashes : update.counter ≠ .hashesDiscovered) (hqueries : update.counter ≠ .queriesSent) :
    Counted { p with metrics := update.run p.metrics } := by
  refine ⟨h.found, ?_, ?_, h.pending⟩
  · show (update.run p.metrics .queriesSent).toNat ≤ p.crawler.queriesSent
    rw [MetricUpdate.run_other hqueries]
    exact h.queries
  · show (update.run p.metrics .hashesDiscovered).toNat + _ ≤ _
    rw [MetricUpdate.run_other hhashes]
    exact h.hashes

/-- The next update of the crawler is made. -/
theorem Counted.updated (h : Counted p) {update : MetricUpdate} {todo : List MetricUpdate}
    (htodo : p.todo = update :: todo) (hfits : update.fits p.metrics = true) :
    Counted { p with metrics := update.run p.metrics, todo := todo } := by
  have hcount : p.todo.count (increment .hashesDiscovered) =
      todo.count (increment .hashesDiscovered) +
        if update = increment .hashesDiscovered then 1 else 0 := by
    rw [htodo, List.count_cons]
    simp only [beq_iff_eq]
  have hle : todo.count (increment .hashesDiscovered) ≤
      p.todo.count (increment .hashesDiscovered) := by
    rw [hcount]
    exact Nat.le_add_right _ _
  have hpending : ∀ other ∈ todo, other.isPlain = true ∨
      other = .store .queriesSent (ofUsize p.crawler.queriesSent) ∧
        p.crawler.queriesSent < 2 ^ 64 ∨
      other = .store .hashesDiscovered (ofUsize p.crawler.infoHashesFound) ∧
        resumedSince p.crawler.stats = 0 ∧ todo.count (increment .hashesDiscovered) = 0 := by
    intro other hother
    obtain hplain | hqueries | ⟨heq, hresumed, hnone⟩ :=
      h.pending other (htodo ▸ List.mem_cons_of_mem _ hother)
    · exact Or.inl hplain
    · exact Or.inr (Or.inl hqueries)
    · exact Or.inr (Or.inr ⟨heq, hresumed, by omega⟩)
  have hrest : Counted { p with todo := todo } :=
    ⟨h.found, h.queries, (Nat.add_le_add_left hle _).trans h.hashes, hpending⟩
  obtain hplain | ⟨rfl, hlt⟩ | ⟨rfl, hresumed, hnone⟩ :=
    h.pending update (htodo ▸ List.mem_cons_self)
  · by_cases hown : update = increment .hashesDiscovered
    · -- the counter grows by the observation that is no longer pending
      subst hown
      rw [if_pos rfl] at hcount
      have hroom : (p.metrics .hashesDiscovered).toNat + 1 < 2 ^ 64 := of_decide_eq_true hfits
      have hgrown : ((increment .hashesDiscovered).run p.metrics .hashesDiscovered).toNat =
          (p.metrics .hashesDiscovered).toNat + 1 := by
        rw [increment, MetricUpdate.run, Function.update_self, UInt64.toNat_add]
        exact Nat.mod_eq_of_lt hroom
      refine ⟨h.found, ?_, ?_, hpending⟩
      · show ((increment .hashesDiscovered).run p.metrics .queriesSent).toNat ≤ _
        rw [MetricUpdate.run_other (by nofun)]
        exact h.queries
      · have hhashes := h.hashes
        simp only
        omega
    · refine hrest.unrelated ?_ ?_
      · rintro hcounter
        cases update with
        | add counter n =>
          cases hcounter
          refine hown ?_
          rw [show n = 1 by simpa [MetricUpdate.isPlain] using hplain, increment]
        | store counter value =>
          cases hcounter
          cases hplain
      · rintro hcounter
        cases update with
        | add counter n =>
          cases hcounter
          simp [MetricUpdate.isPlain] at hplain
        | store counter value =>
          cases hcounter
          cases hplain
  · refine ⟨h.found, ?_, ?_, hpending⟩
    · simp only [MetricUpdate.run, Function.update_self, toNat_ofUsize hlt]
      exact Nat.le_refl _
    · exact hrest.hashes
  · refine ⟨h.found, ?_, ?_, hpending⟩
    · exact h.queries
    · have hfound := h.found
      simp only [MetricUpdate.run, Function.update_self, toNat_ofUsize h.found_lt]
      omega

theorem Counted.step (h : Counted p) (hsafe : p.safe e = true) (hstep : Step x p e p') :
    Counted p' := by
  rw [Step, next.eq_def] at hstep
  cases e with
  | turned turn =>
    simp only at hstep
    split at hstep
    · next htodo =>
      cases hstep
      have htodo' := List.isEmpty_iff.mp htodo
      by_cases hturn : turn.2 = .statsTick
      · have hready : resumedSince p.crawler.stats = 0 ∧ p.crawler.queriesSent < 2 ^ 64 := by
          simpa [safe, hturn] using hsafe
        exact h.snapshot htodo' hready.1 hready.2 hturn
      · exact h.reported htodo' (DhtCrawler.reported_step hturn)
    · cases hstep
  | updated =>
    simp only at hstep
    split at hstep
    · cases hstep
    · next update todo htodo =>
      cases hstep
      exact h.updated htodo (by simpa [safe, htodo] using hsafe)
  | recorded call index =>
    obtain ⟨update, hupdate, rfl⟩ := Option.map_eq_some_iff.mp hstep
    have hunrelated := unrelated_other call update (List.mem_of_getElem? hupdate)
    exact h.unrelated hunrelated.2.1 hunrelated.2.2

theorem Counted.start (ourId : NodeId) (tokenSecret : Bytes) (config : DhtConfig) (clock : Nat)
    (nextTx : BitVec 16) : Counted (start ourId tokenSecret config clock nextTx) :=
  ⟨rfl, Nat.le_refl _, Nat.le_refl _, nofun⟩

/-! ## The main results -/

theorem Counted.run (h : Counted p) {es : List ProcessEvent}
    (hrun : Run (Guarded (fun p e => p.safe e = true) (Step x)) p es p') :
    Counted p' ∧ ∀ counter, isGauge counter = false → p.metrics counter ≤ p'.metrics counter := by
  refine hrun.invariant (I := fun q => Counted q ∧
    ∀ counter, isGauge counter = false → p.metrics counter ≤ q.metrics counter) ?_ ?_
  · rintro q e q' ⟨hq, hgrown⟩ ⟨hsafe, hstep⟩
    exact ⟨hq.step hsafe hstep, fun counter hcounter =>
      UInt64.le_trans (hgrown counter hcounter) (hq.grown hsafe hstep hcounter)⟩
  · exact ⟨h, fun counter _ => UInt64.le_refl _⟩

/-- No total falls while no snapshot follows a resumed hash and no counter overflows. -/
theorem totals_never_fall (x : Externals) (ourId : NodeId) (tokenSecret : Bytes)
    (config : DhtConfig) (clock : Nat) (nextTx : BitVec 16) {es es' : List ProcessEvent}
    (hrun : Run (Guarded (fun p e => p.safe e = true) (Step x))
      (start ourId tokenSecret config clock nextTx) es p)
    (hrun' : Run (Guarded (fun p e => p.safe e = true) (Step x)) p es' p') :
    TotalsRise p.metrics p'.metrics := by
  have hcounted := ((Counted.start ourId tokenSecret config clock nextTx).run hrun).1
  exact totalsRise_of_le (hcounted.run hrun').2

/-- All updates of a turn. -/
def turnDone (turn : DhtCrawler.Turn) (updates : Nat) : List ProcessEvent :=
  .turned turn :: List.replicate updates .updated

/-- A hash is announced, and then a snapshot is taken. -/
theorem totals_never_fall_announced :
    let x : Externals := ⟨BencodeValue.decode, fun b => b⟩
    ∃ es es' p p', Run (Step x) (start 1 [7] .default 0 0) es p ∧ Run (Step x) p es' p' ∧
      ("hashes_discovered_total", 1) ∈ totals p.metrics ∧
      ("hashes_discovered_total", 1) ∈ totals p'.metrics ∧ TotalsRise p.metrics p'.metrics := by
  intro x
  let es := DhtCrawler.announcement.flatMap fun turn => turnDone turn 7
  let es' := turnDone (.quiet 60, .statsTick) 4
  obtain ⟨p, hp⟩ := Option.isSome_iff_exists.mp
    (show (play (next x) es (start 1 [7] .default 0 0)).isSome = true by decide +kernel)
  have hall : (play (next x) es (start 1 [7] .default 0 0)).all (fun p =>
      checked (next x) safe es' p && (play (next x) es' p).any fun p' =>
        decide (("hashes_discovered_total", 1) ∈ totals p.metrics ∧
          ("hashes_discovered_total", 1) ∈ totals p'.metrics)) = true := by
    decide +kernel
  have hfirst : checked (next x) safe es (start 1 [7] .default 0 0) = true := by decide +kernel
  clear_value es es'
  rw [hp, Option.all_some, Bool.and_eq_true] at hall
  obtain ⟨p', hp', hones⟩ := (Option.any_eq_true _ _).mp hall.2
  have hones := of_decide_eq_true hones
  have hrun : Run (Guarded (fun p e => p.safe e = true) (Step x)) (start 1 [7] .default 0 0) es p :=
    play_guarded (fun _ _ h => h) hp hfirst
  have hrun' : Run (Guarded (fun p e => p.safe e = true) (Step x)) p es' p' :=
    play_guarded (fun _ _ h => h) hp' hall.1
  exact ⟨es, es', p, p', play_run hp, play_run hp', hones.1, hones.2,
    totals_never_fall x 1 [7] .default 0 0 hrun hrun'⟩

/-- A resumed hash is observed and counted, and the first snapshot takes it away. -/
theorem resumed_total_falls :
    let x : Externals := ⟨BencodeValue.decode, fun b => b⟩
    ∃ es es' p p', Run (Step x) (start 1 [7] .default 0 0) es p ∧ Run (Step x) p es' p' ∧
      ("hashes_discovered_total", 1) ∈ totals p.metrics ∧
      ("hashes_discovered_total", 0) ∈ totals p'.metrics ∧ ¬TotalsRise p.metrics p'.metrics := by
  intro x
  let es := turnDone (.quiet 0, .seedInfoHashes [1]) 7
  let es' := turnDone (.quiet 60, .statsTick) 4
  obtain ⟨p, hp⟩ := Option.isSome_iff_exists.mp
    (show (play (next x) es (start 1 [7] .default 0 0)).isSome = true by decide +kernel)
  have hall : (play (next x) es (start 1 [7] .default 0 0)).all (fun p =>
      (play (next x) es' p).any fun p' =>
        decide (("hashes_discovered_total", 1) ∈ totals p.metrics ∧
          ("hashes_discovered_total", 0) ∈ totals p'.metrics ∧
          ¬TotalsRise p.metrics p'.metrics)) = true := by
    decide +kernel
  clear_value es es'
  rw [hp] at hall
  obtain ⟨p', hp', hfalls⟩ := (Option.any_eq_true _ _).mp hall
  exact ⟨es, es', p, p', play_run hp, play_run hp', of_decide_eq_true hfalls⟩

end Process

end Btfind
