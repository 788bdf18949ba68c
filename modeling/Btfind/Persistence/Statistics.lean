import Mathlib.Data.List.Induction
import Btfind.Persistence.StatsTaskRuns

/-!
# The tables of the statistics

What `metadata_failure_counts`, `dht_nodes` and `crawl_stats` hold at any moment of a run: the
failures of the events that are persisted, the last address of every node that was seen, and a row
for every batch with a snapshot, taken at the last snapshot event of that batch.
-/

namespace Btfind

open Transaction

/-! ## What the events report -/

/-- The event is a failure with a reason of this name. -/
def CrawlStatsEvent.failsWith (name : String) : CrawlStatsEvent → Bool
  | .metadataFetchFailed reason => reason.asStr = name
  | _ => false

/-- The address at which an event sees a node. -/
def CrawlStatsEvent.sighting (id : NodeId) : CrawlStatsEvent → Option SocketAddrV4
  | .dhtNodeSeen seen addr => if seen = id then some addr else none
  | _ => none

/-- The last address at which events see a node. -/
def lastSighting (id : NodeId) (events : List CrawlStatsEvent) : Option SocketAddrV4 :=
  (events.filterMap (·.sighting id)).getLast?

def CrawlStatsEvent.isDhtSnapshot : CrawlStatsEvent → Bool
  | .dhtSnapshot _ _ _ => true
  | _ => false

def RuntimeStats.applyAll (stats : RuntimeStats) (events : List CrawlStatsEvent) : RuntimeStats :=
  events.foldl RuntimeStats.apply stats

/-- The snapshot taken at the last snapshot event, if there is one. -/
def lastSnapshot (stats : RuntimeStats) : List CrawlStatsEvent → Option RuntimeSnapshot
  | [] => none
  | e :: es =>
    (lastSnapshot (stats.apply e) es).or
      (if e.isDhtSnapshot then some (stats.apply e).snapshot else none)

/-- The snapshots of batches that come one after the other. -/
def batchSnapshots (stats : RuntimeStats) : List StatsBatch → List RuntimeSnapshot
  | [] => []
  | b :: bs =>
    (lastSnapshot stats b.events).toList ++ batchSnapshots (stats.applyAll b.events) bs

def CrawlStatRow.reported (row : CrawlStatRow) : RuntimeSnapshot :=
  ⟨row.nodesKnown, row.queriesSent, row.infoHashesFound, row.metadataFetched⟩

section Reports

variable {stats : RuntimeStats} {id : NodeId} {event : CrawlStatsEvent}
  {events more : List CrawlStatsEvent}

theorem lastSighting_append :
    lastSighting id (events ++ more) = (lastSighting id more).or (lastSighting id events) := by
  rw [lastSighting, List.filterMap_append, List.getLast?_append]
  rfl

theorem lastSnapshot_concat : lastSnapshot stats (events ++ [event]) =
    if event.isDhtSnapshot then some ((stats.applyAll events).apply event).snapshot
    else lastSnapshot stats events := by
  induction events generalizing stats with
  | nil => rfl
  | cons first events ih =>
    rw [List.cons_append, lastSnapshot, ih]
    by_cases hevent : event.isDhtSnapshot = true
    · rw [if_pos hevent, if_pos hevent]
      rfl
    · rw [if_neg hevent, if_neg hevent]
      rfl

theorem applyAll_append :
    stats.applyAll (events ++ more) = (stats.applyAll events).applyAll more := List.foldl_append

theorem batchSnapshots_concat {bs : List StatsBatch} {b : StatsBatch} :
    batchSnapshots stats (bs ++ [b]) = batchSnapshots stats bs ++
      (lastSnapshot (stats.applyAll (bs.flatMap StatsBatch.events)) b.events).toList := by
  induction bs generalizing stats with
  | nil => exact List.append_nil _
  | cons first bs ih =>
    rw [List.cons_append, batchSnapshots, ih, batchSnapshots, List.append_assoc,
      List.flatMap_cons, applyAll_append]

end Reports

/-! ## One batch -/

section Batch

variable {now : Int} {name : String} {id : NodeId} {events : List CrawlStatsEvent}
  {snapshot : Option RuntimeSnapshot} {c : Catalogue} {p : BatchProgress}

/-- The number of failures that are counted under a name. -/
def Catalogue.failures (c : Catalogue) (name : String) : Int :=
  (c.metadataFailureCounts.lookup name).getD 0

/-- The address of a node. -/
def Catalogue.nodeAddr (c : Catalogue) (id : NodeId) : Option SocketAddrV4 :=
  (c.dhtNodes.lookup id).map (·.addr)

/-- One event moves one count, or sets one address, and no other. -/
theorem BatchProgress.apply_statistics (event : CrawlStatsEvent) (now : Int) (name : String)
    (id : NodeId) (p : BatchProgress) :
    (p.apply now event).catalogue.failures name =
      p.catalogue.failures name + (if event.failsWith name then 1 else 0) ∧
    (p.apply now event).nodes.lookup id = (event.sighting id).or (p.nodes.lookup id) ∧
    (p.apply now event).catalogue.dhtNodes = p.catalogue.dhtNodes ∧
    (p.apply now event).catalogue.crawlStats = p.catalogue.crawlStats := by
  cases event with
  | metadataFetchFailed reason =>
    refine ⟨?_, rfl, rfl, rfl⟩
    simp only [BatchProgress.apply, Catalogue.failures, AList.lookup_upsert,
      CrawlStatsEvent.failsWith, decide_eq_true_eq, eq_comm (a := name)]
    split_ifs with hname
    · subst hname
      cases p.catalogue.metadataFailureCounts.lookup reason.asStr <;> simp
    · simp
  | dhtNodeSeen seen addr =>
    refine ⟨by simp [BatchProgress.apply, CrawlStatsEvent.failsWith], ?_, rfl, rfl⟩
    simp only [BatchProgress.apply, AList.lookup_insert_eq, CrawlStatsEvent.sighting,
      eq_comm (a := id)]
    split_ifs <;> rfl
  | hashObserved hash source peers accepted count =>
    cases accepted with
    | true => exact ⟨by simp [BatchProgress.apply, CrawlStatsEvent.failsWith], rfl, rfl, rfl⟩
    | false =>
      simp only [BatchProgress.apply, BatchProgress.discover, Catalogue.failures]
      rw [discover_frame]
      exact ⟨(add_zero _).symm, rfl, rfl, rfl⟩
  | sampleObserved hash nodeId addr roundId =>
    simp only [BatchProgress.apply, BatchProgress.discover, observeSample, Catalogue.failures]
    rw [discover_frame]
    exact ⟨(add_zero _).symm, rfl, rfl, rfl⟩
  | _ => exact ⟨(add_zero _).symm, rfl, rfl, rfl⟩

theorem foldl_apply_statistics (events : List CrawlStatsEvent) (now : Int) (name : String)
    (id : NodeId) (p : BatchProgress) :
    (events.foldl (BatchProgress.apply now) p).catalogue.failures name =
      p.catalogue.failures name + (events.countP (·.failsWith name) : Int) ∧
    (events.foldl (BatchProgress.apply now) p).nodes.lookup id =
      (lastSighting id events).or (p.nodes.lookup id) ∧
    (events.foldl (BatchProgress.apply now) p).catalogue.dhtNodes = p.catalogue.dhtNodes ∧
    (events.foldl (BatchProgress.apply now) p).catalogue.crawlStats = p.catalogue.crawlStats := by
  induction events generalizing p with
  | nil => exact ⟨(add_zero _).symm, rfl, rfl, rfl⟩
  | cons event events ih =>
    obtain ⟨hcount, haddr, hnodes, hrows⟩ := ih (p.apply now event)
    obtain ⟨hcount', haddr', hnodes', hrows'⟩ :=
      BatchProgress.apply_statistics event now name id p
    rw [List.foldl_cons]
    refine ⟨?_, ?_, hnodes.trans hnodes', hrows.trans hrows'⟩
    · rw [hcount, hcount', List.countP_cons]
      split_ifs <;> push_cast <;> omega
    · have hsingle : lastSighting id [event] = event.sighting id := by
        rw [lastSighting, List.filterMap_cons]
        cases event.sighting id <;> rfl
      have hcons : event :: events = [event] ++ events := rfl
      rw [haddr, haddr', hcons, lastSighting_append, hsingle, Option.or_assoc]

/-- The nodes of a batch are written over those that are there. -/
theorem foldl_recordNode (nodes : List (Σ _ : NodeId, SocketAddrV4)) (hnodes : nodes.NodupKeys)
    (now : Int) (id : NodeId) (c : Catalogue) :
    (nodes.foldl (recordNode now) c).nodeAddr id = (nodes.dlookup id).or (c.nodeAddr id) ∧
    (nodes.foldl (recordNode now) c).metadataFailureCounts = c.metadataFailureCounts ∧
    (nodes.foldl (recordNode now) c).crawlStats = c.crawlStats := by
  induction nodes generalizing c with
  | nil => exact ⟨rfl, rfl, rfl⟩
  | cons node nodes ih =>
    obtain ⟨hnode, hrest⟩ := List.nodupKeys_cons.mp hnodes
    obtain ⟨haddr, hcounts, hrows⟩ := ih hrest (recordNode now c node)
    rw [List.foldl_cons]
    refine ⟨?_, hcounts, hrows⟩
    rw [haddr, Catalogue.nodeAddr, recordNode, AList.lookup_insert_eq]
    by_cases hid : id = node.1
    · subst hid
      have hnone : nodes.dlookup node.1 = none := List.dlookup_eq_none.mpr hnode
      rw [if_pos rfl, hnone, List.dlookup_cons_eq]
      rfl
    · rw [if_neg hid, List.dlookup_cons_ne _ _ hid]
      rfl

theorem recordRuntimeBatch_statistics (now : Int) (events : List CrawlStatsEvent)
    (snapshot : Option RuntimeSnapshot) (c : Catalogue) (name : String) (id : NodeId) :
    (recordRuntimeBatch now events snapshot c).2.failures name =
      c.failures name + (events.countP (·.failsWith name) : Int) ∧
    (recordRuntimeBatch now events snapshot c).2.nodeAddr id =
      (lastSighting id events).or (c.nodeAddr id) ∧
    (recordRuntimeBatch now events snapshot c).2.crawlStats.map CrawlStatRow.reported =
      c.crawlStats.map CrawlStatRow.reported ++ snapshot.toList := by
  set p := events.foldl (BatchProgress.apply now) ⟨{}, ∅, c⟩ with hp
  obtain ⟨hcount, haddr, hnodes, hrows⟩ :=
    foldl_apply_statistics events now name id ⟨{}, ∅, c⟩
  rw [← hp] at hcount haddr hnodes hrows
  obtain ⟨nodes, hperm, hrecord⟩ : ∃ nodes : List (Σ _ : NodeId, SocketAddrV4),
      nodes.Perm p.nodes.entries ∧ (recordRuntimeBatch now events snapshot c).2 =
        recordSnapshot now snapshot (nodes.foldl (recordNode now) p.catalogue) :=
    ⟨_, List.perm_insertionSort _ _, rfl⟩
  have hkeys : nodes.NodupKeys := (List.perm_nodupKeys hperm).mpr p.nodes.nodupKeys
  have hlookup : nodes.dlookup id = p.nodes.lookup id := List.perm_dlookup id hkeys hperm
  obtain ⟨hwritten, hcounts, hstats⟩ :=
    foldl_recordNode nodes hkeys now id p.catalogue
  have hnone : (∅ : KeyedTable NodeId SocketAddrV4).lookup id = none := AList.lookup_empty id
  rw [hlookup, haddr, hnone, Option.or_none] at hwritten
  have hsame : p.catalogue.nodeAddr id = c.nodeAddr id := by
    rw [Catalogue.nodeAddr, hnodes]
    rfl
  have hfailures : ∀ d : Catalogue, d.metadataFailureCounts = p.catalogue.metadataFailureCounts →
      d.failures name = c.failures name + (events.countP (·.failsWith name) : Int) := by
    intro d hd
    rw [Catalogue.failures, hd]
    exact hcount
  rw [hrecord]
  cases snapshot with
  | none =>
    refine ⟨hfailures _ hcounts, by rw [← hsame]; exact hwritten, ?_⟩
    simp only [recordSnapshot, hstats, hrows, Option.toList_none, List.append_nil]
  | some snapshot =>
    refine ⟨hfailures _ hcounts, by rw [← hsame]; exact hwritten, ?_⟩
    simp only [recordSnapshot, hstats, hrows, Option.toList_some, List.map_append]
    rfl

end Batch

/-! ## Runs -/

/-- The other tasks leave the tables of the statistics alone. -/
def LeavesStatistics (effect : Catalogue → Catalogue) : Prop :=
  ∀ c, (effect c).metadataFailureCounts = c.metadataFailureCounts ∧
    (effect c).dhtNodes = c.dhtNodes ∧ (effect c).crawlStats = c.crawlStats

open CatalogueEffect

theorem applyAll_statistics {effects : List CatalogueEffect}
    (hothers : ∀ effect ∈ Effect.others effects, LeavesStatistics effect)
    (start : Catalogue × BatchMetrics) (name : String) (id : NodeId) :
    let events := (batches effects).flatMap StatsBatch.events
    (applyAll effects start).1.failures name =
      start.1.failures name + (events.countP (·.failsWith name) : Int) ∧
    (applyAll effects start).1.nodeAddr id = (lastSighting id events).or (start.1.nodeAddr id) ∧
    (applyAll effects start).1.crawlStats.map CrawlStatRow.reported =
      start.1.crawlStats.map CrawlStatRow.reported ++
        (batches effects).filterMap StatsBatch.snapshot := by
  induction effects using List.reverseRecOn with
  | nil => exact ⟨(add_zero _).symm, rfl, (List.append_nil _).symm⟩
  | append_singleton effects effect ih =>
    cases effect with
    | own op =>
      rw [Effect.others_snoc_own] at hothers
      obtain ⟨hcount, haddr, hrows⟩ := ih hothers
      obtain ⟨hcount', haddr', hrows'⟩ := recordRuntimeBatch_statistics op.1 op.2.events
        op.2.snapshot (applyAll effects start).1 name id
      rw [applyAll_snoc_batch, batches_snoc_batch]
      simp only [List.flatMap_append, List.flatMap_singleton, List.filterMap_append]
      refine ⟨?_, ?_, ?_⟩
      · rw [applyBatch, hcount', hcount, List.countP_append]
        push_cast
        omega
      · rw [applyBatch, haddr', haddr, lastSighting_append, Option.or_assoc]
      · have hsingle : [op.2].filterMap StatsBatch.snapshot = op.2.snapshot.toList := by
          rw [List.filterMap_cons]
          cases op.2.snapshot <;> rfl
        rw [applyBatch, hrows', hrows, List.append_assoc, hsingle]
    | other effect =>
      rw [Effect.others_snoc_other] at hothers
      obtain ⟨hcount, haddr, hrows⟩ := ih fun e he => hothers e (List.mem_append_left _ he)
      obtain ⟨hfailures, hnodes, hstats⟩ :=
        hothers effect (List.mem_append_right _ List.mem_cons_self) (applyAll effects start).1
      rw [applyAll_snoc_other, batches_snoc_other]
      simp only [applyOther, Catalogue.failures, Catalogue.nodeAddr, hfailures, hnodes, hstats]
      exact ⟨hcount, haddr, hrows⟩

namespace StatsTask

variable {batchSize : Nat} {t t' t₀ : StatsTask} {e : StatsEvent} {events : List StatsEvent}
  {effects : List CatalogueEffect} {start : Catalogue × BatchMetrics} {stats₀ : RuntimeStats}

/-- Every batch carries the snapshot that was taken at its last snapshot event. -/
structure Reported (stats₀ : RuntimeStats) (t : StatsTask) : Prop where
  stats : t.stats = stats₀.applyAll t.collected
  flushed : t.flushed.filterMap StatsBatch.snapshot = batchSnapshots stats₀ t.flushed
  batch : t.batch.snapshot =
    lastSnapshot (stats₀.applyAll (t.flushed.flatMap StatsBatch.events)) t.batch.events

theorem Reported.of_eq (h : Reported stats₀ t) (hstats : t'.stats = t.stats)
    (hflushed : t'.flushed = t.flushed) (hbatch : t'.batch = t.batch) : Reported stats₀ t' where
  stats := by rw [hstats, StatsTask.collected, hflushed, hbatch]; exact h.stats
  flushed := by rw [hflushed]; exact h.flushed
  batch := by rw [hflushed, hbatch]; exact h.batch

/-- The snapshots of the returned flushes and of the batch at hand. -/
theorem Reported.concat (h : Reported stats₀ t) :
    (t.flushed ++ [t.batch]).filterMap StatsBatch.snapshot =
      batchSnapshots stats₀ (t.flushed ++ [t.batch]) := by
  rw [List.filterMap_append, h.flushed, batchSnapshots_concat, ← h.batch, List.filterMap_cons]
  cases t.batch.snapshot <;> rfl

/-- No step but a receipt of an event changes the statistics. -/
theorem Step.stats_eq (hs : Step batchSize t e t') (hreceived : StatsEvent.receivedEvents [e] = []) :
    t'.stats = t.stats := by
  cases hs with
  | received event => cases hreceived
  | persisted turn =>
    rw [persistAttempt]
    split
    · rfl
    · split <;> rfl
  | acknowledged turn =>
    rw [acknowledgeAttempt]
    split <;> rfl
  | _ => rfl

theorem receive_reported (batchSize : Nat) (event : CrawlStatsEvent) (receipt : Uuid)
    (t : StatsTask) :
    (t.receive batchSize event receipt).stats = t.stats.apply event ∧
      (t.receive batchSize event receipt).batch.snapshot =
        if event.isDhtSnapshot then some (t.stats.apply event).snapshot else t.batch.snapshot := by
  have hpush : (t.batch.push event (t.stats.apply event)).snapshot =
      if event.isDhtSnapshot then some (t.stats.apply event).snapshot else t.batch.snapshot := by
    cases event <;> rfl
  rw [receive]
  simp only
  split <;> exact ⟨rfl, hpush⟩

theorem Reported.step (h : Reported stats₀ t) (hsim : Sim start effects t)
    (hs : Step batchSize t e t') : Reported stats₀ t' := by
  cases hf : t.flush with
  | some f =>
    have hreceived : StatsEvent.receivedEvents [e] = [] := by
      cases hs with
      | received event hflush => rw [hf] at hflush; cases hflush
      | _ => rfl
    have hstats := hs.stats_eq hreceived
    have hasked := ((sim_some hf).mp hsim).1
    obtain ⟨f', -, hb, hl, -⟩ | ⟨-, hb, hl⟩ := hs.flush_kept hf
    · exact h.of_eq hstats hl hb
    · rw [← hasked] at hl
      have hcollected : t'.collected = t.collected := by
        rw [hs.collected hsim, hreceived, List.append_nil]
      refine ⟨by rw [hstats, hcollected, h.stats], ?_, ?_⟩
      · rw [hl]
        exact h.concat
      · rw [hb]
        rfl
  | none =>
    cases hs with
    | received event hflush hopen fresh =>
      obtain ⟨hstats, hsnapshot⟩ := receive_reported batchSize event _ t
      obtain ⟨-, -, hl, hb⟩ := receive_frame batchSize event _ t
      have happly : t.stats = (stats₀.applyAll (t.flushed.flatMap StatsBatch.events)).applyAll
          t.batch.events := by
        rw [h.stats, StatsTask.collected, applyAll_append]
      refine ⟨?_, ?_, ?_⟩
      · rw [hstats, StatsTask.collected, hl, hb, ← List.append_assoc, applyAll_append, h.stats]
        rfl
      · rw [hl]
        exact h.flushed
      · rw [hsnapshot, hl, hb, lastSnapshot_concat, ← happly, h.batch]
    | ticked => exact h.of_eq rfl rfl rfl
    | closed => exact h.of_eq rfl rfl rfl
    | pruned => exact h.of_eq rfl rfl rfl
    | elsewhere => exact h.of_eq rfl rfl rfl
    | persisted turn hflush => rw [hf] at hflush; cases hflush
    | acknowledged turn hflush => rw [hf] at hflush; cases hflush

theorem run_reported (h₀ : t₀.Initial) (h : Transition.Run (Step batchSize) t₀ events t) :
    Reported t₀.stats t := by
  induction h with
  | refl =>
    refine ⟨?_, ?_, ?_⟩
    · rw [StatsTask.collected, h₀.flushed, h₀.batch]
      rfl
    · rw [h₀.flushed]
      rfl
    · rw [h₀.batch, h₀.flushed]
      rfl
  | snoc hrun hs ih =>
    obtain ⟨effects, hsim, -⟩ := run_sim h₀ hrun
    exact ih.step hsim hs

/-- At any moment of a run in which the other tasks leave the tables of the statistics alone, the
tables hold what the received events report, up to those that still wait: the failures of every
reason are counted once, every node has its last address, and every persisted batch with a snapshot
event has a row, which shows the counters at the last one of them. -/
theorem statistics_match_events (h₀ : t₀.Initial)
    (h : Transition.Run (Step batchSize) t₀ events t)
    (hothers : ∀ effect ∈ StatsEvent.others events, LeavesStatistics effect) :
    ∃ applied waiting : List CrawlStatsEvent,
      applied ++ waiting = StatsEvent.receivedEvents events ∧
      (t.flush = none → waiting = t.batch.events) ∧
      (∀ name, t.store.catalogue.failures name =
        t₀.store.catalogue.failures name + (applied.countP (·.failsWith name) : Int)) ∧
      (∀ id, t.store.catalogue.nodeAddr id =
        (lastSighting id applied).or (t₀.store.catalogue.nodeAddr id)) ∧
      ∃ bs, bs.flatMap StatsBatch.events = applied ∧
        t.store.catalogue.crawlStats.map CrawlStatRow.reported =
          t₀.store.catalogue.crawlStats.map CrawlStatRow.reported ++
            batchSnapshots t₀.stats bs := by
  obtain ⟨effects, hsim, heffects, hevents⟩ := run_sim h₀ h
  have hreported := run_reported h₀ h
  have htables := applyAll_statistics (by rw [heffects]; exact hothers)
    (t₀.store.catalogue, t₀.metrics)
  -- The batches that are applied, and the events that are not.
  obtain ⟨hstate, hcases⟩ : (applyAll effects (t₀.store.catalogue, t₀.metrics)).1 =
      t.store.catalogue ∧ (batches effects = t.flushed ∨
        t.flush ≠ none ∧ batches effects = t.flushed ++ [t.batch]) := by
    cases hf : t.flush with
    | none =>
      obtain ⟨hb, hs⟩ := (sim_none hf).mp hsim
      exact ⟨by rw [hs], .inl hb⟩
    | some f =>
      obtain ⟨hasked, hu | ⟨outcome, ha⟩⟩ := (sim_some hf).mp hsim
      · exact ⟨by rw [hu.state], .inl hu.batches⟩
      · exact ⟨by rw [ha.state], .inr ⟨nofun, by rw [ha.batches, hasked]⟩⟩
  rw [hstate] at htables
  have hsnapshots : (batches effects).filterMap StatsBatch.snapshot =
      batchSnapshots t₀.stats (batches effects) := by
    obtain hb | ⟨-, hb⟩ := hcases
    · rw [hb, hreported.flushed]
    · rw [hb, hreported.concat]
  obtain ⟨waiting, hwaiting, hidle⟩ : ∃ waiting,
      (batches effects).flatMap StatsBatch.events ++ waiting = t.collected ∧
        (t.flush = none → waiting = t.batch.events) := by
    obtain hb | ⟨hf, hb⟩ := hcases
    · exact ⟨t.batch.events, by rw [hb]; rfl, fun _ => rfl⟩
    · refine ⟨[], ?_, fun hnone => absurd hnone hf⟩
      rw [hb, List.flatMap_append, List.flatMap_singleton, List.append_nil]
      rfl
  refine ⟨(batches effects).flatMap StatsBatch.events, waiting, hwaiting.trans hevents, hidle,
    fun name => (htables name 0).1, fun id => (htables "" id).2.1, batches effects, rfl, ?_⟩
  rw [(htables "" 0).2.2, hsnapshots]

/-- A failure is counted once although the first commit of its batch is reported as failed. -/
theorem statistics_match_events_retried :
    let lost : StoreError := .database true "connection lost"
    let t₀ : StatsTask := ⟨.migrated, {}, .empty, none, ⟨0, 0, 0⟩, false, []⟩
    let t₁ := t₀.receive 1 (.metadataFetchFailed .rejected) 1
    let t₂ := t₁.persistAttempt ⟨5, 0, .uncertain lost⟩ ⟨1, false, false, t₁.batch⟩
    let t₃ := t₂.persistAttempt ⟨6, 0, .commits⟩ ⟨1, false, false, t₁.batch⟩
    let t₄ := t₃.acknowledgeAttempt ⟨7, 0, .commits⟩ ⟨1, true, true, t₁.batch⟩
    t₄.store.catalogue.failures "rejected" = 1 := by
  intro lost t₀ t₁ t₂ t₃ t₄
  have hreceived : Step 1 t₀ (.received (.metadataFetchFailed .rejected) 1) t₁ := .received _ rfl rfl rfl
  have hrun : Transition.Run (Step 1) t₀ _ t₄ :=
    ((((Transition.Run.refl t₀).snoc hreceived).snoc
      (.persisted ⟨5, 0, .uncertain lost⟩ (f := ⟨1, false, false, t₁.batch⟩) rfl rfl)).snoc
      (.persisted ⟨6, 0, .commits⟩ (f := ⟨1, false, false, t₁.batch⟩) rfl rfl)).snoc
      (.acknowledged ⟨7, 0, .commits⟩ (f := ⟨1, true, true, t₁.batch⟩) rfl rfl)
  obtain ⟨applied, waiting, hevents, hidle, hcounts, -⟩ :=
    statistics_match_events ⟨rfl, rfl, rfl⟩ hrun (by simp [StatsEvent.others])
  have hnone : waiting = [] := hidle rfl
  have happlied : applied = [.metadataFetchFailed .rejected] := by
    rw [hnone, List.append_nil] at hevents
    exact hevents
  rw [hcounts, happlied]
  rfl

end StatsTask

end Btfind
