import Btfind.Observability.CounterSteps
import Btfind.Observability.LogRuns

/-!
# Metrics over runs of the exporter

Batches are published, rejected and tried again, and a process may stop anywhere. What is committed
in the end is what one batch of all committed records would have come to.
-/

namespace Btfind

namespace Export

open MetricsExport
open Program (Triple)

variable {site : ExportSite} {config : ExportConfig}

/-! ## Committed batches -/

/-- Each batch was mapped from the baselines that the one before it left. -/
def Chained (site : ExportSite) : Baselines → List MetricsCommit → Baselines → Prop
  | b, [], b' => b = b'
  | b, c :: commits, b' =>
    ∃ mapped, mapBatch site.py site.instanceName c.freshness c.records b = .ok mapped ∧
      c.points = mapped.points ∧ Chained site mapped.working commits b'

theorem Chained.append {b b' b'' : Baselines} {xs ys : List MetricsCommit}
    (hx : Chained site b xs b') (hy : Chained site b' ys b'') : Chained site b (xs ++ ys) b'' := by
  induction xs generalizing b with
  | nil =>
    cases hx
    exact hy
  | cons c xs ih =>
    obtain ⟨mapped, hmapped, hpoints, hrest⟩ := hx
    exact ⟨mapped, hmapped, hpoints, ih hrest⟩

/-- Batches at one clock value are one batch. -/
theorem Chained.single {f : Freshness} {b b' : Baselines} {commits : List MetricsCommit}
    (h : Chained site b commits b') (hf : ∀ c ∈ commits, c.freshness = f) :
    ∃ skipped, mapBatch site.py site.instanceName f (commits.flatMap MetricsCommit.records) b =
      .ok ⟨commits.flatMap MetricsCommit.points, b', skipped⟩ := by
  induction commits generalizing b with
  | nil =>
    cases h
    exact ⟨[], rfl⟩
  | cons c commits ih =>
    obtain ⟨mapped, hmapped, hpoints, hrest⟩ := h
    obtain ⟨skipped, hbatch⟩ := ih hrest fun c hc => hf c (List.mem_cons_of_mem _ hc)
    rw [hf c List.mem_cons_self] at hmapped
    refine ⟨mapped.skipped ++ skipped, ?_⟩
    rw [List.flatMap_cons, mapBatch_append, hmapped]
    show (mapBatch site.py site.instanceName f _ mapped.working).map mapped.append = _
    rw [hbatch, List.flatMap_cons, hpoints]
    rfl

/-! ## One run -/

/-- What is committed since a state, and the baselines that go with it. -/
def Grown (site : ExportSite) (v w : ExportWorld) : Prop :=
  ∃ commits, w.committed = v.committed ++ commits ∧
    Chained site v.disk.baselines commits w.disk.baselines

/-- Memory and disk have the same baselines. -/
def Settled (site : ExportSite) (v w : ExportWorld) : Prop :=
  Grown site v w ∧ w.memory.baselines = w.disk.baselines

/-- Only a save that fails leaves other baselines in memory. -/
def Stopped (site : ExportSite) (v : ExportWorld) (stop : Stop ExportError) (w : ExportWorld) :
    Prop :=
  Grown site v w ∧ ∀ e, stop = .raised e → e ≠ .os → w.memory.baselines = w.disk.baselines

variable {v : ExportWorld}

theorem Settled.stopped {stop : Stop ExportError} {w : ExportWorld} (h : Settled site v w) :
    Stopped site v stop w := ⟨h.1, fun _ _ _ => h.2⟩

theorem Stopped.settled {e : ExportError} {w : ExportWorld} (h : Stopped site v (.raised e) w)
    (he : e ≠ .os) : Settled site v w := ⟨h.1, h.2 e rfl he⟩

theorem Stopped.of_os {w : ExportWorld} (h : Grown site v w) :
    Stopped site v (.raised .os) w :=
  ⟨h, fun _ he hne => absurd (Stop.raised.inj he).symm hne⟩

theorem Stopped.of_died {w : ExportWorld} (h : Grown site v w) : Stopped site v .died w :=
  ⟨h, nofun⟩

theorem Grown.refl (w : ExportWorld) : Grown site w w := ⟨[], (List.append_nil _).symm, rfl⟩

theorem Grown.trans {u w : ExportWorld} (h : Grown site v u) (h' : Grown site u w) :
    Grown site v w := by
  obtain ⟨xs, hxs, hx⟩ := h
  obtain ⟨ys, hys, hy⟩ := h'
  exact ⟨xs ++ ys, by rw [hys, hxs, List.append_assoc], hx.append hy⟩

/-- A save of the same baselines. -/
theorem Settled.saved {w : ExportWorld} (h : Settled site v w) : Settled site v (saved [] w) := by
  obtain ⟨⟨commits, hc, hchain⟩, hb⟩ := h
  refine ⟨⟨commits, ?_, ?_⟩, rfl⟩
  · rw [← hc]
    exact List.append_nil w.committed
  · show Chained site v.disk.baselines commits w.memory.baselines
    rw [hb]
    exact hchain

theorem settled_resetCursor (stream : Stream) (cursor : Option String) :
    Triple (Settled site v) (resetCursor stream cursor)
      (fun _ w => Settled site v w ∧ (w.memory.stream stream).cursor = none) (Stopped site v) := by
  refine triple_resetCursor ?_ ?_ ?_ ?_ fun _ _ h => h.stopped
  · intro w gap h
    exact ⟨h.1, CheckpointState.baselines_recordGap.trans h.2⟩
  · intro w h
    exact Settled.saved ⟨h.1, CheckpointState.baselines_resetCursor.trans h.2⟩
  · exact fun w h => Stopped.of_died h.1
  · exact fun w h => Stopped.of_os h.1

/-! ## Metrics batches -/

section Batch

/-- Nothing is stored while a batch is on its way. -/
def Shipping (site : ExportSite) (v : ExportWorld) (b : Baselines) (w : ExportWorld) : Prop :=
  Settled site v w ∧ w.disk.baselines = b

/-- A batch is committed with its points and its baselines, or it changes nothing that is
stored. -/
theorem shipMetricsBatch_settled (batch : JournalBatch) :
    Triple (Settled site v) (shipMetricsBatch site config batch) (fun _ => Settled site v)
      (Stopped site v) := by
  have hS : ∀ stop w, Settled site v w → Stopped site v stop w := fun _ _ h => h.stopped
  refine Triple.bind (Exporter.triple_next (hS _)) fun now => ?_
  refine Triple.bind (Q := fun u => Shipping site v u.memory.baselines)
    (Triple.get fun w h => ⟨h, h.2.symm⟩) fun u => ?_
  have hS' : ∀ stop w, Shipping site v u.memory.baselines w → Stopped site v stop w :=
    fun _ _ h => h.1.stopped
  refine Triple.bind (Q := fun mapped w => mapBatch site.py site.instanceName
    ⟨config.metricsMaxAgeSeconds, now⟩ batch.records u.memory.baselines = .ok mapped ∧
      Shipping site v u.memory.baselines w) (Triple.ofExcept ?_ fun _ => hS' _) fun mapped => ?_
  · intro mapped w hmap h
    cases hb : mapBatch site.py site.instanceName ⟨config.metricsMaxAgeSeconds, now⟩ batch.records
      u.memory.baselines with
    | ok m =>
      rw [hb] at hmap
      cases hmap
      exact ⟨rfl, h⟩
    | error e =>
      rw [hb] at hmap
      cases hmap
  refine Triple.of_pure fun hmap => ?_
  refine Triple.bind (Triple.forM (fun _ => Shipping site v u.memory.baselines) mapped.skipped
    fun done gap rest _ => Exporter.triple_recordGap (fun w gap h =>
      ⟨⟨h.1.1, CheckpointState.baselines_recordGap.trans h.1.2⟩, h.2⟩) (hS' _)) fun _ => ?_
  refine Triple.bind (triple_publishPoints mapped.points (fun _ _ h => h) hS') fun _ => ?_
  refine Triple.bind (Exporter.triple_advance (Q := Shipping site v u.memory.baselines)
    (fun w now h => ⟨⟨h.1.1, CheckpointState.baselines_advance.trans h.1.2⟩, h.2⟩) (hS' _))
    fun _ => ?_
  -- From here on the baselines in memory are those of the batch.
  refine Triple.bind (Exporter.triple_changeMemory (Q := fun w => (Grown site v w ∧
    w.disk.baselines = u.memory.baselines) ∧ w.memory.baselines = mapped.working)
    fun w h => ⟨⟨h.1.1, h.2⟩, rfl⟩) fun _ => ?_
  refine Exporter.triple_save ?_ (fun w h => Stopped.of_died h.1.1)
    (fun w h => Stopped.of_os h.1.1) fun w h => Stopped.of_os h.1
  rintro w ⟨⟨hgrown, hdisk⟩, hmemory⟩
  refine ⟨hgrown.trans ⟨[_], rfl, mapped, ?_, rfl, hmemory.symm⟩, rfl⟩
  rw [hdisk]
  exact hmap

theorem shipMetricStream_settled (cursor : Option String) (lookback : Option Int) :
    Triple (Settled site v) (shipMetricStream site config cursor lookback)
      (fun _ => Settled site v) (Stopped site v) := by
  refine (triple_shipStream (fun _ _ => Settled site v) ?_ ?_ ?_ ?_).strengthen
    fun _ _ h => h.choose_spec
  · exact fun _ _ h => h
  · exact fun _ _ batch _ _ => shipMetricsBatch_settled batch
  · exact fun _ _ _ _ h => h.stopped
  · exact fun _ h => h.stopped

theorem runMetrics_settled : Triple (Settled site v) (runMetrics site config)
    (fun _ => Settled site v) (Stopped site v) :=
  triple_runMetrics shipMetricStream_settled (settled_resetCursor .metrics)
    (fun _ _ he h => h.settled he) fun _ _ h => h.stopped

end Batch

/-! ## Log runs leave the metrics alone -/

section Logs

theorem Settled.extends {u w : ExportWorld} (h : Settled site v u) (he : Extends u w) :
    Settled site v w := by
  rw [he.frame]
  exact h

theorem shipLogBatch_settled (batch : JournalBatch) :
    Triple (Settled site v) (shipLogBatch site config batch) (fun _ => Settled site v)
      (Stopped site v) :=
  Triple.of_state fun u hu => (shipLogBatch_delivers (v := u) batch).consequence
    (fun _ hw => hw ▸ Extends.refl u) (fun _ _ h => hu.extends h.1)
    fun _ _ h => (hu.extends h).stopped

theorem shipLogStream_settled (cursor : Option String) (lookback : Option Int) :
    Triple (Settled site v) (shipLogStream site config cursor lookback)
      (fun _ => Settled site v) (Stopped site v) := by
  refine (triple_shipStream (fun _ _ => Settled site v) ?_ ?_ ?_ ?_).strengthen
    fun _ _ h => h.choose_spec
  · exact fun _ _ h => h
  · intro reading done batch rest _
    refine Triple.bind (shipLogBatch_settled batch) fun _ => ?_
    refine Triple.bind (Exporter.triple_advance (Q := Settled site v)
      (fun w now h => ⟨h.1, CheckpointState.baselines_advance.trans h.2⟩) fun _ h => h.stopped)
      fun _ => ?_
    exact Exporter.triple_save (fun w h => h.saved) (fun _ h => h.stopped)
      (fun _ h => h.stopped) fun _ h => h.stopped
  · exact fun _ _ _ _ h => h.stopped
  · exact fun _ h => h.stopped

theorem runLogs_settled : Triple (Settled site v) (runLogs site config)
    (fun _ => Settled site v) (Stopped site v) := by
  refine triple_runLogs (fun cursor lookback => (shipLogStream_settled cursor lookback).weaken
    fun _ h => h.1) (settled_resetCursor .logs) (fun cursor => ?_)
    (fun _ _ he h => h.settled he) fun _ _ h => h.stopped
  exact triple_deadLetterFailed
    (fun w gap h => ⟨h.1, CheckpointState.baselines_recordGap.trans h.2⟩)
    (fun w h => h.saved) fun _ _ h => h.stopped

end Logs

/-! ## All runs -/

theorem run_grown (run : ExportRun) (w : ExportWorld) : Grown site w (run.world site w) := by
  refine run_keeps (G := Settled site w) (S := Stopped site w) ?_ runLogs_settled
    runMetrics_settled (fun _ _ h => h.stopped) fun _ _ h => h.1
  exact ⟨⟨[], (List.append_nil _).symm, rfl⟩, rfl⟩

theorem runs_grown (runs : List ExportRun) (w : ExportWorld) :
    Grown site w (runs.foldl (ExportRun.world site) w) := by
  induction runs generalizing w with
  | nil => exact Grown.refl w
  | cons run runs ih => exact (run_grown run w).trans (ih (run.world site w))

/-- The batches that runs commit amount to one batch. -/
theorem committed_single {f : Freshness} (runs : List ExportRun)
    (hf : ∀ c ∈ (after site runs).committed, c.freshness = f) :
    ∃ skipped, mapBatch site.py site.instanceName f
      ((after site runs).committed.flatMap MetricsCommit.records) none =
        .ok ⟨(after site runs).committed.flatMap MetricsCommit.points,
          (after site runs).disk.baselines, skipped⟩ := by
  have hgrown : Grown site .start (after site runs) := runs_grown runs .start
  obtain ⟨commits, hcommitted, hchain⟩ := hgrown
  have hall : (after site runs).committed = commits := hcommitted.trans (List.nil_append _)
  rw [hall] at hf ⊢
  exact hchain.single hf

/-- An attempt that commits nothing stores nothing. -/
theorem baselines_of_no_commit (run : ExportRun) (w : ExportWorld)
    (h : (run.world site w).committed = w.committed) :
    (run.world site w).disk.baselines = w.disk.baselines := by
  have hgrown : Grown site w (run.world site w) := run_grown run w
  obtain ⟨commits, hcommitted, hchain⟩ := hgrown
  have hnone : commits = [] := by
    rw [h] at hcommitted
    exact List.append_cancel_left (hcommitted.symm.trans (List.append_nil _).symm)
  rw [hnone] at hchain
  exact hchain.symm

/-- The records of one run of the crawler stand in one piece, and the counter never falls in it. -/
structure RunOf (py : Python) (fieldName run : String) (before mine later : List JournalRecord) :
    Prop where
  own : ∀ r ∈ mine, IsStatus py r → runId py r.content = run
  others_before : ∀ r ∈ before, IsStatus py r → runId py r.content ≠ run
  others_later : ∀ r ∈ later, IsStatus py r → runId py r.content ≠ run
  rises : (counterValues py fieldName mine).Pairwise (· ≤ ·)

/-- The deltas of one run of the crawler in a batch of all records. -/
theorem steps_telescope {fieldName metricName run : String} {before mine later : List JournalRecord}
    {f : Freshness} {b : Baselines} {mapped : Mapped}
    (hcounter : (fieldName, metricName) ∈ crawlerCounters)
    (hrun : RunOf site.py fieldName run before mine later)
    (hb : b.map CrawlerBaseline.runId ≠ some run)
    (h : mapBatch site.py site.instanceName f (before ++ (mine ++ later)) b = .ok mapped) :
    let steps := (counterSteps site.py site.instanceName f fieldName
      (before ++ (mine ++ later)) b).filter fun s => s.runId = run
    (∀ s ∈ steps, 0 ≤ s.delta) ∧
      (steps.map CounterStep.delta).sum = growth (counterValues site.py fieldName mine) := by
  obtain ⟨first, rest, hfirst, hrest, -⟩ := mapBatch_split h
  obtain ⟨second, third, hsecond, -, -⟩ := mapBatch_split hrest
  obtain ⟨hsteps, hsum⟩ := steps_of_run hcounter hrun.own
    (baseline_of_others hrun.others_before hb hfirst) hrun.rises hsecond
  have hfilter := filter_steps hrun.others_before hrun.others_later hfirst hsecond
    fun s hs => (hsteps s hs).1
  intro steps
  show (∀ s ∈ List.filter _ _, _) ∧ (List.map _ (List.filter _ _)).sum = _
  rw [hfilter]
  exact ⟨fun s hs => (hsteps s hs).2, hsum⟩

/-- Exported counter deltas telescope. Whatever is read, rejected, tried again or lost when a
process dies, the committed batches publish and store what one batch of their records does; and
over the records of one run of the crawler the deltas add up to what a counter has grown by. -/
theorem counter_deltas_telescope (site : ExportSite) :
    (∀ f runs, (∀ c ∈ (after site runs).committed, c.freshness = f) →
      ∃ skipped, mapBatch site.py site.instanceName f
        ((after site runs).committed.flatMap MetricsCommit.records) none =
          .ok ⟨(after site runs).committed.flatMap MetricsCommit.points,
            (after site runs).disk.baselines, skipped⟩) ∧
    (∀ f xs ys b, mapBatch site.py site.instanceName f (xs ++ ys) b =
      (mapBatch site.py site.instanceName f xs b).bind fun first =>
        (mapBatch site.py site.instanceName f ys first.working).map first.append) ∧
    (∀ (run : ExportRun) w, (run.world site w).committed = w.committed →
      (run.world site w).disk.baselines = w.disk.baselines) ∧
    (∀ f fieldName metricName run before mine later b mapped,
      (fieldName, metricName) ∈ crawlerCounters →
      RunOf site.py fieldName run before mine later →
      b.map CrawlerBaseline.runId ≠ some run →
      mapBatch site.py site.instanceName f (before ++ (mine ++ later)) b = .ok mapped →
      let steps := counterSteps site.py site.instanceName f fieldName
        (before ++ (mine ++ later)) b
      let own := steps.filter fun s => s.runId = run
      (∀ s ∈ own, 0 ≤ s.delta) ∧
      (own.map CounterStep.delta).sum = growth (counterValues site.py fieldName mine) ∧
      (deltasOf metricName mapped.points).map MetricPoint.value =
        (steps.filter CounterStep.published).map CounterStep.delta) ∧
    (∀ content timestamp b points b',
      mapCrawler site.py content site.instanceName timestamp b = .ok (points, b') →
      b.map CrawlerBaseline.runId ≠ some (runId site.py content) → NoDeltas points) := by
  refine ⟨fun f runs hf => committed_single runs hf, fun f xs ys b => mapBatch_append xs ys b,
    baselines_of_no_commit, ?_, ?_⟩
  · intro f fieldName metricName run before mine later b mapped hcounter hrun hb h
    obtain ⟨hnonneg, hsum⟩ := steps_telescope hcounter hrun hb h
    exact ⟨hnonneg, hsum, published_eq hcounter h⟩
  · intro content timestamp b points b' h hrun
    exact noDeltas_of_run_ne h hrun

/-! ## A crawler that is started again -/

/-- A status of the crawler with one of its counters. -/
def queriesStatus (run : String) (queries : Int) : JournalRecord where
  cursor := "s=1"
  timestamp := 1700000000000000
  service := .crawler
  content := [("event", .str "crawler_status"), ("run_id", .str run),
    ("queries_sent_total", .int queries)]
  bootId := ""
  machineId := ""

def firstRun : List JournalRecord := [queriesStatus "a" 5, queriesStatus "a" 8]

def secondRun : List JournalRecord :=
  [queriesStatus "b" 2, queriesStatus "b" 3, queriesStatus "b" 7]

theorem secondRun_of : RunOf startedSite.py "queries_sent_total" "b" firstRun secondRun [] where
  own := by
    simp only [secondRun, List.forall_mem_cons]
    exact ⟨fun _ => by decide, fun _ => by decide, fun _ => by decide, nofun⟩
  others_before := by
    simp only [firstRun, List.forall_mem_cons]
    exact ⟨fun _ => by decide, fun _ => by decide, nofun⟩
  others_later := nofun
  rises := by
    have hvalues : counterValues startedSite.py "queries_sent_total" secondRun = [2, 3, 7] := by
      decide
    rw [hvalues]
    decide

/-- The second run falls below the first one and has grown by five. -/
theorem counter_deltas_telescope_restarted :
    ∃ mapped, mapBatch startedSite.py startedSite.instanceName ⟨6900, 1700000001000000⟩
        (firstRun ++ (secondRun ++ [])) none = .ok mapped ∧
      (((counterSteps startedSite.py startedSite.instanceName ⟨6900, 1700000001000000⟩
        "queries_sent_total" (firstRun ++ (secondRun ++ [])) none).filter
          fun s => s.runId = "b").map CounterStep.delta).sum = 5 := by
  have hmaps : (mapBatch startedSite.py startedSite.instanceName ⟨6900, 1700000001000000⟩
      (firstRun ++ (secondRun ++ [])) none).isOk = true := by decide +kernel
  cases hmapped : mapBatch startedSite.py startedSite.instanceName ⟨6900, 1700000001000000⟩
      (firstRun ++ (secondRun ++ [])) none with
  | error e =>
    rw [hmapped] at hmaps
    cases hmaps
  | ok mapped =>
    obtain ⟨-, hsum, -⟩ := (counter_deltas_telescope startedSite).2.2.2.1 ⟨6900, 1700000001000000⟩
      "queries_sent_total" "CrawlerQueriesSent" "b" firstRun secondRun [] none mapped (by decide)
      secondRun_of nofun hmapped
    have hgrowth : growth (counterValues startedSite.py "queries_sent_total" secondRun) = 5 := by
      decide
    exact ⟨mapped, rfl, hsum.trans hgrowth⟩

end Export

end Btfind
