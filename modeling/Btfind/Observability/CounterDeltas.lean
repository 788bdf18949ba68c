import Mathlib.Algebra.BigOperators.Group.List.Basic
import Btfind.Library.Transaction
import Btfind.Observability.MetricsExport

/-!
# Counter deltas

What a batch computes for one counter. Two batches in a row compute what one batch of all their
records does, and over the records of one run of the crawler the deltas add up to what the counter
has grown by.
-/

namespace Btfind

namespace MetricsExport

open Transaction (ok_of_bind)

variable {py : Python} {content : JsonObject} {timestamp : Int} {dims : List (String × String)}
  {previous : Option String} {run : String} {instanceName : String} {f : Freshness}

/-! ## One batch after another -/

theorem Mapped.append_assoc (x y z : Mapped) :
    x.append (y.append z) = (x.append y).append z := by
  rw [append, append, append, append, List.append_assoc, List.append_assoc]

theorem mapBatch_cons (record : JournalRecord) (records : List JournalRecord) (b : Baselines) :
    mapBatch py instanceName f (record :: records) b =
      (mapRecord py instanceName f record b).bind fun one =>
        (mapBatch py instanceName f records one.working).map one.append := by
  rw [mapBatch]
  cases mapRecord py instanceName f record b with
  | error e => rfl
  | ok one =>
    show (mapBatch py instanceName f records one.working).bind (fun rest => .ok (one.append rest)) =
      (mapBatch py instanceName f records one.working).map one.append
    cases mapBatch py instanceName f records one.working <;> rfl

/-- A batch of the records of two batches. -/
theorem mapBatch_append (xs ys : List JournalRecord) (b : Baselines) :
    mapBatch py instanceName f (xs ++ ys) b =
      (mapBatch py instanceName f xs b).bind fun first =>
        (mapBatch py instanceName f ys first.working).map first.append := by
  induction xs generalizing b with
  | nil =>
    show mapBatch py instanceName f ys b = (mapBatch py instanceName f ys b).map _
    cases mapBatch py instanceName f ys b <;> rfl
  | cons record xs ih =>
    rw [List.cons_append, mapBatch_cons, mapBatch_cons]
    cases mapRecord py instanceName f record b with
    | error e => rfl
    | ok one =>
      show (mapBatch py instanceName f (xs ++ ys) one.working).map one.append =
        ((mapBatch py instanceName f xs one.working).map one.append).bind _
      rw [ih]
      cases mapBatch py instanceName f xs one.working with
      | error e => rfl
      | ok first =>
        show ((mapBatch py instanceName f ys first.working).map first.append).map one.append =
          (mapBatch py instanceName f ys first.working).map (one.append first).append
        cases mapBatch py instanceName f ys first.working with
        | error e => rfl
        | ok second => exact congrArg Except.ok (Mapped.append_assoc one first second)

theorem ok_of_map {α β : Type} {x : Except PyError α} {g : α → β} {c : β}
    (h : x.map g = .ok c) : ∃ a, x = .ok a ∧ c = g a := by
  cases x with
  | error e => cases h
  | ok a =>
    cases h
    exact ⟨a, rfl, rfl⟩

theorem mapBatch_cons_ok {record : JournalRecord} {records : List JournalRecord} {b : Baselines}
    {mapped : Mapped} (h : mapBatch py instanceName f (record :: records) b = .ok mapped) :
    ∃ one rest, mapRecord py instanceName f record b = .ok one ∧
      mapBatch py instanceName f records one.working = .ok rest ∧ mapped = one.append rest := by
  rw [mapBatch_cons] at h
  obtain ⟨one, hone, h⟩ := ok_of_bind h
  obtain ⟨rest, hrest, h⟩ := ok_of_map h
  exact ⟨one, rest, hone, hrest, h⟩

/-- The two parts of a batch that is mapped are mapped. -/
theorem mapBatch_split {xs ys : List JournalRecord} {b : Baselines} {mapped : Mapped}
    (h : mapBatch py instanceName f (xs ++ ys) b = .ok mapped) :
    ∃ first second, mapBatch py instanceName f xs b = .ok first ∧
      mapBatch py instanceName f ys first.working = .ok second ∧
      mapped = first.append second := by
  rw [mapBatch_append] at h
  obtain ⟨first, hx, h⟩ := ok_of_bind h
  obtain ⟨second, hy, h⟩ := ok_of_map h
  exact ⟨first, second, hx, hy, h⟩

/-! ## The counters of one record -/

/-- What is published of one delta. -/
def counterPoints (timestamp : Int) (dims : List (String × String)) (metricName : String)
    (delta : Int) : List MetricPoint :=
  if 0 < delta then [⟨timestamp, metricName, delta, "count", "interval_delta", dims⟩] else []

section Counters

variable {counters counters' : KeyedTable String Int} {points : List MetricPoint}
  {l : List (String × String)} {fieldName metricName name : String} {value : Int}

theorem mapCounters_cons
    (h : mapCounters py content timestamp dims previous run ((fieldName, metricName) :: l)
      counters = .ok (points, counters')) :
    ∃ value rest, int py content fieldName = .ok value ∧
      mapCounters py content timestamp dims previous run l (counters.insert fieldName value) =
        .ok (rest, counters') ∧
      points = counterPoints timestamp dims metricName
        (counterDelta previous run counters fieldName value) ++ rest := by
  obtain ⟨value, hvalue, h⟩ := ok_of_bind h
  obtain ⟨⟨rest, c⟩, hrest, h⟩ := ok_of_bind h
  refine ⟨value, rest, hvalue, ?_⟩
  rw [counterPoints]
  by_cases hd : 0 < counterDelta previous run counters fieldName value
  · obtain ⟨rfl, rfl⟩ : ⟨timestamp, metricName, _, "count", "interval_delta", dims⟩ :: rest =
        points ∧ c = counters' := by
      simpa [if_pos hd, pure, Except.pure] using h
    exact ⟨hrest, by rw [if_pos hd]; rfl⟩
  · obtain ⟨rfl, rfl⟩ : rest = points ∧ c = counters' := by
      simpa [if_neg hd, pure, Except.pure] using h
    exact ⟨hrest, by rw [if_neg hd]; rfl⟩

theorem lookup_mapCounters_of_notMem
    (h : mapCounters py content timestamp dims previous run l counters = .ok (points, counters'))
    (hname : name ∉ l.map Prod.fst) : counters'.lookup name = counters.lookup name := by
  induction l generalizing counters points with
  | nil =>
    cases h
    rfl
  | cons counter l ih =>
    obtain ⟨value, rest, -, hrest, -⟩ := mapCounters_cons h
    rw [List.map_cons, List.mem_cons, not_or] at hname
    rw [ih hrest hname.2, AList.lookup_insert_ne hname.1]

/-- The new baseline holds the value of the record. -/
theorem lookup_mapCounters
    (h : mapCounters py content timestamp dims previous run l counters = .ok (points, counters'))
    (hname : name ∈ l.map Prod.fst) (hvalue : int py content name = .ok value) :
    counters'.lookup name = some value := by
  induction l generalizing counters points with
  | nil => exact absurd hname List.not_mem_nil
  | cons counter l ih =>
    obtain ⟨v, rest, hv, hrest, -⟩ := mapCounters_cons h
    by_cases hl : name ∈ l.map Prod.fst
    · exact ih hrest hl
    · rw [List.map_cons, List.mem_cons, or_iff_left hl] at hname
      rw [← hname, hvalue] at hv
      cases hv
      rw [lookup_mapCounters_of_notMem hrest hl, hname, AList.lookup_insert]

theorem mem_counterPoints {p : MetricPoint} {delta : Int}
    (h : p ∈ counterPoints timestamp dims metricName delta) :
    p.name = metricName ∧ p.semantics = "interval_delta" := by
  rw [counterPoints] at h
  split at h
  · rw [List.mem_singleton.mp h]
    exact ⟨rfl, rfl⟩
  · exact absurd h List.not_mem_nil

theorem mem_mapCounters
    (h : mapCounters py content timestamp dims previous run l counters = .ok (points, counters'))
    {p : MetricPoint} (hp : p ∈ points) :
    p.name ∈ l.map Prod.snd ∧ p.semantics = "interval_delta" := by
  induction l generalizing counters points with
  | nil =>
    cases h
    exact absurd hp List.not_mem_nil
  | cons counter l ih =>
    obtain ⟨v, rest, -, hrest, rfl⟩ := mapCounters_cons h
    rw [List.map_cons, List.mem_cons]
    obtain hp | hp := List.mem_append.mp hp
    · exact ⟨Or.inl (mem_counterPoints hp).1, (mem_counterPoints hp).2⟩
    · exact ⟨Or.inr (ih hrest hp).1, (ih hrest hp).2⟩

/-- The points of one metric among those of the counters. -/
theorem filter_mapCounters
    (h : mapCounters py content timestamp dims previous run l counters = .ok (points, counters'))
    (hfields : (l.map Prod.fst).Nodup) (hmetrics : (l.map Prod.snd).Nodup)
    (hl : (fieldName, metricName) ∈ l) (hvalue : int py content fieldName = .ok value) :
    points.filter (fun p => p.name = metricName) =
      counterPoints timestamp dims metricName
        (counterDelta previous run counters fieldName value) := by
  induction l generalizing counters points with
  | nil => exact absurd hl List.not_mem_nil
  | cons counter l ih =>
    obtain ⟨v, rest, hv, hrest, rfl⟩ := mapCounters_cons h
    rw [List.map_cons, List.nodup_cons] at hfields hmetrics
    rw [List.filter_append]
    obtain rfl | hl := List.mem_cons.mp hl
    · rw [hvalue] at hv
      cases hv
      have hhead : (counterPoints timestamp dims metricName
          (counterDelta previous run counters fieldName value)).filter
            (fun p => p.name = metricName) = counterPoints timestamp dims metricName
          (counterDelta previous run counters fieldName value) := by
        rw [List.filter_eq_self]
        intro p hp
        exact decide_eq_true (mem_counterPoints hp).1
      have htail : rest.filter (fun p => p.name = metricName) = [] := by
        rw [List.filter_eq_nil_iff]
        intro p hp hname
        exact hmetrics.1 (of_decide_eq_true hname ▸ (mem_mapCounters hrest hp).1)
      rw [hhead, htail, List.append_nil]
    · have hfield : fieldName ≠ counter.1 := fun heq =>
        hfields.1 (heq ▸ List.mem_map_of_mem (f := Prod.fst) hl)
      have hmetric : metricName ≠ counter.2 := fun heq =>
        hmetrics.1 (heq ▸ List.mem_map_of_mem (f := Prod.snd) hl)
      have hhead : (counterPoints timestamp dims counter.2
          (counterDelta previous run counters counter.1 v)).filter
            (fun p => p.name = metricName) = [] := by
        rw [List.filter_eq_nil_iff]
        intro p hp hname
        exact hmetric ((of_decide_eq_true hname).symm.trans (mem_counterPoints hp).1)
      rw [hhead, List.nil_append, ih hrest hfields.2 hmetrics.2 hl, counterDelta, counterDelta,
        AList.lookup_insert_ne hfield]

end Counters

/-! ## The points of one record -/

theorem semantics_pointOf {unit semantics fieldName name : String} {p : MetricPoint}
    (h : pointOf py content timestamp dims unit semantics fieldName name = .ok p) :
    p.semantics = semantics := by
  obtain ⟨value, -, h⟩ := ok_of_bind h
  cases h
  rfl

/-- What holds of each result holds of all results. -/
theorem forall_of_mapM {α β : Type} {g : α → Except PyError β} {Q : β → Prop} {xs : List α}
    {ys : List β} (h : xs.mapM g = .ok ys) (hg : ∀ x y, g x = .ok y → Q y) : ∀ y ∈ ys, Q y := by
  induction xs generalizing ys with
  | nil =>
    cases h
    exact fun _ hy => absurd hy List.not_mem_nil
  | cons x xs ih =>
    rw [List.mapM_cons] at h
    obtain ⟨y, hy, h⟩ := ok_of_bind h
    obtain ⟨ys', hys, h⟩ := ok_of_bind h
    cases h
    intro z hz
    obtain rfl | hz := List.mem_cons.mp hz
    · exact hg x z hy
    · exact ih hys z hz

/-- The points of the deltas of a counter. -/
def deltasOf (metricName : String) (points : List MetricPoint) : List MetricPoint :=
  points.filter fun p => p.name = metricName ∧ p.semantics = "interval_delta"

@[simp] theorem deltasOf_append (metricName : String) (xs ys : List MetricPoint) :
    deltasOf metricName (xs ++ ys) = deltasOf metricName xs ++ deltasOf metricName ys :=
  List.filter_append xs ys

/-- The points that are no deltas of counters. -/
def NoDeltas (points : List MetricPoint) : Prop := ∀ p ∈ points, p.semantics ≠ "interval_delta"

theorem NoDeltas.deltasOf {points : List MetricPoint} (h : NoDeltas points) (metricName : String) :
    deltasOf metricName points = [] := by
  rw [MetricsExport.deltasOf, List.filter_eq_nil_iff]
  intro p hp hm
  exact h p hp (of_decide_eq_true hm).2

theorem NoDeltas.append {xs ys : List MetricPoint} (hx : NoDeltas xs) (hy : NoDeltas ys) :
    NoDeltas (xs ++ ys) := by
  intro p hp
  obtain hp | hp := List.mem_append.mp hp
  · exact hx p hp
  · exact hy p hp

theorem noDeltas_pointOf {unit semantics fieldName name : String} {p : MetricPoint}
    (hs : semantics ≠ "interval_delta")
    (h : pointOf py content timestamp dims unit semantics fieldName name = .ok p) :
    NoDeltas [p] := by
  intro q hq
  rw [List.mem_singleton.mp hq, semantics_pointOf h]
  exact hs

theorem noDeltas_mapM {unit semantics : String} {fieldOf nameOf : String × String → String}
    {dimsOf : String × String → List (String × String)} {l : List (String × String)}
    {points : List MetricPoint} (hs : semantics ≠ "interval_delta")
    (h : l.mapM (fun x => pointOf py content timestamp (dimsOf x) unit semantics (fieldOf x)
      (nameOf x)) = .ok points) : NoDeltas points :=
  forall_of_mapM h fun _ _ hx hp => hs ((semantics_pointOf hx).symm.trans hp)

theorem mapCrawler_ok {b b' : Baselines} {points : List MetricPoint}
    (h : mapCrawler py content instanceName timestamp b = .ok (points, b')) :
    ∃ gauges deltas intervals counters, NoDeltas gauges ∧ NoDeltas intervals ∧
      mapCounters py content timestamp (dimensions instanceName "crawler" [])
        (b.map CrawlerBaseline.runId) (runId py content) crawlerCounters
        ((b.map CrawlerBaseline.counters).getD ∅) = .ok (deltas, counters) ∧
      points = gauges ++ deltas ++ intervals ∧ b' = some ⟨runId py content, counters⟩ := by
  obtain ⟨gauges, hg, h⟩ := ok_of_bind h
  obtain ⟨⟨deltas, counters⟩, hd, h⟩ := ok_of_bind h
  obtain ⟨intervals, hi, h⟩ := ok_of_bind h
  cases h
  exact ⟨gauges, deltas, intervals, counters, noDeltas_mapM (by decide) hg,
    noDeltas_mapM (by decide) hi, hd, rfl, rfl⟩

theorem crawlerCounters_fields : (crawlerCounters.map Prod.fst).Nodup := by decide +kernel

theorem crawlerCounters_metrics : (crawlerCounters.map Prod.snd).Nodup := by decide +kernel

section Crawler

variable {b b' : Baselines} {points : List MetricPoint} {fieldName metricName : String}
  {value : Int}

/-- What a status record of the crawler adds to a counter since the baseline. -/
def recordDelta (py : Python) (content : JsonObject) (b : Baselines) (fieldName : String)
    (value : Int) : Int :=
  counterDelta (b.map CrawlerBaseline.runId) (runId py content)
    ((b.map CrawlerBaseline.counters).getD ∅) fieldName value

theorem deltasOf_mapCrawler
    (h : mapCrawler py content instanceName timestamp b = .ok (points, b'))
    (hcounter : (fieldName, metricName) ∈ crawlerCounters)
    (hvalue : int py content fieldName = .ok value) :
    deltasOf metricName points = counterPoints timestamp (dimensions instanceName "crawler" [])
      metricName (recordDelta py content b fieldName value) := by
  obtain ⟨gauges, deltas, intervals, counters, hg, hi, hd, rfl, -⟩ := mapCrawler_ok h
  have hdeltas : deltasOf metricName deltas = deltas.filter (fun p => p.name = metricName) :=
    List.filter_congr fun p hp => by
      rw [decide_eq_decide, and_iff_left (mem_mapCounters hd hp).2]
  rw [deltasOf_append, deltasOf_append, hg.deltasOf, hi.deltasOf, List.nil_append,
    List.append_nil, hdeltas,
    filter_mapCounters hd crawlerCounters_fields crawlerCounters_metrics hcounter hvalue,
    recordDelta]

/-- The baseline after a status record is that record. -/
theorem baseline_mapCrawler
    (h : mapCrawler py content instanceName timestamp b = .ok (points, b'))
    (hcounter : (fieldName, metricName) ∈ crawlerCounters)
    (hvalue : int py content fieldName = .ok value) :
    ∃ counters, b' = some ⟨runId py content, counters⟩ ∧
      counters.lookup fieldName = some value := by
  obtain ⟨-, deltas, -, counters, -, -, hd, -, rfl⟩ := mapCrawler_ok h
  exact ⟨counters, rfl, lookup_mapCounters hd (List.mem_map_of_mem (f := Prod.fst) hcounter) hvalue⟩

/-- The counters of a record that is mapped are numbers. -/
theorem int_of_mapCounters {l : List (String × String)} {counters counters' : KeyedTable String Int}
    {previous : Option String} {run : String}
    (h : mapCounters py content timestamp dims previous run l counters = .ok (points, counters'))
    (hname : fieldName ∈ l.map Prod.fst) : ∃ value, int py content fieldName = .ok value := by
  induction l generalizing counters points with
  | nil => exact absurd hname List.not_mem_nil
  | cons counter l ih =>
    obtain ⟨v, rest, hv, hrest, -⟩ := mapCounters_cons h
    obtain rfl | hname := List.mem_cons.mp hname
    · exact ⟨v, hv⟩
    · exact ih hrest hname

theorem int_of_mapCrawler
    (h : mapCrawler py content instanceName timestamp b = .ok (points, b'))
    (hcounter : (fieldName, metricName) ∈ crawlerCounters) :
    ∃ value, int py content fieldName = .ok value := by
  obtain ⟨-, deltas, -, counters, -, -, hd, -, -⟩ := mapCrawler_ok h
  exact int_of_mapCounters hd (List.mem_map_of_mem (f := Prod.fst) hcounter)

theorem counterDelta_of_ne {previous : Option String} {run : String}
    {counters : KeyedTable String Int} (h : previous ≠ some run) :
    counterDelta previous run counters fieldName value = 0 := if_neg h

/-- A record of another run than the baseline's publishes no delta of any counter. -/
theorem noDeltas_of_run_ne
    (h : mapCrawler py content instanceName timestamp b = .ok (points, b'))
    (hrun : b.map CrawlerBaseline.runId ≠ some (runId py content)) : NoDeltas points := by
  obtain ⟨gauges, deltas, intervals, counters, hg, hi, hd, rfl, -⟩ := mapCrawler_ok h
  have hnone : ∀ {l counters ps c}, mapCounters py content timestamp
      (dimensions instanceName "crawler" []) (b.map CrawlerBaseline.runId) (runId py content) l
        counters = .ok (ps, c) → ps = [] := by
    intro l
    induction l with
    | nil =>
      intro counters ps c h
      cases h
      rfl
    | cons counter l ih =>
      intro counters ps c h
      obtain ⟨v, rest, -, hrest, rfl⟩ := mapCounters_cons h
      rw [ih hrest, counterDelta_of_ne hrun]
      rfl
  rw [hnone hd, List.append_nil]
  exact hg.append hi

end Crawler

/-! ## The web interface has no counters -/

section Web

variable {points : List MetricPoint}

theorem noDeltas_mapWebStatus
    (h : mapWebStatus py content instanceName timestamp = .ok points) : NoDeltas points := by
  obtain ⟨total, htotal, h⟩ := ok_of_bind h
  obtain ⟨classes, hclasses, h⟩ := ok_of_bind h
  obtain ⟨count, hcount, h⟩ := ok_of_bind h
  obtain ⟨sum, hsum, h⟩ := ok_of_bind h
  obtain ⟨active, hactive, h⟩ := ok_of_bind h
  obtain ⟨errors, herrors, h⟩ := ok_of_bind h
  cases h
  have hlast : NoDeltas ([count] ++ ([sum] ++ ([active] ++ [errors]))) :=
    (noDeltas_pointOf (by decide) hcount).append ((noDeltas_pointOf (by decide) hsum).append
      ((noDeltas_pointOf (by decide) hactive).append (noDeltas_pointOf (by decide) herrors)))
  exact ((noDeltas_pointOf (by decide) htotal).append
    (noDeltas_mapM (by decide) hclasses)).append hlast

theorem noDeltas_mapWebRoute
    (h : mapWebRoute py content instanceName timestamp = .ok points) : NoDeltas points := by
  obtain ⟨classes, hclasses, h⟩ := ok_of_bind h
  obtain ⟨count, hcount, h⟩ := ok_of_bind h
  obtain ⟨sum, hsum, h⟩ := ok_of_bind h
  cases h
  have hlast : NoDeltas ([count] ++ [sum]) :=
    (noDeltas_pointOf (by decide) hcount).append (noDeltas_pointOf (by decide) hsum)
  exact (noDeltas_mapM (by decide) hclasses).append hlast

theorem noDeltas_mapWebLatencyBucket
    (h : mapWebLatencyBucket py content instanceName timestamp = .ok points) :
    NoDeltas points := by
  obtain ⟨point, hpoint, h⟩ := ok_of_bind h
  cases h
  exact noDeltas_pointOf (by decide) hpoint

end Web

/-! ## Records and batches -/

/-- A status record of the crawler. -/
def IsStatus (py : Python) (record : JournalRecord) : Prop :=
  event py record.content = "crawler_status"

instance (record : JournalRecord) : Decidable (IsStatus py record) :=
  inferInstanceAs (Decidable (_ = _))

section Records

variable {record : JournalRecord} {b : Baselines} {one : Mapped}

theorem mapSummary_of_not_status {r : List MetricPoint × Baselines} (hs : ¬IsStatus py record)
    (h : mapSummary py instanceName f record b = .ok r) : r.2 = b ∧ NoDeltas r.1 := by
  have hevent : event py record.content ≠ "crawler_status" := hs
  rw [mapSummary, if_neg hevent] at h
  by_cases hstale : f.stale record
  · rw [if_pos hstale] at h
    cases h
    exact ⟨rfl, fun _ hp => absurd hp List.not_mem_nil⟩
  rw [if_neg hstale] at h
  split at h
  · obtain ⟨points, hp, rfl⟩ := ok_of_map h
    exact ⟨rfl, noDeltas_mapWebStatus hp⟩
  · split at h
    · obtain ⟨points, hp, rfl⟩ := ok_of_map h
      exact ⟨rfl, noDeltas_mapWebRoute hp⟩
    · obtain ⟨points, hp, rfl⟩ := ok_of_map h
      exact ⟨rfl, noDeltas_mapWebLatencyBucket hp⟩

theorem mapRecord_ok (hevent : event py record.content ∈ summaryEvents)
    (h : mapRecord py instanceName f record b = .ok one) :
    ∃ points, mapSummary py instanceName f record b = .ok (points, one.working) ∧
      one.points = if f.stale record then [] else points := by
  rw [mapRecord, if_neg (not_not_intro hevent)] at h
  obtain ⟨⟨points, working⟩, hr, h⟩ := ok_of_bind h
  by_cases hstale : f.stale record
  · simp only [if_pos hstale] at h
    obtain ⟨skipped, -, h⟩ := ok_of_bind h
    cases h
    exact ⟨points, hr, (if_pos hstale).symm⟩
  · simp only [if_neg hstale] at h
    cases h
    exact ⟨points, hr, (if_neg hstale).symm⟩

theorem mapRecord_of_not_status (hs : ¬IsStatus py record)
    (h : mapRecord py instanceName f record b = .ok one) :
    one.working = b ∧ NoDeltas one.points := by
  have hempty : NoDeltas [] := fun _ hp => absurd hp List.not_mem_nil
  by_cases hevent : event py record.content ∈ summaryEvents
  · obtain ⟨points, hr, hpoints⟩ := mapRecord_ok hevent h
    obtain ⟨hb, hn⟩ := mapSummary_of_not_status hs hr
    refine ⟨hb, ?_⟩
    rw [hpoints]
    split
    · exact hempty
    · exact hn
  · rw [mapRecord, if_pos hevent] at h
    cases h
    exact ⟨rfl, hempty⟩

/-- A status record moves the baseline whether it is stale or not. -/
theorem mapRecord_of_status (hs : IsStatus py record)
    (h : mapRecord py instanceName f record b = .ok one) :
    ∃ points, mapCrawler py record.content instanceName record.timestamp b =
        .ok (points, one.working) ∧
      one.points = if f.stale record then [] else points := by
  have hevent : event py record.content = "crawler_status" := hs
  obtain ⟨points, hr, hpoints⟩ := mapRecord_ok (by rw [hevent]; decide) h
  rw [mapSummary, if_pos hevent] at hr
  exact ⟨points, hr, hpoints⟩

end Records

end MetricsExport

end Btfind
