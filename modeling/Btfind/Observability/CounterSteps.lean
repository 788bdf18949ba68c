import Btfind.Observability.CounterDeltas

/-!
# Deltas over the runs of the crawler

The deltas that a batch computes for one counter, one for each status record. Over the records of
one run they add up to what the counter has grown by.
-/

namespace Btfind

namespace MetricsExport

/-- What is computed for one counter at a status record. -/
structure CounterStep where
  runId : String
  delta : Int
  stale : Bool

def recordStep (py : Python) (f : Freshness) (fieldName : String) (record : JournalRecord)
    (b : Baselines) : Option CounterStep :=
  if IsStatus py record then
    match int py record.content fieldName with
    | .ok value =>
      some ⟨runId py record.content, recordDelta py record.content b fieldName value,
        f.stale record⟩
    | .error _ => none
  else none

/-- The deltas of a counter in a batch, published or not. -/
def counterSteps (py : Python) (instanceName : String) (f : Freshness) (fieldName : String) :
    List JournalRecord → Baselines → List CounterStep
  | [], _ => []
  | record :: records, b =>
    (recordStep py f fieldName record b).toList ++
      match mapRecord py instanceName f record b with
      | .ok one => counterSteps py instanceName f fieldName records one.working
      | .error _ => []

/-- The value of a counter in a status record. -/
def counterValue (py : Python) (fieldName : String) (record : JournalRecord) : Option Int :=
  if IsStatus py record then (int py record.content fieldName).toOption else none

def counterValues (py : Python) (fieldName : String) (records : List JournalRecord) : List Int :=
  records.filterMap (counterValue py fieldName)

/-- The last value minus the first one. -/
def growth (values : List Int) : Int := values.getLast?.getD 0 - values.head?.getD 0

@[simp] theorem growth_singleton (v : Int) : growth [v] = 0 := by simp [growth]

theorem growth_cons_cons (v w : Int) (values : List Int) :
    growth (v :: w :: values) = w - v + growth (w :: values) := by
  simp only [growth, List.getLast?_cons_cons, List.head?_cons, Option.getD_some]
  omega

section Steps

variable {py : Python} {instanceName : String} {f : Freshness} {fieldName metricName run : String}
  {record : JournalRecord} {records xs ys : List JournalRecord} {b : Baselines}
  {one mapped first : Mapped} {value : Int}

theorem recordStep_of_not_status (hs : ¬IsStatus py record) :
    recordStep py f fieldName record b = none := if_neg hs

theorem recordStep_of_status (hs : IsStatus py record)
    (hvalue : int py record.content fieldName = .ok value) :
    recordStep py f fieldName record b =
      some ⟨runId py record.content, recordDelta py record.content b fieldName value,
        f.stale record⟩ := by
  rw [recordStep, if_pos hs, hvalue]

theorem counterSteps_cons (h : mapRecord py instanceName f record b = .ok one) :
    counterSteps py instanceName f fieldName (record :: records) b =
      (recordStep py f fieldName record b).toList ++
        counterSteps py instanceName f fieldName records one.working := by
  rw [counterSteps, h]

/-- The steps of two batches are those of one. -/
theorem counterSteps_append (h : mapBatch py instanceName f xs b = .ok first) :
    counterSteps py instanceName f fieldName (xs ++ ys) b =
      counterSteps py instanceName f fieldName xs b ++
        counterSteps py instanceName f fieldName ys first.working := by
  induction xs generalizing b first with
  | nil =>
    cases h
    rfl
  | cons record xs ih =>
    obtain ⟨one, rest, hone, hrest, rfl⟩ := mapBatch_cons_ok h
    rw [List.cons_append, counterSteps_cons hone, counterSteps_cons hone, ih hrest,
      List.append_assoc]
    rfl

theorem counterValues_cons_of_not_status (hs : ¬IsStatus py record) :
    counterValues py fieldName (record :: records) = counterValues py fieldName records := by
  have hnone : counterValue py fieldName record = none := if_neg hs
  rw [counterValues, List.filterMap_cons_none hnone, counterValues]

theorem counterValues_cons (hs : IsStatus py record)
    (hvalue : int py record.content fieldName = .ok value) :
    counterValues py fieldName (record :: records) =
      value :: counterValues py fieldName records := by
  rw [counterValues, List.filterMap_cons_some (b := value), counterValues]
  rw [counterValue, if_pos hs, hvalue]
  rfl

/-! ## What is published -/

/-- A step whose delta is published. -/
def CounterStep.published (s : CounterStep) : Bool := !s.stale && decide (0 < s.delta)

theorem published_record (hcounter : (fieldName, metricName) ∈ crawlerCounters)
    (h : mapRecord py instanceName f record b = .ok one) :
    (deltasOf metricName one.points).map MetricPoint.value =
      ((recordStep py f fieldName record b).toList.filter CounterStep.published).map
        CounterStep.delta := by
  by_cases hs : IsStatus py record
  · obtain ⟨points, hp, hpoints⟩ := mapRecord_of_status hs h
    obtain ⟨value, hvalue⟩ := int_of_mapCrawler hp hcounter
    rw [recordStep_of_status hs hvalue, hpoints]
    by_cases hstale : f.stale record
    · simp [hstale, CounterStep.published, deltasOf]
    · rw [if_neg hstale, deltasOf_mapCrawler hp hcounter hvalue, counterPoints]
      by_cases hd : 0 < recordDelta py record.content b fieldName value
      · simp [hstale, hd, CounterStep.published]
      · simp [hd, CounterStep.published]
  · rw [(mapRecord_of_not_status hs h).2.deltasOf, recordStep_of_not_status hs]
    rfl

/-- The points of a counter's metric are the positive deltas of the records that are not stale. -/
theorem published_eq (hcounter : (fieldName, metricName) ∈ crawlerCounters)
    (h : mapBatch py instanceName f records b = .ok mapped) :
    (deltasOf metricName mapped.points).map MetricPoint.value =
      ((counterSteps py instanceName f fieldName records b).filter CounterStep.published).map
        CounterStep.delta := by
  induction records generalizing b mapped with
  | nil =>
    cases h
    rfl
  | cons record records ih =>
    obtain ⟨one, rest, hone, hrest, rfl⟩ := mapBatch_cons_ok h
    rw [counterSteps_cons hone, List.filter_append, List.map_append, ← ih hrest,
      ← published_record hcounter hone, ← List.map_append, ← deltasOf_append]
    rfl

/-! ## The steps of one run -/

theorem recordDelta_of_run {counters : KeyedTable String Int} {v : Int}
    (hrun : runId py record.content = run) (hv : counters.lookup fieldName = some v)
    (hle : v ≤ value) :
    recordDelta py record.content (some ⟨run, counters⟩) fieldName value = value - v := by
  have hnow : (some (⟨run, counters⟩ : CrawlerBaseline)).map CrawlerBaseline.runId =
      some (runId py record.content) := congrArg some hrun.symm
  have hdelta : ¬value - (counters.lookup fieldName).getD value < 0 := by
    rw [hv, Option.getD_some]
    omega
  show counterDelta _ _ counters fieldName value = value - v
  rw [counterDelta, if_pos hnow]
  show (if value - (counters.lookup fieldName).getD value < 0 then value
    else value - (counters.lookup fieldName).getD value) = value - v
  rw [if_neg hdelta, hv, Option.getD_some]

/-- The deltas of records of the baseline's run: none is negative, and they add up to what the
counter has grown by since the baseline. -/
theorem steps_in_run {counters : KeyedTable String Int} {v : Int}
    (hcounter : (fieldName, metricName) ∈ crawlerCounters)
    (hrun : ∀ r ∈ records, IsStatus py r → runId py r.content = run)
    (hv : counters.lookup fieldName = some v)
    (hvalues : (v :: counterValues py fieldName records).Pairwise (· ≤ ·))
    (h : mapBatch py instanceName f records (some ⟨run, counters⟩) = .ok mapped) :
    (∀ s ∈ counterSteps py instanceName f fieldName records (some ⟨run, counters⟩),
      s.runId = run ∧ 0 ≤ s.delta) ∧
    ((counterSteps py instanceName f fieldName records (some ⟨run, counters⟩)).map
      CounterStep.delta).sum = growth (v :: counterValues py fieldName records) := by
  induction records generalizing counters v mapped with
  | nil => exact ⟨fun _ hs => absurd hs List.not_mem_nil, (growth_singleton v).symm⟩
  | cons record records ih =>
    obtain ⟨one, rest, hone, hrest, rfl⟩ := mapBatch_cons_ok h
    have hrun' : ∀ r ∈ records, IsStatus py r → runId py r.content = run :=
      fun r hr => hrun r (List.mem_cons_of_mem _ hr)
    rw [counterSteps_cons hone]
    by_cases hs : IsStatus py record
    · obtain ⟨points, hp, -⟩ := mapRecord_of_status hs hone
      obtain ⟨value, hvalue⟩ := int_of_mapCrawler hp hcounter
      obtain ⟨counters', hworking, hlookup⟩ := baseline_mapCrawler hp hcounter hvalue
      have hthis : runId py record.content = run := hrun record List.mem_cons_self hs
      rw [counterValues_cons hs hvalue, List.pairwise_cons] at hvalues
      have hle : v ≤ value := hvalues.1 value List.mem_cons_self
      rw [hworking, hthis] at hrest
      obtain ⟨hsteps, hsum⟩ := ih hrun' hlookup hvalues.2 hrest
      rw [hworking, recordStep_of_status hs hvalue, recordDelta_of_run hthis hv hle, hthis,
        counterValues_cons hs hvalue, growth_cons_cons, ← hsum]
      refine ⟨?_, ?_⟩
      · intro s hmem
        obtain hmem | hmem := List.mem_append.mp hmem
        · cases List.mem_singleton.mp hmem
          exact ⟨rfl, by show 0 ≤ value - v; omega⟩
        · exact hsteps s hmem
      · rw [List.map_append, List.sum_append, Option.toList_some, List.map_singleton,
          List.sum_singleton]
    · obtain ⟨hworking, -⟩ := mapRecord_of_not_status hs hone
      rw [hworking] at hrest ⊢
      rw [counterValues_cons_of_not_status hs] at hvalues ⊢
      rw [recordStep_of_not_status hs]
      exact ih hrun' hv hvalues hrest

/-- The deltas of all the records of one run. -/
theorem steps_of_run (hcounter : (fieldName, metricName) ∈ crawlerCounters)
    (hrun : ∀ r ∈ records, IsStatus py r → runId py r.content = run)
    (hb : b.map CrawlerBaseline.runId ≠ some run)
    (hvalues : (counterValues py fieldName records).Pairwise (· ≤ ·))
    (h : mapBatch py instanceName f records b = .ok mapped) :
    (∀ s ∈ counterSteps py instanceName f fieldName records b, s.runId = run ∧ 0 ≤ s.delta) ∧
    ((counterSteps py instanceName f fieldName records b).map CounterStep.delta).sum =
      growth (counterValues py fieldName records) := by
  induction records generalizing b mapped with
  | nil => exact ⟨fun _ hs => absurd hs List.not_mem_nil, rfl⟩
  | cons record records ih =>
    obtain ⟨one, rest, hone, hrest, rfl⟩ := mapBatch_cons_ok h
    have hrun' : ∀ r ∈ records, IsStatus py r → runId py r.content = run :=
      fun r hr => hrun r (List.mem_cons_of_mem _ hr)
    rw [counterSteps_cons hone]
    by_cases hs : IsStatus py record
    · -- The first record of the run only sets the baseline.
      obtain ⟨points, hp, -⟩ := mapRecord_of_status hs hone
      obtain ⟨value, hvalue⟩ := int_of_mapCrawler hp hcounter
      obtain ⟨counters, hworking, hlookup⟩ := baseline_mapCrawler hp hcounter hvalue
      have hthis : runId py record.content = run := hrun record List.mem_cons_self hs
      have hzero : recordDelta py record.content b fieldName value = 0 :=
        counterDelta_of_ne (hthis ▸ hb)
      rw [counterValues_cons hs hvalue] at hvalues ⊢
      rw [hworking, hthis] at hrest
      obtain ⟨hsteps, hsum⟩ := steps_in_run hcounter hrun' hlookup hvalues hrest
      rw [hworking, recordStep_of_status hs hvalue, hzero, hthis]
      refine ⟨?_, ?_⟩
      · intro s hmem
        obtain hmem | hmem := List.mem_append.mp hmem
        · cases List.mem_singleton.mp hmem
          exact ⟨rfl, le_rfl⟩
        · exact hsteps s hmem
      · rw [List.map_append, List.sum_append, Option.toList_some, List.map_singleton,
          List.sum_singleton, hsum, zero_add]
    · obtain ⟨hworking, -⟩ := mapRecord_of_not_status hs hone
      rw [hworking] at hrest ⊢
      rw [counterValues_cons_of_not_status hs] at hvalues ⊢
      rw [recordStep_of_not_status hs]
      exact ih hrun' hb hvalues hrest

/-! ## Other runs -/

theorem steps_of_others (hother : ∀ r ∈ records, IsStatus py r → runId py r.content ≠ run) :
    ∀ s ∈ counterSteps py instanceName f fieldName records b, s.runId ≠ run := by
  induction records generalizing b with
  | nil => exact fun _ hs => absurd hs List.not_mem_nil
  | cons record records ih =>
    intro s hmem
    rw [counterSteps] at hmem
    obtain hmem | hmem := List.mem_append.mp hmem
    · rw [recordStep] at hmem
      by_cases hs : IsStatus py record
      · rw [if_pos hs] at hmem
        split at hmem
        · cases List.mem_singleton.mp hmem
          exact hother record List.mem_cons_self hs
        · exact absurd hmem List.not_mem_nil
      · rw [if_neg hs] at hmem
        exact absurd hmem List.not_mem_nil
    · split at hmem
      · exact ih (fun r hr => hother r (List.mem_cons_of_mem _ hr)) s hmem
      · exact absurd hmem List.not_mem_nil

theorem baseline_of_others (hother : ∀ r ∈ records, IsStatus py r → runId py r.content ≠ run)
    (hb : b.map CrawlerBaseline.runId ≠ some run)
    (h : mapBatch py instanceName f records b = .ok mapped) :
    mapped.working.map CrawlerBaseline.runId ≠ some run := by
  induction records generalizing b mapped with
  | nil =>
    cases h
    exact hb
  | cons record records ih =>
    obtain ⟨one, rest, hone, hrest, rfl⟩ := mapBatch_cons_ok h
    show rest.working.map CrawlerBaseline.runId ≠ some run
    refine ih (fun r hr => hother r (List.mem_cons_of_mem _ hr)) ?_ hrest
    by_cases hs : IsStatus py record
    · obtain ⟨points, hp, -⟩ := mapRecord_of_status hs hone
      obtain ⟨-, -, -, counters, -, -, -, -, hworking⟩ := mapCrawler_ok hp
      rw [hworking]
      exact fun heq => hother record List.mem_cons_self hs (Option.some.inj heq)
    · rw [(mapRecord_of_not_status hs hone).1]
      exact hb

/-- The steps of one run among the steps of a batch that holds its records in one piece. -/
theorem filter_steps {before mine later : List JournalRecord}
    (hbefore : ∀ r ∈ before, IsStatus py r → runId py r.content ≠ run)
    (hlater : ∀ r ∈ later, IsStatus py r → runId py r.content ≠ run)
    {first second : Mapped} (hfirst : mapBatch py instanceName f before b = .ok first)
    (hsecond : mapBatch py instanceName f mine first.working = .ok second)
    (hmine : ∀ s ∈ counterSteps py instanceName f fieldName mine first.working, s.runId = run) :
    (counterSteps py instanceName f fieldName (before ++ (mine ++ later)) b).filter
      (fun s => s.runId = run) =
      counterSteps py instanceName f fieldName mine first.working := by
  have hnone : ∀ steps : List CounterStep, (∀ s ∈ steps, s.runId ≠ run) →
      steps.filter (fun s => s.runId = run) = [] := by
    intro steps hsteps
    rw [List.filter_eq_nil_iff]
    exact fun s hs heq => hsteps s hs (of_decide_eq_true heq)
  have hall : (counterSteps py instanceName f fieldName mine first.working).filter
      (fun s => s.runId = run) =
      counterSteps py instanceName f fieldName mine first.working := by
    rw [List.filter_eq_self]
    exact fun s hs => decide_eq_true (hmine s hs)
  rw [counterSteps_append hfirst, counterSteps_append hsecond, List.filter_append,
    List.filter_append, hnone _ (steps_of_others hbefore), hnone _ (steps_of_others hlater), hall,
    List.nil_append, List.append_nil]

end Steps

end MetricsExport

end Btfind
