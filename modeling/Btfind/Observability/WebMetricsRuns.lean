import Btfind.Library.Batches
import Btfind.Library.GroupedTable
import Btfind.Observability.WebMetrics
import Mathlib.Algebra.Order.BigOperators.Group.List

/-!
# What the reports of the web interface account for

The requests and database errors of a run fall into consecutive batches, one for each report, and a
report holds the exact counts of its batch. Nothing is reported twice, and what is not reported yet
is in the open window.
-/

namespace Btfind

open GroupedTable Transition

/-- What a handler adds to the window. -/
inductive Observation
  | request (sample : RequestSample)
  | databaseError
  deriving DecidableEq

/-- What an event adds to the window. -/
def WebEvent.observation : WebEvent → Option Observation
  | .record _ route status elapsed => some (.request (.of route status elapsed))
  | .databaseError => some .databaseError
  | _ => none

def requestsOf (xs : List Observation) : List RequestSample :=
  xs.filterMap fun
    | .request sample => some sample
    | .databaseError => none

/-- The counts of the requests of one route. -/
def routeWindowOf (samples : List RequestSample) : RouteWindow where
  status c := samples.countP fun sample => sample.status = c
  durationCount := samples.length
  durationSumMs := (samples.map (·.milliseconds)).sum
  latencyBuckets i := samples.countP fun sample => sample.bucket = i

/-- No count of these observations reaches the end of a `u64`. -/
structure Countable (xs : List Observation) : Prop where
  length : xs.length ≤ u64Max
  milliseconds : ((requestsOf xs).map (·.milliseconds)).sum ≤ u64Max

/-! ## One window -/

section Window

variable {xs ys : List Observation} {sample : RequestSample} {samples : List RequestSample}
  {window : WebWindow}

theorem Countable.of_sublist (h : Countable ys) (hsub : xs.Sublist ys) : Countable xs where
  length := hsub.length_le.trans h.length
  milliseconds :=
    (List.Sublist.sum_le_sum ((hsub.filterMap _).map _) fun _ _ => Nat.zero_le _).trans
      h.milliseconds

theorem length_requestsOf_le (xs : List Observation) : (requestsOf xs).length ≤ xs.length :=
  List.length_filterMap_le _ _

theorem record_routeWindowOf (hlength : samples.length < u64Max)
    (hms : (samples.map (·.milliseconds)).sum + sample.milliseconds ≤ u64Max) :
    (routeWindowOf samples).record sample = routeWindowOf (samples ++ [sample]) := by
  have hone : ∀ n, n ≤ samples.length → saturatingAddU64 n 1 = n + 1 := by
    intro n hn
    unfold saturatingAddU64
    omega
  have hcount : ∀ p : RequestSample → Bool, saturatingAddU64 (samples.countP p) 1 =
      samples.countP p + 1 := fun p => hone _ List.countP_le_length
  have hsum : saturatingAddU64 (samples.map (·.milliseconds)).sum sample.milliseconds =
      (samples.map (·.milliseconds)).sum + sample.milliseconds := Nat.min_eq_left hms
  unfold RouteWindow.record routeWindowOf
  simp only [hcount, hone _ (le_refl _), hsum, RouteWindow.mk.injEq]
  refine ⟨?_, ?_, ?_, ?_⟩
  · funext c
    by_cases hc : c = sample.status
    · subst hc
      simp
    · simp [Function.update_of_ne hc, Ne.symm hc]
  · simp
  · simp
  · funext i
    by_cases hi : i = sample.bucket
    · subst hi
      simp
    · simp [Function.update_of_ne hi, Ne.symm hi]

/-- The window holds the counts of the observations. -/
structure WindowHolds (window : WebWindow) (xs : List Observation) : Prop where
  routes : Grouped RequestSample.route routeWindowOf (requestsOf xs) window.routes
  databaseErrors : window.databaseErrors = xs.count .databaseError

theorem windowHolds_new (now : Int) : WindowHolds { startedUnix := now } [] := ⟨grouped_nil, rfl⟩

theorem group_sublist (r : Route) :
    (group RequestSample.route r (requestsOf xs)).Sublist (requestsOf xs) := List.filter_sublist

theorem WindowHolds.recordRequest (h : WindowHolds window xs)
    (hcount : Countable (xs ++ [.request sample])) :
    WindowHolds (window.recordRequest sample) (xs ++ [.request sample]) := by
  have hrequests : requestsOf (xs ++ [.request sample]) = requestsOf xs ++ [sample] := by
    simp [requestsOf]
  have hlength : xs.length < u64Max := by
    have := hcount.length
    rw [List.length_append, List.length_singleton] at this
    omega
  have hms := hcount.milliseconds
  rw [hrequests, List.map_append, List.sum_append] at hms
  have hgroup : ∀ samples : List RequestSample, samples.Sublist (requestsOf xs) →
      (routeWindowOf samples).record sample = routeWindowOf (samples ++ [sample]) := by
    intro samples hsub
    have hle := hsub.length_le
    have hall := length_requestsOf_le xs
    have hsum := (hsub.map (·.milliseconds)).sum_le_sum fun _ _ => Nat.zero_le _
    refine record_routeWindowOf (by omega) ?_
    simp only [List.map_cons, List.map_nil, List.sum_cons, List.sum_nil] at hms
    omega
  refine ⟨?_, ?_⟩
  · rw [hrequests]
    exact h.routes.concat (hgroup [] (List.nil_sublist _)) fun _ => hgroup _ (group_sublist _)
  · rw [List.count_append, ← h.databaseErrors]
    rfl

theorem WindowHolds.recordDatabaseError (h : WindowHolds window xs)
    (hcount : Countable (xs ++ [.databaseError])) :
    WindowHolds window.recordDatabaseError (xs ++ [.databaseError]) := by
  have hrequests : requestsOf (xs ++ [.databaseError]) = requestsOf xs := by simp [requestsOf]
  have hle : xs.count .databaseError ≤ xs.length := List.count_le_length
  have hlength := hcount.length
  rw [List.length_append, List.length_singleton] at hlength
  refine ⟨by rw [hrequests]; exact h.routes, ?_⟩
  rw [List.count_append, WebWindow.recordDatabaseError, h.databaseErrors, saturatingAddU64]
  simp only [List.count_singleton, beq_self_eq_true, if_true]
  omega

end Window

/-! ## One report -/

section Report

variable {xs : List Observation} {snapshot : WebWindowSnapshot} {context : EmitContext}
  {table : KeyedTable Route RouteWindow} {samples : List RequestSample}

theorem foldl_saturatingAddU64 {α : Type} (g : α → Nat) (xs : List α) (acc : Nat)
    (h : acc + (xs.map g).sum ≤ u64Max) :
    xs.foldl (fun acc x => saturatingAddU64 acc (g x)) acc = acc + (xs.map g).sum := by
  induction xs generalizing acc with
  | nil => rfl
  | cons x xs ih =>
    rw [List.map_cons, List.sum_cons] at h
    have hstep : saturatingAddU64 acc (g x) = acc + g x := Nat.min_eq_left (by omega)
    rw [List.foldl_cons, hstep, ih _ (by omega), List.map_cons, List.sum_cons, Nat.add_assoc]

/-- A field of the routes, added up, is the total over the requests. -/
theorem sumRoutes_eq (h : Grouped RequestSample.route routeWindowOf samples table)
    {f : RouteWindow → Nat} {g : RequestSample → Nat}
    (hf : ∀ ys, f (routeWindowOf ys) = (ys.map g).sum) (hle : (samples.map g).sum ≤ u64Max) :
    sumRoutes f table = (samples.map g).sum := by
  have hsum := h.sum_eq hf
  unfold sumRoutes
  rw [foldl_saturatingAddU64, hsum, Nat.zero_add]
  rw [hsum, Nat.zero_add]
  exact hle

theorem countP_eq_sum {α : Type} (p : α → Bool) (xs : List α) :
    xs.countP p = (xs.map fun x => if p x then 1 else 0).sum := by
  induction xs with
  | nil => rfl
  | cons x xs ih =>
    rw [List.countP_cons, ih, List.map_cons, List.sum_cons, Nat.add_comm]

/-- A report that holds the exact counts of its batch. -/
structure Accounts (report : WebReport) (xs : List Observation) : Prop where
  requestsTotal : report.status.requestsTotal = (requestsOf xs).length
  durationCount : report.status.durationCount = (requestsOf xs).length
  durationSumMs : report.status.durationSumMs = ((requestsOf xs).map (·.milliseconds)).sum
  databaseErrors : report.status.databaseErrors = xs.count .databaseError
  requests : ∀ c, report.status.requests c =
    (requestsOf xs).countP fun sample => sample.status = c
  routes : (report.routes.map (·.route)).Nodup ∧ ∀ record, record ∈ report.routes ↔
    ∃ samples, samples = group RequestSample.route record.route (requestsOf xs) ∧ samples ≠ [] ∧
      record = ⟨record.route, (routeWindowOf samples).status, samples.length,
        (samples.map (·.milliseconds)).sum⟩
  buckets : (report.buckets.map (·.bucket)).Nodup ∧ ∀ record, record ∈ report.buckets ↔
    record.count ≠ 0 ∧ record.count =
      (requestsOf xs).countP fun sample => sample.bucket = record.bucket

theorem sum_classes (samples : List RequestSample) :
    (samples.countP fun sample => sample.status = 0) +
      (samples.countP fun sample => sample.status = 1) +
      (samples.countP fun sample => sample.status = 2) +
      (samples.countP fun sample => sample.status = 3) = samples.length := by
  induction samples with
  | nil => rfl
  | cons sample samples ih =>
    have hone : ∀ c : Fin 4, (if c = 0 then 1 else 0) + (if c = 1 then 1 else 0) +
        (if c = 2 then 1 else 0) + (if c = 3 then 1 else 0) = 1 := by decide
    have hsample := hone sample.status
    simp only [List.countP_cons, decide_eq_true_eq, List.length_cons]
    omega

/-- The route records are those of the routes with requests, once each. -/
theorem routes_reportOf (context : EmitContext)
    (h : Grouped RequestSample.route routeWindowOf samples snapshot.routes) :
    ((reportOf context snapshot).routes.map (·.route)).Nodup ∧
      ∀ record, record ∈ (reportOf context snapshot).routes ↔
        ∃ ys, ys = group RequestSample.route record.route samples ∧ ys ≠ [] ∧
          record = ⟨record.route, (routeWindowOf ys).status, ys.length,
            (ys.map (·.milliseconds)).sum⟩ := by
  constructor
  · have hrows : (routeRows snapshot.routes).Perm snapshot.routes.entries :=
      List.mergeSort_perm _ _
    have hkeys : ((routeRows snapshot.routes).map (·.1)).Nodup :=
      (hrows.map _).nodup_iff.mpr snapshot.routes.nodupKeys
    simp only [reportOf, List.map_map]
    exact hkeys.sublist (List.filter_sublist.map _)
  · intro record
    simp only [reportOf, List.mem_map, List.mem_filter, routeRows, List.mem_mergeSort, bne_iff_ne]
    constructor
    · rintro ⟨⟨route, window⟩, ⟨hmem, -⟩, rfl⟩
      obtain ⟨hne, rfl⟩ := h.mem_entries.mp hmem
      exact ⟨_, rfl, hne, rfl⟩
    · rintro ⟨ys, rfl, hne, hrecord⟩
      refine ⟨⟨record.route, _⟩, ⟨h.mem_entries.mpr ⟨hne, rfl⟩, ?_⟩, hrecord.symm⟩
      exact mt List.length_eq_zero_iff.mp hne

theorem accounts_reportOf (context : EmitContext)
    (h : Grouped RequestSample.route routeWindowOf (requestsOf xs) snapshot.routes)
    (herrors : snapshot.databaseErrors = xs.count .databaseError) (hcount : Countable xs) :
    Accounts (reportOf context snapshot) xs := by
  have hlength := (length_requestsOf_le xs).trans hcount.length
  have hstatus : ∀ c, sumRoutes (fun window => window.status c) snapshot.routes =
      (requestsOf xs).countP fun sample => sample.status = c := by
    intro c
    have hf : ∀ ys, (routeWindowOf ys).status c = _ := fun ys => countP_eq_sum _ ys
    rw [countP_eq_sum, sumRoutes_eq h hf]
    rw [← countP_eq_sum]
    exact List.countP_le_length.trans hlength
  have hbucket : ∀ i, sumRoutes (fun window => window.latencyBuckets i) snapshot.routes =
      (requestsOf xs).countP fun sample => sample.bucket = i := by
    intro i
    have hf : ∀ ys, (routeWindowOf ys).latencyBuckets i = _ := fun ys => countP_eq_sum _ ys
    rw [countP_eq_sum, sumRoutes_eq h hf]
    rw [← countP_eq_sum]
    exact List.countP_le_length.trans hlength
  have hduration : sumRoutes (·.durationCount) snapshot.routes = (requestsOf xs).length := by
    have hf : ∀ ys : List RequestSample, (routeWindowOf ys).durationCount =
        (ys.map fun _ => 1).sum := by
      intro ys
      simp [routeWindowOf]
    rw [sumRoutes_eq h hf]
    · simp
    · simpa using hlength
  refine ⟨?_, hduration, sumRoutes_eq h (fun _ => rfl) hcount.milliseconds, herrors, hstatus,
    routes_reportOf context h, ?_, fun record => ?_⟩
  · simp only [reportOf, hstatus, sum_classes]
    apply Nat.mod_eq_of_lt
    unfold u64Max at hlength
    omega
  · have hindices : (((List.finRange 11).map fun i => (⟨i, sumRoutes (fun window =>
        window.latencyBuckets i) snapshot.routes⟩ : WebLatencyBucket)).map (·.bucket)).Nodup := by
      rw [List.map_map]
      exact (List.nodup_finRange 11).map fun _ _ hij => hij
    exact hindices.sublist (List.filter_sublist.map _)
  · simp only [reportOf, hbucket, List.mem_filter, List.mem_map, List.mem_finRange, true_and,
      bne_iff_ne]
    constructor
    · rintro ⟨⟨i, rfl⟩, hne⟩
      exact ⟨hne, rfl⟩
    · rintro ⟨hne, hrecord⟩
      exact ⟨⟨record.bucket, by rw [← hrecord]⟩, hne⟩

end Report

/-! ## Runs -/

/-- The observations of a run, in order. -/
def observationsOf (es : List WebEvent) : List Observation := es.filterMap WebEvent.observation

/-- A snapshot with the counts of its batch. -/
def SnapshotHolds (snapshot : WebWindowSnapshot) (batch : List Observation) : Prop :=
  Grouped RequestSample.route routeWindowOf (requestsOf batch) snapshot.routes ∧
    snapshot.databaseErrors = batch.count .databaseError

/-- The observations in batches: the reported ones, the one of a snapshot that is not written yet,
and the open one. -/
structure Batched (s : WebServer) (reported pending : List (List Observation))
    (current : List Observation) : Prop where
  reports : List.Forall₂ Accounts s.reports reported
  emitting : List.Forall₂ SnapshotHolds s.emitting.toList pending
  window : WindowHolds s.window current

/-- The windows follow each other without a gap: every start but the first is the end before it. -/
def Tiled (start : Int) (s : WebServer) : Prop :=
  s.reports.map (·.header.windowStartUnix) ++ s.emitting.toList.map (·.startedUnix) ++
      [s.window.startedUnix] =
    start :: (s.reports.map (·.header.windowEndUnix) ++ s.emitting.toList.map (·.endedUnix))

section Runs

variable {s t : WebServer} {e : WebEvent} {es : List WebEvent} {start process : Int}
  {reported pending : List (List Observation)} {current : List Observation}

/-- What an event does to the window: an observation joins it, or a snapshot takes it. -/
theorem WebServer.next_cases (h : s.next e = some t) :
    (t.reports = s.reports ∧ t.emitting = s.emitting ∧
      t.window.startedUnix = s.window.startedUnix ∧
      ((e.observation = none ∧ t.window = s.window) ∨
        (∃ sample, e.observation = some (.request sample) ∧
          t.window = s.window.recordRequest sample) ∨
        e.observation = some .databaseError ∧ t.window = s.window.recordDatabaseError)) ∨
    (∃ now, e.observation = none ∧ s.emitting = none ∧ t.reports = s.reports ∧
      t.window = { startedUnix := now } ∧ t.emitting =
        some ⟨s.window.startedUnix, now, s.window.routes, s.window.databaseErrors⟩) ∨
    ∃ snapshot context, e.observation = none ∧ s.emitting = some snapshot ∧ t.emitting = none ∧
      t.window = s.window ∧ t.reports = s.reports ++ [reportOf context snapshot] := by
  cases e with
  | begin request =>
    simp only [WebServer.next] at h
    split_ifs at h
    cases h
    exact .inl ⟨rfl, rfl, rfl, .inl ⟨rfl, rfl⟩⟩
  | record request route status elapsed =>
    simp only [WebServer.next] at h
    split_ifs at h
    cases h
    exact .inl ⟨rfl, rfl, rfl, .inr (.inl ⟨_, rfl, rfl⟩)⟩
  | dropGuard request =>
    simp only [WebServer.next] at h
    split_ifs at h
    cases h
    exact .inl ⟨rfl, rfl, rfl, .inl ⟨rfl, rfl⟩⟩
  | databaseError =>
    cases h
    exact .inl ⟨rfl, rfl, rfl, .inr (.inr ⟨rfl, rfl⟩)⟩
  | snapshot now =>
    simp only [WebServer.next] at h
    split_ifs at h with hidle
    cases h
    exact .inr (.inl ⟨now, rfl, by simpa using hidle, rfl, rfl, rfl⟩)
  | write finalSnapshot now =>
    obtain ⟨snapshot, hsnapshot, rfl⟩ := Option.map_eq_some_iff.mp h
    exact .inr (.inr ⟨snapshot, _, rfl, hsnapshot, rfl, rfl, rfl⟩)

theorem observationsOf_concat : observationsOf (es ++ [e]) =
    observationsOf es ++ e.observation.toList := by
  rw [observationsOf, List.filterMap_append, observationsOf]
  cases h : e.observation <;> simp [h]

/-- A step adds its observation to the open batch or moves a batch on. -/
theorem Batched.step (h : Batched s reported pending current) (hstep : s.next e = some t)
    (hcount : Countable (reported.flatten ++ pending.flatten ++ current ++ e.observation.toList)) :
    ∃ reported' pending' current', Batched t reported' pending' current' ∧
      reported'.flatten ++ pending'.flatten ++ current' =
        reported.flatten ++ pending.flatten ++ current ++ e.observation.toList := by
  have hopen : Countable (current ++ e.observation.toList) := by
    rw [List.append_assoc] at hcount
    exact hcount.of_sublist (List.sublist_append_right _ _)
  obtain ⟨hreports, hemitting, -, hwindow⟩ | ⟨now, hnone, hidle, hreports, hwindow, hemitting⟩ |
    ⟨snapshot, context, hnone, hbusy, hemitting, hwindow, hreports⟩ := WebServer.next_cases hstep
  · refine ⟨reported, pending, current ++ e.observation.toList,
      ⟨hreports ▸ h.reports, hemitting ▸ h.emitting, ?_⟩, by simp⟩
    obtain ⟨hnone, hwindow⟩ | ⟨sample, hsome, hwindow⟩ | ⟨hsome, hwindow⟩ := hwindow
    · rw [hnone, hwindow, Option.toList_none, List.append_nil]
      exact h.window
    · rw [hsome, Option.toList_some] at hopen ⊢
      rw [hwindow]
      exact h.window.recordRequest hopen
    · rw [hsome, Option.toList_some] at hopen ⊢
      rw [hwindow]
      exact h.window.recordDatabaseError hopen
  · -- The open batch becomes the one of the snapshot.
    have hpending : pending = [] := by
      have hlength := h.emitting.length_eq
      rw [hidle] at hlength
      exact List.length_eq_zero_iff.mp hlength.symm
    refine ⟨reported, [current], [], ⟨hreports ▸ h.reports, ?_, ?_⟩, by simp [hnone, hpending]⟩
    · rw [hemitting]
      exact .cons ⟨h.window.routes, h.window.databaseErrors⟩ .nil
    · rw [hwindow]
      exact windowHolds_new now
  · -- The batch of the snapshot is the one of the report.
    have hholds := h.emitting
    rw [hbusy, Option.toList_some] at hholds
    obtain ⟨batch, rest, hbatch, hrest, rfl⟩ := List.forall₂_cons_left_iff.mp hholds
    obtain rfl := List.forall₂_nil_left_iff.mp hrest
    have hbatched : Countable batch := by
      refine hcount.of_sublist ?_
      simp only [List.flatten_cons, List.flatten_nil, List.append_nil, List.append_assoc]
      exact (List.sublist_append_left batch _).trans (List.sublist_append_right _ _)
    refine ⟨reported ++ [batch], [], current, ⟨?_, ?_, hwindow ▸ h.window⟩, by simp [hnone]⟩
    · rw [hreports]
      exact List.rel_append h.reports (.cons (accounts_reportOf context hbatch.1 hbatch.2 hbatched)
        .nil)
    · rw [hemitting]
      exact .nil

theorem Tiled.step (h : Tiled start s) (hstep : s.next e = some t) : Tiled start t := by
  obtain ⟨hreports, hemitting, hstarted, -⟩ | ⟨now, -, hidle, hreports, hwindow, hemitting⟩ |
    ⟨snapshot, context, -, hbusy, hemitting, hwindow, hreports⟩ := WebServer.next_cases hstep
  · unfold Tiled
    rw [hreports, hemitting, hstarted]
    exact h
  · unfold Tiled at h ⊢
    rw [hidle] at h
    simp only [Option.toList_none, List.map_nil, List.append_nil] at h
    rw [hreports, hwindow, hemitting]
    simp only [Option.toList_some, List.map_cons, List.map_nil, h]
    simp
  · unfold Tiled at h ⊢
    rw [hbusy] at h
    rw [hreports, hwindow, hemitting]
    simpa [reportOf] using h

/-- The gauge counts the requests in flight, each of which some event began. -/
structure Gauged (s : WebServer) (begun : Nat) : Prop where
  active : s.activeRequests = s.inFlight.count
  begun : s.inFlight.count ≤ begun

theorem Gauged.step {begun : Nat} (h : Gauged s begun) (hbound : begun < u64Max)
    (hstep : s.next e = some t) : Gauged t (begun + 1) := by
  have hactive := h.active
  have hbegun := h.begun
  have hstay : s.inFlight.count ≤ begun + 1 := by omega
  cases e with
  | begin request =>
    simp only [WebServer.next] at hstep
    split_ifs at hstep with hnew
    cases hstep
    have hcount : (s.inFlight.insert request false).count = s.inFlight.count + 1 := by
      apply AList.count_insert_of_none
      simpa using hnew
    refine ⟨?_, by simp only [hcount]; omega⟩
    simp only [hcount, hactive]
    apply Nat.mod_eq_of_lt
    unfold u64Max at hbound
    omega
  | record request route status elapsed =>
    simp only [WebServer.next] at hstep
    split_ifs at hstep with hrow
    cases hstep
    have hcount : (s.inFlight.insert request true).count = s.inFlight.count :=
      AList.count_insert_of_some hrow
    exact ⟨by simp only [hcount, hactive], by simp only [hcount]; omega⟩
  | dropGuard request =>
    simp only [WebServer.next] at hstep
    split_ifs at hstep with hrow
    cases hstep
    obtain ⟨recorded, hrow⟩ := Option.isSome_iff_exists.mp hrow
    have hcount := AList.count_erase_of_some hrow
    exact ⟨by simp only [hactive]; omega, by simp only; omega⟩
  | databaseError =>
    cases hstep
    exact ⟨hactive, hstay⟩
  | snapshot now =>
    simp only [WebServer.next] at hstep
    split_ifs at hstep
    cases hstep
    exact ⟨hactive, hstay⟩
  | write finalSnapshot now =>
    obtain ⟨snapshot, -, rfl⟩ := Option.map_eq_some_iff.mp hstep
    exact ⟨hactive, hstay⟩

theorem run_gauged (h : Run WebServer.Step (.started process start) es s)
    (hlength : es.length ≤ u64Max) : Gauged s es.length := by
  generalize hinit : WebServer.started process start = s₀ at h
  induction h with
  | refl =>
    subst hinit
    exact ⟨rfl, le_refl _⟩
  | snoc _ hstep ih =>
    rw [List.length_append, List.length_singleton] at hlength ⊢
    exact (ih (by omega)).step (by omega) hstep

theorem run_batched (h : Run WebServer.Step (.started process start) es s)
    (hcount : Countable (observationsOf es)) :
    ∃ reported pending current, Batched s reported pending current ∧
      reported.flatten ++ pending.flatten ++ current = observationsOf es := by
  generalize hinit : WebServer.started process start = s₀ at h
  induction h with
  | refl =>
    subst hinit
    exact ⟨[], [], [], ⟨.nil, .nil, windowHolds_new start⟩, rfl⟩
  | snoc _ hstep ih =>
    rw [observationsOf_concat] at hcount ⊢
    obtain ⟨reported, pending, current, hbatched, hitems⟩ :=
      ih (hcount.of_sublist (List.sublist_append_left _ _))
    rw [← hitems] at hcount ⊢
    exact hbatched.step hstep hcount

theorem run_tiled (h : Run WebServer.Step (.started process start) es s) : Tiled start s :=
  h.invariant (fun _ _ _ => Tiled.step) rfl

/-- In every run the reports account for the requests and the database errors in order, each in one
report, with what is not reported yet in the pending snapshot and in the open window; their windows
leave no gap, and the gauge is the number of requests in flight. -/
theorem web_reports_account (h : Run WebServer.Step (.started process start) es s)
    (hevents : es.length ≤ u64Max)
    (hms : ((requestsOf (observationsOf es)).map (·.milliseconds)).sum ≤ u64Max) :
    (∃ reported pending current, reported.flatten ++ pending.flatten ++ current =
      observationsOf es ∧ List.Forall₂ Accounts s.reports reported ∧
        List.Forall₂ SnapshotHolds s.emitting.toList pending ∧ WindowHolds s.window current) ∧
    Tiled start s ∧ s.activeRequests = s.inFlight.count := by
  have hcount : Countable (observationsOf es) :=
    ⟨(List.length_filterMap_le _ _).trans hevents, hms⟩
  obtain ⟨reported, pending, current, hbatched, hitems⟩ := run_batched h hcount
  exact ⟨⟨reported, pending, current, hitems, hbatched.reports, hbatched.emitting,
    hbatched.window⟩, run_tiled h, (run_gauged h hevents).active⟩

end Runs

/-- A request that is answered between two reports. -/
def answeredRequest : List WebEvent :=
  [.begin 1, .record 1 "/api/search" 200 12, .snapshot 60, .dropGuard 1, .databaseError,
    .write false 61]

theorem web_reports_account_answered :
    ∃ s, Run WebServer.Step (.started 0 0) answeredRequest s ∧
      s.activeRequests = s.inFlight.count := by
  obtain ⟨s, hplay⟩ : ∃ s, play WebServer.next answeredRequest (.started 0 0) = some s :=
    ⟨_, rfl⟩
  have hrun := play_run hplay
  exact ⟨s, hrun, (web_reports_account hrun (by decide) (by decide)).2.2⟩

end Btfind
