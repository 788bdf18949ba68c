import Btfind.Library.EffectLog
import Btfind.Persistence.StatsTask

/-!
# Every batch is applied once

The task refines a sequence of catalogue operations in which each flushed batch
stands exactly once. A simulation relation says where the batch of a flush in
progress stands: not applied and without a receipt, or applied with its outcome
stored under the receipt.
-/

namespace Btfind

open Transaction

/-- The effects on the catalogue: batches of this task, with the time of their
transaction, and whatever other tasks do. -/
abbrev CatalogueEffect := Effect (Int × StatsBatch) (Catalogue → Catalogue)

namespace CatalogueEffect

/-- A batch is recorded in the catalogue and counted. -/
def applyBatch (op : Int × StatsBatch) (acc : Catalogue × BatchMetrics) :
    Catalogue × BatchMetrics :=
  let recorded := recordRuntimeBatch op.1 op.2.events op.2.snapshot acc.1
  (recorded.2, acc.2.record recorded.1)

def applyOther (effect : Catalogue → Catalogue) (acc : Catalogue × BatchMetrics) :
    Catalogue × BatchMetrics :=
  (effect acc.1, acc.2)

def applyAll (log : List CatalogueEffect) (start : Catalogue × BatchMetrics) :
    Catalogue × BatchMetrics :=
  Effect.applyAll applyBatch applyOther log start

/-- The batches of a log, in order. -/
def batches (log : List CatalogueEffect) : List StatsBatch := (Effect.owns log).map Prod.snd

@[simp] theorem applyAll_snoc_batch (log : List CatalogueEffect) (op : Int × StatsBatch)
    (start : Catalogue × BatchMetrics) :
    applyAll (log ++ [.own op]) start = applyBatch op (applyAll log start) :=
  Effect.applyAll_snoc_own log op start

@[simp] theorem applyAll_snoc_other (log : List CatalogueEffect)
    (effect : Catalogue → Catalogue) (start : Catalogue × BatchMetrics) :
    applyAll (log ++ [.other effect]) start = applyOther effect (applyAll log start) :=
  Effect.applyAll_snoc_other log effect start

@[simp] theorem batches_snoc_batch (log : List CatalogueEffect) (op : Int × StatsBatch) :
    batches (log ++ [.own op]) = batches log ++ [op.2] := by
  simp [batches]

@[simp] theorem batches_snoc_other (log : List CatalogueEffect)
    (effect : Catalogue → Catalogue) : batches (log ++ [.other effect]) = batches log := by
  simp [batches]

/-- An empty batch has no effect. -/
@[simp] theorem applyBatch_empty (now : Int) (acc : Catalogue × BatchMetrics) :
    applyBatch (now, .empty) acc = acc := rfl

end CatalogueEffect

/-- The effects of the other tasks in a run, in order. -/
def StatsEvent.others (events : List StatsEvent) : List (Catalogue → Catalogue) :=
  events.filterMap fun
    | .elsewhere effect _ => some effect
    | _ => none

/-- The crawler events that the task received in a run, in order. -/
def StatsEvent.receivedEvents (events : List StatsEvent) : List CrawlStatsEvent :=
  events.filterMap fun
    | .received event _ => some event
    | _ => none

namespace StatsTask

open CatalogueEffect
open Effect (others others_snoc_own others_snoc_other)

variable {t t' : StatsTask} {f : Flush} {effects : List CatalogueEffect}
  {start : Catalogue × BatchMetrics} {batchSize : Nat}

/-- The batch of a flush is not applied yet, and its receipt id is free. -/
structure Unapplied (start : Catalogue × BatchMetrics) (effects : List CatalogueEffect)
    (f : Flush) (t : StatsTask) : Prop where
  receipt : t.store.persistenceReceipts.lookup f.receipt = none
  counted : f.applied = false
  phase : f.acknowledging = false
  batches : batches effects = t.flushed
  state : applyAll effects start = (t.store.catalogue, t.metrics)

/-- The batch of a flush is applied, and its outcome is stored under the receipt. -/
structure Applied (start : Catalogue × BatchMetrics) (effects : List CatalogueEffect)
    (f : Flush) (t : StatsTask) (outcome : RuntimeBatchPersistence) : Prop where
  receipt : ∃ row, t.store.persistenceReceipts.lookup f.receipt = some row ∧
    row.result = some (.runtime outcome)
  nonempty : f.asked.events ≠ []
  phase : f.acknowledging = true → f.applied = true
  batches : batches effects = t.flushed ++ [f.asked]
  state : applyAll effects start =
    (t.store.catalogue, if f.applied then t.metrics else t.metrics.record outcome)

/-- The simulation relation between the task and the applied effects. -/
def Sim (start : Catalogue × BatchMetrics) (effects : List CatalogueEffect) (t : StatsTask) :
    Prop :=
  match t.flush with
  | none => batches effects = t.flushed ∧
      applyAll effects start = (t.store.catalogue, t.metrics)
  | some f => t.batch = f.asked ∧
      (Unapplied start effects f t ∨ ∃ outcome, Applied start effects f t outcome)

theorem sim_none (hf : t.flush = none) : Sim start effects t ↔
    batches effects = t.flushed ∧ applyAll effects start = (t.store.catalogue, t.metrics) := by
  rw [Sim]
  rw [hf]

theorem sim_some (hf : t.flush = some f) : Sim start effects t ↔ t.batch = f.asked ∧
    (Unapplied start effects f t ∨ ∃ outcome, Applied start effects f t outcome) := by
  rw [Sim]
  rw [hf]

/-- Starting a flush under a free receipt id. -/
theorem sim_startFlush {receipt : Uuid}
    (fresh : t.store.persistenceReceipts.lookup receipt = none)
    (hb : batches effects = t.flushed)
    (hs : applyAll effects start = (t.store.catalogue, t.metrics)) :
    Sim start effects (t.startFlush receipt) :=
  (sim_some rfl).mpr ⟨rfl, Or.inl ⟨fresh, rfl, rfl, hb, hs⟩⟩

/-- Persisting a batch that is not applied yet applies it now or leaves everything. -/
theorem sim_persist_unapplied (turn : Turn) (hf : t.flush = some f) (hbatch : t.batch = f.asked)
    (hne : t.batch.events ≠ []) (h : Unapplied start effects f t) :
    Sim start effects (t.persistAttempt turn f) ∨
      Sim start (effects ++ [.own (turn.now, t.batch)]) (t.persistAttempt turn f) := by
  let recorded := recordRuntimeBatch turn.now t.batch.events t.batch.snapshot t.store.catalogue
  have hbody : persistRuntimeBatchTx turn.now t.batch.events t.batch.snapshot f.receipt t.store =
      .ok (recorded.1, ⟨recorded.2, t.store.persistenceReceipts.insert f.receipt
        ⟨turn.now, none, some (.runtime recorded.1)⟩⟩) := by
    rw [persistRuntimeBatchTx]
    rw [h.receipt]
    simp [AList.adjust, recorded]
  have hempty : t.batch.events.isEmpty = false := by simpa using hne
  rw [persistAttempt]
  rw [hempty]
  simp only [Bool.false_eq_true, if_false]
  obtain ⟨e, hr⟩ | ⟨outcome, s', hb, hr⟩ := transact_cases turn.fate
    (persistRuntimeBatchTx turn.now t.batch.events t.batch.snapshot f.receipt) t.store
  · rw [hr]
    simp only
    exact Or.inl ((sim_some hf).mpr ⟨hbatch, Or.inl h⟩)
  · rw [hbody] at hb
    cases hb
    right
    have happly : applyAll (effects ++ [.own (turn.now, t.batch)]) start =
        (recorded.2, t.metrics.record recorded.1) := by
      rw [applyAll_snoc_batch, h.state]
      rfl
    have hlog : batches (effects ++ [.own (turn.now, t.batch)]) = t.flushed ++ [f.asked] := by
      rw [batches_snoc_batch, h.batches, hbatch]
    -- Committed with an answer, or committed behind an error.
    rcases hr with hr | ⟨e, hr⟩
    · rw [hr]
      simp only
      refine (sim_some (f := { f with applied := true, acknowledging := true }) rfl).mpr
        ⟨hbatch, Or.inr ⟨recorded.1, ?_⟩⟩
      refine ⟨⟨_, AList.lookup_insert _, rfl⟩, hbatch ▸ hne, fun _ => rfl, hlog, ?_⟩
      simp only [happly, h.counted, if_true, Bool.false_eq_true, if_false]
    · rw [hr]
      simp only
      refine (sim_some (f := f) ?_).mpr ⟨hbatch, Or.inr ⟨recorded.1, ?_⟩⟩
      · exact hf
      refine ⟨⟨_, AList.lookup_insert _, rfl⟩, hbatch ▸ hne, ?_, hlog, ?_⟩
      · intro hack
        rw [h.phase] at hack
        cases hack
      · simp only [happly, h.counted, Bool.false_eq_true, if_false]

/-- Persisting an applied batch replays the stored outcome and changes no table. -/
theorem sim_persist_applied (turn : Turn) (hf : t.flush = some f) (hbatch : t.batch = f.asked)
    {outcome : RuntimeBatchPersistence} (h : Applied start effects f t outcome) :
    Sim start effects (t.persistAttempt turn f) := by
  obtain ⟨row, hrow, hresult⟩ := h.receipt
  have hbody : persistRuntimeBatchTx turn.now t.batch.events t.batch.snapshot f.receipt t.store =
      .ok (outcome, t.store) := by
    rw [persistRuntimeBatchTx]
    rw [hrow]
    simp [hresult]
  have hempty : t.batch.events.isEmpty = false := by
    rw [hbatch]
    simpa using h.nonempty
  rw [persistAttempt]
  rw [hempty]
  simp only [Bool.false_eq_true, if_false]
  obtain ⟨e, hr⟩ | ⟨outcome', s', hb, hr⟩ := transact_cases turn.fate
    (persistRuntimeBatchTx turn.now t.batch.events t.batch.snapshot f.receipt) t.store
  · rw [hr]
    exact (sim_some hf).mpr ⟨hbatch, Or.inr ⟨outcome, h⟩⟩
  · rw [hbody] at hb
    cases hb
    rcases hr with hr | ⟨e, hr⟩
    · rw [hr]
      simp only
      refine (sim_some (f := { f with applied := true, acknowledging := true }) rfl).mpr
        ⟨hbatch, Or.inr ⟨outcome, ?_⟩⟩
      refine ⟨⟨row, hrow, hresult⟩, h.nonempty, fun _ => rfl, h.batches, ?_⟩
      simpa using h.state
    · rw [hr]
      exact (sim_some hf).mpr ⟨hbatch, Or.inr ⟨outcome, h⟩⟩

/-- Acknowledging keeps the stored outcome; a success ends the flush. -/
theorem sim_acknowledge (turn : Turn) (hphase : f.acknowledging = true)
    (hbatch : t.batch = f.asked) {outcome : RuntimeBatchPersistence}
    (h : Applied start effects f t outcome) :
    Sim start effects (t.acknowledgeAttempt turn f) := by
  obtain ⟨row, hrow, hresult⟩ := h.receipt
  have hcounted := h.phase hphase
  have hstate := h.state
  rw [hcounted] at hstate
  simp only [if_true] at hstate
  rw [acknowledgeAttempt]
  obtain ⟨e, hr⟩ | ⟨a, s', hb, hr⟩ :=
    transact_cases turn.fate (acknowledgeReceiptTx turn.now f.receipt) t.store
  · rw [hr]
    simp only
    refine (sim_some (f := { f with acknowledging := false }) rfl).mpr
      ⟨hbatch, Or.inr ⟨outcome, ?_⟩⟩
    exact ⟨⟨row, hrow, hresult⟩, h.nonempty, fun hp => hcounted, h.batches, by simpa [hcounted]⟩
  · cases hb
    rcases hr with hr | ⟨e, hr⟩
    · rw [hr]
      simp only
      exact (sim_none rfl).mpr ⟨h.batches, hstate⟩
    · rw [hr]
      simp only
      refine (sim_some (f := { f with acknowledging := false }) rfl).mpr
        ⟨hbatch, Or.inr ⟨outcome, ?_⟩⟩
      refine ⟨?_, h.nonempty, fun hp => hcounted, h.batches, by simpa [hcounted]⟩
      simp only [AList.lookup_adjust, if_true, hrow, Option.map_some]
      refine ⟨_, rfl, ?_⟩
      split <;> exact hresult

theorem receive_frame (batchSize : Nat) (event : CrawlStatsEvent) (receipt : Uuid) (t : StatsTask) :
    (t.receive batchSize event receipt).store = t.store ∧
      (t.receive batchSize event receipt).metrics = t.metrics ∧
      (t.receive batchSize event receipt).flushed = t.flushed ∧
      (t.receive batchSize event receipt).batch.events = t.batch.events ++ [event] := by
  rw [receive]
  simp only
  split <;> exact ⟨rfl, rfl, rfl, rfl⟩

/-- Every step of the task is matched by at most one effect. -/
theorem Step.sim {e : StatsEvent} (hs : Step batchSize t e t') (h : Sim start effects t) :
    ∃ effects', Sim start effects' t' ∧
      others effects' = others effects ++ StatsEvent.others [e] := by
  cases hs with
  | received event hflush hopen fresh =>
    obtain ⟨hb, hst⟩ := (sim_none hflush).mp h
    refine ⟨effects, ?_, (List.append_nil _).symm⟩
    rw [receive]
    simp only
    split
    · exact sim_startFlush fresh hb hst
    · refine (sim_none ?_).mpr ⟨hb, hst⟩
      exact hflush
  | ticked hflush hopen hevents fresh =>
    obtain ⟨hb, hst⟩ := (sim_none hflush).mp h
    exact ⟨effects, sim_startFlush fresh hb hst, (List.append_nil _).symm⟩
  | closed hflush hopen fresh =>
    obtain ⟨hb, hst⟩ := (sim_none hflush).mp h
    refine ⟨effects, ?_, (List.append_nil _).symm⟩
    exact sim_startFlush (t := { t with closed := true }) fresh hb hst
  | pruned now picked fate hflush =>
    obtain ⟨hb, hst⟩ := (sim_none hflush).mp h
    refine ⟨effects, (sim_none ?_).mpr ⟨hb, ?_⟩, (List.append_nil _).symm⟩
    · exact hflush
    · rw [hst]
      have hkept : (transact fate (pruneReceiptsTx now picked) t.store).2.catalogue =
          t.store.catalogue :=
        transact_invariant (I := fun s : Store => s.catalogue = t.store.catalogue) rfl
          fun _ _ hb => by cases hb; rfl
      rw [hkept]
  | elsewhere effect receipts hother =>
    refine ⟨effects ++ [.other effect], ?_, others_snoc_other effects effect⟩
    cases hflush : t.flush with
    | none =>
      obtain ⟨hb, hst⟩ := (sim_none hflush).mp h
      refine (sim_none rfl).mpr ⟨(batches_snoc_other _ _).trans hb, ?_⟩
      rw [applyAll_snoc_other, hst]
      rfl
    | some f =>
      obtain ⟨hbatch, hu | ⟨outcome, ha⟩⟩ := (sim_some hflush).mp h
      · refine (sim_some (f := f) rfl).mpr ⟨hbatch, Or.inl ?_⟩
        refine ⟨(hother f hflush).trans hu.receipt, hu.counted, hu.phase,
          (batches_snoc_other _ _).trans hu.batches, ?_⟩
        rw [applyAll_snoc_other, hu.state]
        rfl
      · refine (sim_some (f := f) rfl).mpr ⟨hbatch, Or.inr ⟨outcome, ?_⟩⟩
        obtain ⟨row, hrow, hresult⟩ := ha.receipt
        refine ⟨⟨row, (hother f hflush).trans hrow, hresult⟩, ha.nonempty, ha.phase,
          (batches_snoc_other _ _).trans ha.batches, ?_⟩
        rw [applyAll_snoc_other, ha.state]
        rfl
  | @persisted f turn hflush hphase =>
    obtain ⟨hbatch, hcase⟩ := (sim_some hflush).mp h
    by_cases hempty : t.batch.events = []
    · -- an empty batch returns at once, and applying it changes nothing
      obtain hu | ⟨outcome, ha⟩ := hcase
      · have hasked : f.asked = .empty := hbatch ▸ StatsBatch.eq_empty hempty
        refine ⟨effects ++ [.own (turn.now, .empty)], ?_, by
          rw [others_snoc_own]; exact (List.append_nil _).symm⟩
        rw [persistAttempt]
        rw [hempty]
        simp only [List.isEmpty_nil, if_true]
        refine (sim_none rfl).mpr ⟨?_, ?_⟩
        · simp only [batches_snoc_batch, hu.batches, hasked]
        · rw [applyAll_snoc_batch, hu.state]
          exact applyBatch_empty _ _
      · exact absurd (hbatch ▸ hempty) ha.nonempty
    · obtain hu | ⟨outcome, ha⟩ := hcase
      · obtain hsim | hsim := sim_persist_unapplied turn hflush hbatch hempty hu
        · exact ⟨effects, hsim, (List.append_nil _).symm⟩
        · exact ⟨_, hsim, by rw [others_snoc_own]; exact (List.append_nil _).symm⟩
      · exact ⟨effects, sim_persist_applied turn hflush hbatch ha, (List.append_nil _).symm⟩
  | @acknowledged f turn hflush hphase =>
    obtain ⟨hbatch, hu | ⟨outcome, ha⟩⟩ := (sim_some hflush).mp h
    · rw [hu.phase] at hphase
      cases hphase
    · exact ⟨effects, sim_acknowledge turn hphase hbatch ha, (List.append_nil _).symm⟩

/-- A flush keeps the batch until it returns, and then the batch is cleared. -/
theorem Step.flush_kept {e : StatsEvent} (hs : Step batchSize t e t') (hf : t.flush = some f) :
    (∃ f', t'.flush = some f' ∧ t'.batch = t.batch ∧ t'.flushed = t.flushed ∧
      f'.asked = f.asked) ∨
      (t'.flush = none ∧ t'.batch = .empty ∧ t'.flushed = t.flushed ++ [f.asked]) := by
  cases hs with
  | received event hflush => rw [hf] at hflush; cases hflush
  | ticked hflush => rw [hf] at hflush; cases hflush
  | closed hflush => rw [hf] at hflush; cases hflush
  | pruned now picked fate hflush => rw [hf] at hflush; cases hflush
  | elsewhere => exact Or.inl ⟨f, hf, rfl, rfl, rfl⟩
  | persisted turn hflush hphase =>
    rw [hf] at hflush
    cases hflush
    rw [persistAttempt]
    split
    · next hempty => exact Or.inr ⟨rfl, StatsBatch.eq_empty (by simpa using hempty), rfl⟩
    · split
      · exact Or.inl ⟨f, hf, rfl, rfl, rfl⟩
      · exact Or.inl ⟨_, rfl, rfl, rfl, rfl⟩
  | acknowledged turn hflush hphase =>
    rw [hf] at hflush
    cases hflush
    rw [acknowledgeAttempt]
    split
    · exact Or.inl ⟨_, rfl, rfl, rfl, rfl⟩
    · exact Or.inr ⟨rfl, rfl, rfl⟩

/-- The events of the returned flushes and of the current batch. -/
def collected (t : StatsTask) : List CrawlStatsEvent :=
  t.flushed.flatMap StatsBatch.events ++ t.batch.events

theorem Step.collected {e : StatsEvent} (hs : Step batchSize t e t') (h : Sim start effects t) :
    t'.collected = t.collected ++ StatsEvent.receivedEvents [e] := by
  unfold StatsTask.collected
  cases hf : t.flush with
  | some f =>
    have hnone : StatsEvent.receivedEvents [e] = [] := by
      cases hs with
      | received event hflush => rw [hf] at hflush; cases hflush
      | _ => rfl
    have hasked := ((sim_some hf).mp h).1
    obtain ⟨f', -, hb, hl, -⟩ | ⟨-, hb, hl⟩ := hs.flush_kept hf
    · rw [hb, hl, hnone, List.append_nil]
    · rw [hb, hl, hnone, List.append_nil, ← hasked]
      simp [StatsBatch.empty]
  | none =>
    cases hs with
    | received event hflush hopen fresh =>
      obtain ⟨-, -, hl, hb⟩ := receive_frame batchSize event _ t
      rw [hl, hb, List.append_assoc]
      rfl
    | ticked => exact (List.append_nil _).symm
    | closed => exact (List.append_nil _).symm
    | pruned => exact (List.append_nil _).symm
    | elsewhere => exact (List.append_nil _).symm
    | persisted turn hflush => rw [hf] at hflush; cases hflush
    | acknowledged turn hflush => rw [hf] at hflush; cases hflush

/-- A task that has flushed nothing yet. -/
structure Initial (t : StatsTask) : Prop where
  flush : t.flush = none
  batch : t.batch = .empty
  flushed : t.flushed = []

theorem run_sim {t₀ : StatsTask} {events : List StatsEvent} (h₀ : t₀.Initial)
    (h : Transition.Run (Step batchSize) t₀ events t) :
    ∃ effects, Sim (t₀.store.catalogue, t₀.metrics) effects t ∧
      others effects = StatsEvent.others events ∧
      t.collected = StatsEvent.receivedEvents events := by
  induction h with
  | refl =>
    refine ⟨[], (sim_none h₀.flush).mpr ⟨h₀.flushed.symm, rfl⟩, rfl, ?_⟩
    rw [StatsTask.collected]
    rw [h₀.flushed, h₀.batch]
    rfl
  | snoc _ hs ih =>
    obtain ⟨effects, hsim, hothers, hevents⟩ := ih
    obtain ⟨effects', hsim', hothers'⟩ := hs.sim hsim
    refine ⟨effects', hsim', ?_, ?_⟩
    · rw [hothers', hothers]
      simp [StatsEvent.others]
    · rw [hs.collected hsim, hevents]
      simp [StatsEvent.receivedEvents]

/-- In every run the catalogue and the counters are what the flushed batches give,
each applied once, in between the effects of the other tasks; the batch of a
flush in progress is unchanged and applied at most once; a flush that returns
clears it; and no received event is lost or flushed twice. -/
theorem flushed_once {t₀ : StatsTask} {events : List StatsEvent} (h₀ : t₀.Initial)
    (h : Transition.Run (Step batchSize) t₀ events t) :
    (∃ effects, others effects = StatsEvent.others events ∧
      (t.flush = none → batches effects = t.flushed ∧
        applyAll effects (t₀.store.catalogue, t₀.metrics) = (t.store.catalogue, t.metrics)) ∧
      (∀ f, t.flush = some f → t.batch = f.asked ∧
        (applyAll effects (t₀.store.catalogue, t₀.metrics)).1 = t.store.catalogue ∧
        (batches effects = t.flushed ∨ batches effects = t.flushed ++ [f.asked]))) ∧
      (∀ f e t', t.flush = some f → Step batchSize t e t' →
        (t'.flush.isSome = true ∧ t'.batch = t.batch ∧ t'.flushed = t.flushed) ∨
          (t'.flush = none ∧ t'.batch = .empty ∧ t'.flushed = t.flushed ++ [f.asked])) ∧
      t.flushed.flatMap StatsBatch.events ++ t.batch.events =
        StatsEvent.receivedEvents events := by
  obtain ⟨effects, hsim, hothers, hevents⟩ := run_sim h₀ h
  refine ⟨⟨effects, hothers, fun hf => (sim_none hf).mp hsim, ?_⟩, ?_, hevents⟩
  · intro f hf
    obtain ⟨hasked, hu | ⟨outcome, ha⟩⟩ := (sim_some hf).mp hsim
    · exact ⟨hasked, by rw [hu.state], Or.inl hu.batches⟩
    · exact ⟨hasked, by rw [ha.state], Or.inr ha.batches⟩
  · intro f e t' hf hs
    refine (hs.flush_kept hf).imp ?_ id
    rintro ⟨f', hf', hb, hl, -⟩
    exact ⟨by rw [hf']; rfl, hb, hl⟩

/-- A batch whose first commit is reported as failed is still counted once. -/
theorem flushed_once_retried :
    let lost : StoreError := .database true "connection lost"
    let event : CrawlStatsEvent := .hashObserved 7 .inboundGetPeers false false 0
    let t₀ : StatsTask := ⟨.migrated, {}, .empty, none, ⟨0, 0, 0⟩, false, []⟩
    let t₁ := t₀.receive 1 event 1
    let t₂ := t₁.persistAttempt ⟨5, 0, .uncertain lost⟩ ⟨1, false, false, t₁.batch⟩
    let t₃ := t₂.persistAttempt ⟨6, 0, .commits⟩ ⟨1, false, false, t₁.batch⟩
    let t₄ := t₃.acknowledgeAttempt ⟨7, 0, .commits⟩ ⟨1, true, true, t₁.batch⟩
    t₄.flush = none ∧ t₄.metrics.torrentsInserted = 1 ∧
      ∃ effects, batches effects = [t₁.batch] ∧
        applyAll effects (t₀.store.catalogue, t₀.metrics) = (t₄.store.catalogue, t₄.metrics) := by
  intro lost event t₀ t₁ t₂ t₃ t₄
  have hreceived : Step 1 t₀ (.received event 1) t₁ := .received event rfl rfl rfl
  have hrun : Transition.Run (Step 1) t₀ _ t₄ :=
    ((((Transition.Run.refl t₀).snoc hreceived).snoc
      (.persisted ⟨5, 0, .uncertain lost⟩ (f := ⟨1, false, false, t₁.batch⟩) rfl rfl)).snoc
      (.persisted ⟨6, 0, .commits⟩ (f := ⟨1, false, false, t₁.batch⟩) rfl rfl)).snoc
      (.acknowledged ⟨7, 0, .commits⟩ (f := ⟨1, true, true, t₁.batch⟩) rfl rfl)
  obtain ⟨⟨effects, -, hdone, -⟩, -⟩ := flushed_once ⟨rfl, rfl, rfl⟩ hrun
  exact ⟨rfl, rfl, effects, hdone rfl⟩

end StatsTask

end Btfind
