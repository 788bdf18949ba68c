import Btfind.Library.Transition
import Btfind.Store.RuntimeBatch

/-!
# The statistics task

`run_stats_persistence` collects events into a batch and flushes it under a
receipt, retrying until the batch is persisted and its receipt acknowledged.
Other tasks work on the database between any two of its calls.
-/

namespace Btfind

open Transaction

/-- `as i64` of an unsigned 64-bit number. -/
def asI64 (n : Nat) : Int := (BitVec.ofNat 64 n).toInt

structure RuntimeStats where
  nodesKnown : Int := 0
  queriesSent : Int := 0
  infoHashesFound : Int := 0
  metadataFetched : Int := 0

def RuntimeStats.apply (stats : RuntimeStats) : CrawlStatsEvent → RuntimeStats
  | .dhtSnapshot nodesKnown queriesSent infoHashesFound =>
    { stats with
      nodesKnown := asI64 nodesKnown
      queriesSent := asI64 queriesSent
      infoHashesFound := asI64 infoHashesFound }
  | .metadataFetched => { stats with metadataFetched := stats.metadataFetched + 1 }
  | _ => stats

def RuntimeStats.snapshot (stats : RuntimeStats) : RuntimeSnapshot :=
  ⟨stats.nodesKnown, stats.queriesSent, stats.infoHashesFound, stats.metadataFetched⟩

/-- The events and the snapshot of the next flush. A snapshot comes with the
event that it was taken at. -/
structure StatsBatch where
  events : List CrawlStatsEvent
  snapshot : Option RuntimeSnapshot
  covered : snapshot.isSome = true → events ≠ []

namespace StatsBatch

def empty : StatsBatch := ⟨[], none, by simp⟩

def push (event : CrawlStatsEvent) (stats : RuntimeStats) (batch : StatsBatch) : StatsBatch where
  events := batch.events ++ [event]
  snapshot :=
    match event with
    | .dhtSnapshot _ _ _ => some stats.snapshot
    | _ => batch.snapshot
  covered := by simp

theorem eq_empty {batch : StatsBatch} (h : batch.events = []) : batch = empty := by
  obtain ⟨events, snapshot, covered⟩ := batch
  subst h
  cases snapshot with
  | none => rfl
  | some s => exact absurd rfl (covered rfl)

end StatsBatch

/-- The metrics counters that a persisted batch moves. -/
structure BatchMetrics where
  torrentsInserted : Nat
  hashJobsCreated : Nat
  peerlessJobsSkipped : Nat

def BatchMetrics.record (outcome : RuntimeBatchPersistence) (m : BatchMetrics) : BatchMetrics where
  torrentsInserted := m.torrentsInserted + outcome.torrentsInserted
  hashJobsCreated := m.hashJobsCreated + outcome.hashJobsCreated
  peerlessJobsSkipped := m.peerlessJobsSkipped + outcome.peerlessJobsSkipped

/-- A flush in progress. `asked` records the batch it was started with. -/
structure Flush where
  receipt : Uuid
  applied : Bool
  acknowledging : Bool
  asked : StatsBatch

/-- The task and the database. `flushed` records the batches whose flush returned. -/
structure StatsTask where
  store : Store
  stats : RuntimeStats
  batch : StatsBatch
  flush : Option Flush
  metrics : BatchMetrics
  closed : Bool
  flushed : List StatsBatch

namespace StatsTask

/-- The start of `flush_stats_batch`. -/
def startFlush (receipt : Uuid) (t : StatsTask) : StatsTask :=
  { t with flush := some ⟨receipt, false, false, t.batch⟩ }

/-- A received event; a full batch is flushed at once. -/
def receive (batchSize : Nat) (event : CrawlStatsEvent) (receipt : Uuid) (t : StatsTask) :
    StatsTask :=
  let stats := t.stats.apply event
  let t := { t with stats := stats, batch := t.batch.push event stats }
  if batchSize ≤ t.batch.events.length then t.startFlush receipt else t

/-- The first half of `try_flush_stats_batch`: the batch is persisted and counted. -/
def persistAttempt (turn : Turn) (f : Flush) (t : StatsTask) : StatsTask :=
  if t.batch.events.isEmpty then
    { t with flush := none, flushed := t.flushed ++ [f.asked] }
  else
    match transact turn.fate
        (persistRuntimeBatchTx turn.now t.batch.events t.batch.snapshot f.receipt) t.store with
    -- The flush goes on with the same receipt.
    | (.error _, store) => { t with store := store }
    | (.ok outcome, store) =>
      { t with
        store := store
        -- A replay after a failed acknowledgement is not counted again.
        metrics := if f.applied then t.metrics else t.metrics.record outcome
        flush := some { f with applied := true, acknowledging := true } }

/-- The second half: the receipt is acknowledged and the batch cleared. -/
def acknowledgeAttempt (turn : Turn) (f : Flush) (t : StatsTask) : StatsTask :=
  match transact turn.fate (acknowledgeReceiptTx turn.now f.receipt) t.store with
  | (.error _, store) =>
    { t with store := store, flush := some { f with acknowledging := false } }
  | (.ok _, store) =>
    { t with
      store := store
      batch := .empty
      flush := none
      flushed := t.flushed ++ [f.asked] }

end StatsTask

inductive StatsEvent
  | received (event : CrawlStatsEvent) (receipt : Uuid)
  | ticked (receipt : Uuid)
  | closed (receipt : Uuid)
  | pruned (now : Int) (picked : Uuid → Bool) (fate : Fate StoreError)
  | elsewhere (effect : Catalogue → Catalogue) (receipts : KeyedTable Uuid ReceiptRow)
  | persisted (turn : Turn)
  | acknowledged (turn : Turn)

/-- A flush gets a receipt id that is in use nowhere, and other tasks leave the
row of that id alone. -/
inductive StatsTask.Step (batchSize : Nat) : StatsTask → StatsEvent → StatsTask → Prop
  | received {t : StatsTask} (event : CrawlStatsEvent) {receipt : Uuid}
      (hflush : t.flush = none) (hopen : t.closed = false)
      (fresh : t.store.persistenceReceipts.lookup receipt = none) :
      Step batchSize t (.received event receipt) (t.receive batchSize event receipt)
  | ticked {t : StatsTask} {receipt : Uuid}
      (hflush : t.flush = none) (hopen : t.closed = false) (hevents : t.batch.events ≠ [])
      (fresh : t.store.persistenceReceipts.lookup receipt = none) :
      Step batchSize t (.ticked receipt) (t.startFlush receipt)
  | closed {t : StatsTask} {receipt : Uuid}
      (hflush : t.flush = none) (hopen : t.closed = false)
      (fresh : t.store.persistenceReceipts.lookup receipt = none) :
      Step batchSize t (.closed receipt) ({ t with closed := true }.startFlush receipt)
  | pruned {t : StatsTask} (now : Int) (picked : Uuid → Bool) (fate : Fate StoreError)
      (hflush : t.flush = none) :
      Step batchSize t (.pruned now picked fate)
        { t with store := (transact fate (pruneReceiptsTx now picked) t.store).2 }
  | elsewhere {t : StatsTask} (effect : Catalogue → Catalogue)
      (receipts : KeyedTable Uuid ReceiptRow)
      (hother : ∀ f, t.flush = some f →
        receipts.lookup f.receipt = t.store.persistenceReceipts.lookup f.receipt) :
      Step batchSize t (.elsewhere effect receipts)
        { t with store := ⟨effect t.store.catalogue, receipts⟩ }
  | persisted {t : StatsTask} {f : Flush} (turn : Turn)
      (hflush : t.flush = some f) (hphase : f.acknowledging = false) :
      Step batchSize t (.persisted turn) (t.persistAttempt turn f)
  | acknowledged {t : StatsTask} {f : Flush} (turn : Turn)
      (hflush : t.flush = some f) (hphase : f.acknowledging = true) :
      Step batchSize t (.acknowledged turn) (t.acknowledgeAttempt turn f)

end Btfind
