import Btfind.Library.Transition
import Btfind.Store.Totals

/-!
# Runs of catalogue operations

The five operations that move the totals, in any order, with any arguments and
under any fate of their transactions.
-/

namespace Btfind

open Transaction

inductive CatalogOp
  | commitMetadata (turns : Nat → Turn) (hash : InfoHash) (m : TorrentMetadata)
  | persistDiscovery (lookup : Option StoreError) (turn : Turn) (cleanup : Fate StoreError)
      (hash : InfoHash) (source : String) (peers : List PeerContact) (limit : Nat)
      (receipt : Uuid)
  | persistRuntimeBatch (turn : Turn) (events : List CrawlStatsEvent)
      (snapshot : Option RuntimeSnapshot) (receipt : Uuid)
  | pruneOldTorrents (now days : Int) (turns : List Turn)
  | reconcile (turn : Turn)

namespace CatalogOp

/-- The result of an operation, `none` while it has not returned, and the store after it. -/
def run (u : Unicode) (op : CatalogOp) (s : Store) : Option (Except StoreError Unit) × Store :=
  let forget {α : Type} (r : Except StoreError α × Store) :
      Option (Except StoreError Unit) × Store := (some (r.1.map fun _ => ()), r.2)
  match op with
  | .commitMetadata turns hash m => forget (Btfind.commitMetadata u turns hash m s)
  | .persistDiscovery lookup turn cleanup hash source peers limit receipt =>
    forget (persistHashDiscoveryWithReceipt lookup turn cleanup hash source peers limit receipt s)
  | .persistRuntimeBatch turn events snapshot receipt =>
    forget (transact turn.fate (persistRuntimeBatchTx turn.now events snapshot receipt) s)
  | .pruneOldTorrents now days turns =>
    let r := Btfind.pruneOldTorrents now days turns s
    (r.1.map fun result => result.map fun _ => (), r.2)
  | .reconcile turn => forget (Btfind.reconcile turn s)

/-- No commit of the operation is reported as failed although it took effect. -/
def IsCertain : CatalogOp → Prop
  | .commitMetadata turns _ _ => ∀ attempt, (turns attempt).fate.IsCertain
  | .persistDiscovery _ turn _ _ _ _ _ _ => turn.fate.IsCertain
  | .persistRuntimeBatch turn _ _ _ => turn.fate.IsCertain
  | .pruneOldTorrents _ _ turns => ∀ turn ∈ turns, turn.fate.IsCertain
  | .reconcile turn => turn.fate.IsCertain

def Step (u : Unicode) (s : Store) (op : CatalogOp) (s' : Store) : Prop := s' = (op.run u s).2

end CatalogOp

/-! ## Exact totals -/

theorem TotalsExact.transact {α : Type} {fate : Fate StoreError} {s : Store}
    {body : Store → Except StoreError (α × Store)} (h : TotalsExact s.catalogue)
    (hbody : ∀ a s', body s = .ok (a, s') → TotalsExact s'.catalogue) :
    TotalsExact (transact fate body s).2.catalogue :=
  transact_invariant (I := fun s : Store => TotalsExact s.catalogue) h hbody

theorem TotalsExact.onCatalogue {α : Type} {fate : Fate StoreError} {s : Store}
    {body : Catalogue → Except StoreError (α × Catalogue)} (h : TotalsExact s.catalogue)
    (hbody : ∀ a c', body s.catalogue = .ok (a, c') → TotalsExact c') :
    TotalsExact (Transaction.transact fate (Store.onCatalogue body) s).2.catalogue :=
  h.transact fun a _ hs => hbody a _ (Store.onCatalogue_ok hs).1

theorem TotalsExact.commitAttempts (u : Unicode) (turns : Nat → Turn) (hash : InfoHash)
    (m : TorrentMetadata) (left attempt : Nat) {s : Store} (h : TotalsExact s.catalogue) :
    TotalsExact (commitAttempts u turns hash m left attempt s).2.catalogue := by
  induction left generalizing attempt s with
  | zero => exact h
  | succ left ih =>
    have hstep : TotalsExact (Transaction.transact (turns attempt).fate (Store.onCatalogue
        (commitMetadataTx u (turns attempt).now (turns attempt).maxAllowedPacket hash m))
        s).2.catalogue := h.onCatalogue fun _ _ hc => h.commit hc
    unfold Btfind.commitAttempts
    simp only
    split
    · next hr =>
      rw [hr] at hstep
      split
      · exact ih _ hstep
      · exact hstep
    · exact hstep

theorem TotalsExact.recordDiscovery {c : Catalogue} (h : TotalsExact c) (now : Int)
    (hash : InfoHash) (source : String) (peers : List PeerContact) (limit : Nat) :
    TotalsExact (recordDiscovery now hash source peers limit c).2 := by
  rw [recordDiscovery_frame]
  have hd : TotalsExact (Btfind.discover now hash source
      (!(discoveredAddrs peers limit).isEmpty) c).2 :=
    h.discover source _
  exact hd.of_eq rfl rfl rfl

theorem TotalsExact.recordRuntimeBatch {c : Catalogue} (h : TotalsExact c) (now : Int)
    (events : List CrawlStatsEvent) (snapshot : Option RuntimeSnapshot) :
    TotalsExact (recordRuntimeBatch now events snapshot c).2 :=
  recordRuntimeBatch_induction h (fun _ _ source hc => hc.discover source false)
    fun _ _ hc hsame => hc.of_eq hsame.torrents hsame.files hsame.catalogTotals

theorem TotalsExact.persistDiscovery {s : Store} (h : TotalsExact s.catalogue)
    (lookup : Option StoreError) (turn : Turn) (cleanup : Fate StoreError) (hash : InfoHash)
    (source : String) (peers : List PeerContact) (limit : Nat) (receipt : Uuid) :
    TotalsExact (persistHashDiscoveryWithReceipt lookup turn cleanup hash source peers limit
      receipt s).2.catalogue := by
  have hbody : ∀ a s', persistDiscoveryTx turn.now hash source peers limit receipt s =
      .ok (a, s') → TotalsExact s'.catalogue := by
    intro a s' hs
    unfold persistDiscoveryTx persistDiscoveryBy at hs
    simp only at hs
    split at hs
    · cases hs
    · cases hs
      exact h.recordDiscovery turn.now hash source peers limit
  have htx : TotalsExact (Transaction.transact turn.fate
      (persistDiscoveryTx turn.now hash source peers limit receipt) s).2.catalogue :=
    h.transact hbody
  unfold persistHashDiscoveryWithReceipt
  split
  · exact h
  · split
    · exact h
    · exact h
    · split
      · next hr =>
        rw [hr] at htx
        exact htx
      · next hr =>
        rw [hr] at htx
        refine htx.transact ?_
        intro _ s' hs
        cases hs
        exact htx

theorem TotalsExact.pruneLoop (cutoff : Int) (turns : List Turn) (total : Nat) {s : Store}
    (h : TotalsExact s.catalogue) : TotalsExact (pruneLoop cutoff turns total s).2.catalogue := by
  induction turns generalizing total s with
  | nil => exact h
  | cons turn turns ih =>
    have hstep : TotalsExact (Transaction.transact turn.fate
        (Store.onCatalogue (pruneBatchTx cutoff)) s).2.catalogue := by
      refine h.onCatalogue fun _ _ hc => ?_
      cases hc
      exact h.pruneBatch cutoff
    rw [Btfind.pruneLoop]
    split
    · next hr =>
      rw [hr] at hstep
      exact hstep
    · next hr =>
      rw [hr] at hstep
      exact hstep
    · next hr =>
      rw [hr] at hstep
      exact ih _ hstep

theorem TotalsExact.run {s : Store} (h : TotalsExact s.catalogue) (u : Unicode)
    (op : CatalogOp) : TotalsExact (op.run u s).2.catalogue := by
  cases op with
  | commitMetadata turns hash m =>
    rw [CatalogOp.run, Btfind.commitMetadata]
    simp only
    split
    · exact h
    · exact h.commitAttempts u turns hash m 4 0
  | persistDiscovery lookup turn cleanup hash source peers limit receipt =>
    exact h.persistDiscovery lookup turn cleanup hash source peers limit receipt
  | persistRuntimeBatch turn events snapshot receipt =>
    refine h.transact ?_
    intro a s' hs
    rw [persistRuntimeBatchTx] at hs
    split at hs
    · split at hs
      · cases hs
        exact h
      · cases hs
        exact h
      · cases hs
    · cases hs
      exact h.recordRuntimeBatch turn.now events snapshot
  | pruneOldTorrents now days turns => exact h.pruneLoop _ turns 0
  | reconcile turn =>
    exact h.onCatalogue fun _ _ hc => by
      cases hc
      rfl

/-! ## Failed operations -/

theorem commitAttempts_error {u : Unicode} {turns : Nat → Turn} {hash : InfoHash}
    {m : TorrentMetadata} (hcertain : ∀ i, (turns i).fate.IsCertain) {left attempt : Nat}
    {s : Store} {e : StoreError}
    (h : (commitAttempts u turns hash m left attempt s).1 = .error e) :
    (commitAttempts u turns hash m left attempt s).2 = s := by
  induction left generalizing attempt s with
  | zero => cases h
  | succ left ih =>
    unfold commitAttempts at h ⊢
    simp only at h ⊢
    split at h
    · next e' s' hr =>
      have hs' : s' = s := by
        have hc := transact_error_of_certain (hcertain attempt)
          (e := e') (by rw [hr])
        rwa [hr] at hc
      subst hs'
      split at h
      · next hretry =>
        simp only [hretry, if_true]
        exact ih h
      · next hretry =>
        simp only [hretry]
        rfl
    · exact transact_error_of_certain (hcertain attempt) h

/-- The store after some committed batches of a prune. -/
def afterBatches (cutoff : Int) (batches : Nat) (s : Store) : Store :=
  { s with catalogue := (pruneBatch cutoff)^[batches] s.catalogue }

/-- A prune that fails keeps the batches it has committed, and changes nothing else. -/
theorem pruneLoop_error {cutoff : Int} {turns : List Turn} {total : Nat} {s : Store}
    {e : StoreError} (hcertain : ∀ turn ∈ turns, turn.fate.IsCertain)
    (h : (pruneLoop cutoff turns total s).1 = some (.error e)) :
    ∃ batches < turns.length,
      (pruneLoop cutoff turns total s).2 = afterBatches cutoff batches s := by
  induction turns generalizing total s with
  | nil => cases h
  | cons turn turns ih =>
    unfold pruneLoop at h ⊢
    split at h
    · next e' s' hr =>
      refine ⟨0, Nat.succ_pos _, ?_⟩
      have hc := transact_error_of_certain (hcertain turn List.mem_cons_self) (e := e')
        (by rw [hr])
      rw [hr] at hc
      exact hc
    · cases h
    · next n s' hr =>
      have hbody := transact_ok (a := n + 1) (by rw [hr])
      rw [hr] at hbody
      obtain ⟨hc, hreceipts⟩ := Store.onCatalogue_ok hbody
      have hs' : s' = afterBatches cutoff 1 s := by
        have hcat := congrArg (Except.map Prod.snd) hc
        cases s'
        simp only at hreceipts
        simp only [afterBatches, hreceipts, Function.iterate_one]
        exact congrArg (fun c => (⟨c, s.persistenceReceipts⟩ : Store)) (Except.ok.inj hcat).symm
      obtain ⟨batches, hlt, hb⟩ := ih (fun t ht => hcertain t (List.mem_cons_of_mem _ ht)) h
      refine ⟨batches + 1, Nat.succ_lt_succ hlt, ?_⟩
      rw [hb, hs']
      rfl

theorem persistDiscovery_error {lookup : Option StoreError} {turn : Turn}
    {cleanup : Fate StoreError} {hash : InfoHash} {source : String} {peers : List PeerContact}
    {limit : Nat} {receipt : Uuid} {s : Store} {e : StoreError}
    (hcertain : turn.fate.IsCertain)
    (h : (persistHashDiscoveryWithReceipt lookup turn cleanup hash source peers limit
      receipt s).1 = .error e) :
    (persistHashDiscoveryWithReceipt lookup turn cleanup hash source peers limit
      receipt s).2 = s := by
  unfold persistHashDiscoveryWithReceipt at h ⊢
  split at h
  · rfl
  · split at h
    · rfl
    · cases h
    · split at h
      · next e' s' hr =>
        have hc := transact_error_of_certain hcertain (e := e') (by rw [hr])
        rwa [hr] at hc
      · cases h

/-! ## The totals over whole runs -/

theorem error_of_map_error {α β : Type} {r : Except StoreError α} {f : α → β} {e : StoreError}
    (h : r.map f = .error e) : r = .error e := by
  cases r with
  | error e' => exact congrArg _ (Except.error.inj h)
  | ok a => cases h

namespace CatalogOp

/-- In every reachable state the totals are the counts, so reconciling changes
nothing. A failed operation changes nothing either, except that a failed prune
keeps the batches it had committed. -/
theorem reachable_totals {u : Unicode} {s : Store}
    (h : Transition.Reachable (fun s => s = Store.migrated) (Step u) s) :
    s.catalogue.catalogTotals = s.catalogue.countedTotals ∧
      (∀ turn, (Btfind.reconcile turn s).2 = s) ∧
      ∀ (op : CatalogOp) (e : StoreError), op.IsCertain → (op.run u s).1 = some (.error e) →
        match op with
        | .pruneOldTorrents now days turns => ∃ batches < turns.length,
          (op.run u s).2 = afterBatches (pruneCutoff now days) batches s
        | _ => (op.run u s).2 = s := by
  have hexact : TotalsExact s.catalogue := by
    refine h.invariant (I := fun s : Store => TotalsExact s.catalogue) ?_ ?_
    · rintro _ rfl
      exact TotalsExact.migrated
    · rintro s op _ hs rfl
      exact hs.run u op
  refine ⟨hexact, ?_, ?_⟩
  · intro turn
    refine transact_invariant (I := fun s' => s' = s) rfl ?_
    intro a s' hs
    obtain ⟨hc, hreceipts⟩ := Store.onCatalogue_ok hs
    have hcat := congrArg (Except.map Prod.snd) hc
    -- The counts are written over totals that are equal to them.
    have hsame : s'.catalogue = s.catalogue := by
      refine (Except.ok.inj hcat).symm.trans ?_
      exact congrArg (fun t => { s.catalogue with catalogTotals := t }) hexact.symm
    cases s'
    cases s
    simp_all
  · intro op e hcertain he
    cases op with
    | commitMetadata turns hash m =>
      have hr := error_of_map_error (Option.some.inj he)
      simp only [run]
      unfold Btfind.commitMetadata at hr ⊢
      split
      · rfl
      · next hok =>
        rw [if_neg hok] at hr
        exact commitAttempts_error hcertain hr
    | persistDiscovery lookup turn cleanup hash source peers limit receipt =>
      exact persistDiscovery_error hcertain (error_of_map_error (Option.some.inj he))
    | persistRuntimeBatch turn events snapshot receipt =>
      exact transact_error_of_certain hcertain (error_of_map_error (Option.some.inj he))
    | pruneOldTorrents now days turns =>
      obtain ⟨r, hr, hre⟩ := Option.map_eq_some_iff.mp he
      rw [error_of_map_error hre] at hr
      exact pruneLoop_error hcertain hr
    | reconcile turn =>
      exact transact_error_of_certain hcertain (error_of_map_error (Option.some.inj he))

/-- A batch with one observed hash, applied to the migrated database. -/
def observeOne : CatalogOp :=
  .persistRuntimeBatch ⟨0, 67108864, .commits⟩
    [.hashObserved 7 .inboundGetPeers false false 0] none 1

theorem observeOne_reachable :
    Transition.Reachable (fun s => s = Store.migrated) (Step .ascii)
      (observeOne.run .ascii Store.migrated).2 := by
  have hinit : Transition.Reachable (fun s => s = Store.migrated) (Step .ascii)
      Store.migrated := .of_init rfl
  exact hinit.next (e := observeOne) rfl

/-- The totals after one observed hash. -/
theorem reachable_totals_observed :
    (observeOne.run .ascii Store.migrated).2.catalogue.catalogTotals = ⟨1, 0, 0, 0⟩ ∧
      (observeOne.run .ascii Store.migrated).2.catalogue.catalogTotals =
        (observeOne.run .ascii Store.migrated).2.catalogue.countedTotals :=
  ⟨rfl, (reachable_totals observeOne_reachable).1⟩

/-- A prune that commits one batch and then fails has deleted the rows of that batch. -/
theorem failed_prune_changes_store :
    ¬ ∀ s, Transition.Reachable (fun s => s = Store.migrated) (Step .ascii) s →
      ∀ (op : CatalogOp) (e : StoreError), op.IsCertain →
        (op.run .ascii s).1 = some (.error e) → (op.run .ascii s).2 = s := by
  intro hall
  let gone : StoreError := .database true "connection lost"
  let prune : CatalogOp := .pruneOldTorrents 172800 1
    [⟨172800, 67108864, .commits⟩, ⟨172800, 67108864, .fails gone⟩]
  have hcertain : prune.IsCertain := by
    intro turn ht
    simp only [List.mem_cons, List.not_mem_nil, or_false] at ht
    rcases ht with rfl | rfl <;> trivial
  have hsame := hall _ observeOne_reachable prune gone hcertain rfl
  have hcount := congrArg (fun s => s.catalogue.torrents.count) hsame
  exact absurd hcount (by decide)

end CatalogOp

end Btfind
