import Btfind.Store.Catalog
import Btfind.Store.HashJobs
import Btfind.Store.RuntimeBatch

/-!
# The catalogue totals

The totals are kept by deltas. Every transaction turns exact totals into exact
totals, whatever its arguments, so they are exact in every reachable state.
-/

namespace Btfind

open Transaction

/-- The totals row is what counting the tables gives. -/
def TotalsExact (c : Catalogue) : Prop := c.catalogTotals = c.countedTotals

def completeWeight (_ : InfoHash) (row : TorrentRow) : Int :=
  if row.metadataComplete then 1 else 0

def sizeWeight (_ : InfoHash) (row : TorrentRow) : Int := row.totalSize

@[simp] theorem completeWeight_rediscovered (now : Int) (hash : InfoHash) (source : String)
    (row : TorrentRow) :
    completeWeight hash (row.rediscovered now source) = completeWeight hash row := rfl

@[simp] theorem sizeWeight_rediscovered (now : Int) (hash : InfoHash) (source : String)
    (row : TorrentRow) : sizeWeight hash (row.rediscovered now source) = sizeWeight hash row := rfl

theorem totalsExact_iff {c : Catalogue} : TotalsExact c ↔
    c.catalogTotals.totalTorrents = c.torrents.total (fun _ _ => 1) ∧
      c.catalogTotals.totalMetadataComplete = c.torrents.total completeWeight ∧
      c.catalogTotals.totalFiles = c.files.length ∧
      c.catalogTotals.totalSize = c.torrents.total sizeWeight := by
  rw [TotalsExact, Catalogue.countedTotals]
  rw [AList.count_eq_total]
  cases c.catalogTotals
  simp only [CatalogTotals.mk.injEq]
  exact Iff.rfl

theorem TotalsExact.migrated : TotalsExact .migrated := rfl

section Step

variable {now : Int} {hash : InfoHash} {c c' : Catalogue}

/-- The totals depend on two tables only. -/
theorem TotalsExact.of_eq (h : TotalsExact c) (ht : c'.torrents = c.torrents)
    (hf : c'.files = c.files) (hs : c'.catalogTotals = c.catalogTotals) : TotalsExact c' := by
  unfold TotalsExact Catalogue.countedTotals at *
  rw [ht, hf, hs]
  exact h

theorem TotalsExact.discover (h : TotalsExact c) (source : String) (peers : Bool) :
    TotalsExact (discover now hash source peers c).2 := by
  obtain ⟨h1, h2, h3, h4⟩ := totalsExact_iff.mp h
  rw [totalsExact_iff]
  simp only [discover_catalogTotals, discover_torrents, discover_files, AList.total_upsert]
  cases hrow : c.torrents.lookup hash with
  | none =>
    simp only [AList.weight, completeWeight, sizeWeight, TorrentRow.discovered, Option.map_none,
      Option.getD_none, Option.isNone_none, if_true, Bool.false_eq_true, if_false]
    exact ⟨by omega, by omega, h3, by omega⟩
  | some row =>
    simp only [AList.weight, Option.map_some, Option.getD_some, Option.isNone_some,
      Bool.false_eq_true, if_false, completeWeight_rediscovered, sizeWeight_rediscovered]
    exact ⟨by omega, by omega, h3, by omega⟩

theorem length_filesOf (hash : InfoHash) (files : List FileRow) :
    (files.filter fun f => f.torrentId ≠ hash).length + (filesOf hash files).length =
      files.length := by
  induction files with
  | nil => rfl
  | cons f files ih =>
    by_cases hf : f.torrentId = hash
    · simp only [filesOf, List.filter_cons, hf, ne_eq, not_true_eq_false, decide_false,
        decide_true, if_true, Bool.false_eq_true, if_false, List.length_cons] at ih ⊢
      omega
    · simp only [filesOf, List.filter_cons, hf, ne_eq, not_false_eq_true, decide_true,
        decide_false, if_true, Bool.false_eq_true, if_false, List.length_cons] at ih ⊢
      omega

theorem TotalsExact.commit {u : Unicode} {packet : Nat} {m : TorrentMetadata}
    (h : TotalsExact c) (hc : commitMetadataTx u now packet hash m c = .ok ((), c')) :
    TotalsExact c' := by
  obtain ⟨old, hcom⟩ := commitMetadataTx_ok hc
  have hd : TotalsExact (Btfind.discover now hash "dht" false c).2 := h.discover "dht" false
  obtain ⟨h1, h2, h3, h4⟩ := totalsExact_iff.mp hd
  rw [totalsExact_iff, hcom.totals, hcom.torrents, hcom.files]
  simp only [AList.total_insert, hcom.fetched, AList.weight, completeWeight, sizeWeight,
    TorrentRow.complete, if_true, List.length_append, List.length_map]
  have hfiles := length_filesOf hash c.files
  simp only [discover_catalogTotals, discover_files] at h1 h2 h3 h4
  simp only [discover_catalogTotals]
  refine ⟨by omega, ?_, by push_cast; omega, by omega⟩
  split <;> omega

theorem TotalsExact.pruneTorrent {row : TorrentRow} (h : TotalsExact c)
    (hrow : c.torrents.lookup hash = some row) : TotalsExact (pruneTorrent c ⟨hash, row⟩) := by
  obtain ⟨h1, h2, h3, h4⟩ := totalsExact_iff.mp h
  have hfiles := length_filesOf hash c.files
  rw [totalsExact_iff]
  simp only [Btfind.pruneTorrent, Catalogue.deleteTorrent, AList.total_erase, hrow, AList.weight,
    List.filter_filter, Bool.and_self]
  refine ⟨by omega, ?_, by omega, ?_⟩
  · rw [completeWeight]
    omega
  · rw [sizeWeight]
    omega

/-- Distinct rows of the table can be pruned one after the other. -/
theorem TotalsExact.pruneTorrents (rows : List (Σ _ : InfoHash, TorrentRow))
    (h : TotalsExact c) (hnodup : rows.NodupKeys)
    (hmem : ∀ e ∈ rows, c.torrents.lookup e.1 = some e.2) :
    TotalsExact (rows.foldl Btfind.pruneTorrent c) := by
  induction rows generalizing c with
  | nil => exact h
  | cons e rows ih =>
    obtain ⟨hash, row⟩ := e
    obtain ⟨hfresh, hrest⟩ := List.nodupKeys_cons.mp hnodup
    rw [List.foldl_cons]
    refine ih (h.pruneTorrent (hmem _ List.mem_cons_self)) hrest ?_
    intro e he
    have hne : e.1 ≠ hash := by
      intro heq
      have hkey := List.mem_keys_of_mem he
      rw [heq] at hkey
      exact hfresh hkey
    simp only [Btfind.pruneTorrent, Catalogue.deleteTorrent, AList.lookup_erase_ne hne]
    exact hmem e (List.mem_cons_of_mem _ he)

theorem TotalsExact.pruneBatch (h : TotalsExact c) (cutoff : Int) :
    TotalsExact (pruneBatch cutoff c) :=
  h.pruneTorrents _ (oldTorrents_nodup cutoff c) fun _ he => (mem_oldTorrents he).1

end Step

end Btfind
