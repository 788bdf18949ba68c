import Mathlib.Data.Prod.Lex
import Btfind.Library.Paging
import Btfind.Metadata.System
import Btfind.Store.JobRows

/-!
# The retry scan

`load_due_jobs` asks for as many due rows as there may be jobs and leaves out those of tracked
hashes afterwards. The tracked rows are no more than the tracked jobs, so that the free slots are
filled all the same.
-/

namespace Btfind

open Paging

/-- A query, which may fail, and what it reads otherwise. -/
def readQuery {α : Type} (failure : Option StoreError) (rows : α) : Except StoreError α :=
  match failure with
  | some e => .error e
  | none => .ok rows

/-- `load_due_jobs`, with the failures of its queries. -/
def loadDueJobs (failure : Option StoreError) (peersFailure : InfoHash → Option StoreError)
    (now : Int) (jobs : KeyedTable InfoHash HashJob) (maxActive maxPeers : Nat) (c : Catalogue) :
    Except StoreError (List (HashJobRecord × List PeerContact)) :=
  let available := maxActive - jobs.count
  if available = 0 then .ok []
  else do
    let records ← readQuery failure (dueHashJobs now maxActive c)
    let free := records.filter fun record => (jobs.lookup record.infoHash).isNone
    (free.take available).mapM fun record => do
      let peers ← readQuery (peersFailure record.infoHash)
        (hashJobPeersOf record.infoHash maxPeers c)
      return (record, peers)

/-! ## The due rows in order -/

/-- `ORDER BY j.next_attempt_at,j.updated_at,j.info_hash` -/
def dueRank (e : Σ _ : InfoHash, HashJobRow) : Int ×ₗ Int ×ₗ Nat :=
  toLex (e.2.nextAttemptAt, toLex (e.2.updatedAt, e.1.toNat))

/-- The record of a row of `hash_jobs`. -/
def HashJobRecord.ofRow (e : Σ _ : InfoHash, HashJobRow) : HashJobRecord :=
  ⟨e.1, e.2.status, e.2.attemptCount.toNat, e.2.nextAttemptAt, e.2.lastFailure⟩

/-- All due rows, in the order of the query. -/
def dueRows (now : Int) (c : Catalogue) : List (Σ _ : InfoHash, HashJobRow) :=
  inOrder dueRank (c.hashJobs.entries.filter fun e => isDue now c e.1 e.2)

variable {now : Int} {c : Catalogue}

theorem dueHashJobs_eq (limit : Nat) :
    dueHashJobs now limit c = ((dueRows now c).take limit).map HashJobRecord.ofRow := by
  have hle : ∀ a b : Σ _ : InfoHash, HashJobRow, dueRank a ≤ dueRank b ↔
      (a.2.nextAttemptAt < b.2.nextAttemptAt ∨ (a.2.nextAttemptAt = b.2.nextAttemptAt ∧
        (a.2.updatedAt < b.2.updatedAt ∨
          (a.2.updatedAt = b.2.updatedAt ∧ a.1.toNat ≤ b.1.toNat)))) := by
    intro a b
    unfold dueRank
    rw [Prod.Lex.toLex_le_toLex, Prod.Lex.toLex_le_toLex]
  rw [dueHashJobs, dueRows, inOrder]
  congr! 5 with _ a b
  exact (hle a b).symm

theorem mem_dueRows {e : Σ _ : InfoHash, HashJobRow} :
    e ∈ dueRows now c ↔ c.hashJobs.lookup e.1 = some e.2 ∧ isDue now c e.1 e.2 = true := by
  rw [dueRows]
  rw [mem_inOrder, List.mem_filter, AList.lookup_eq_some_iff]

theorem dueRows_nodupKeys (now : Int) (c : Catalogue) : (dueRows now c).NodupKeys :=
  (List.perm_nodupKeys (List.perm_insertionSort _ _)).mpr
    (c.hashJobs.nodupKeys.sublist List.filter_sublist)

theorem ascending_dueRows : Ascending dueRank (dueRows now c) := by
  have hkeys := c.hashJobs.nodupKeys.sublist
    (List.filter_sublist (p := fun e => isDue now c e.1 e.2))
  refine ascending_inOrder_of_distinct ?_ hkeys.nodup
  intro a ha b hb heq
  -- The hash alone tells two rows apart.
  have hhash : a.1.toNat = b.1.toNat := by
    have hrest := congrArg (fun r => (ofLex (ofLex r).2).2) heq
    exact hrest
  exact hkeys.eq_of_fst_eq ha hb (BitVec.eq_of_toNat_eq hhash)

/-! ## The free slots -/

variable {jobs : KeyedTable InfoHash HashJob} {maxActive maxPeers : Nat}

/-- The due rows whose hash is not tracked. -/
def freeRows (now : Int) (c : Catalogue) (jobs : KeyedTable InfoHash HashJob) :
    List (Σ _ : InfoHash, HashJobRow) :=
  (dueRows now c).filter fun e => (jobs.lookup e.1).isNone

theorem mem_freeRows {e : Σ _ : InfoHash, HashJobRow} :
    e ∈ freeRows now c jobs ↔ c.hashJobs.lookup e.1 = some e.2 ∧
      e.2.status.isSchedulable = true ∧ e.2.nextAttemptAt ≤ now ∧
      (∃ addr, HasPeer e.1 addr c) ∧ jobs.lookup e.1 = none := by
  rw [freeRows]
  rw [List.mem_filter, mem_dueRows, isDue_iff, Option.isNone_iff_eq_none]
  tauto

/-- The tracked ones among the due rows are no more than the tracked jobs. -/
theorem tracked_dueRows_length :
    ((dueRows now c).filter fun e => !(jobs.lookup e.1).isNone).length ≤ jobs.count := by
  have hkeys := (dueRows_nodupKeys now c).sublist
    (List.filter_sublist (p := fun e => !(jobs.lookup e.1).isNone))
  have hsub : (((dueRows now c).filter fun e => !(jobs.lookup e.1).isNone).map Sigma.fst) ⊆
      jobs.entries.map Sigma.fst := by
    intro h hh
    obtain ⟨e, he, rfl⟩ := List.mem_map.mp hh
    have htracked := (List.mem_filter.mp he).2
    rw [Bool.not_eq_true', Option.isNone_eq_false_iff, Option.isSome_iff_exists] at htracked
    obtain ⟨job, hj⟩ := htracked
    exact List.mem_map.mpr ⟨⟨e.1, job⟩, AList.lookup_eq_some_iff.mp hj, rfl⟩
  have hlen := (List.subperm_of_subset hkeys hsub).length_le
  rw [List.length_map] at hlen
  exact (List.length_map Sigma.fst).symm.trans_le hlen

theorem free_records : (((dueHashJobs now maxActive c).filter fun record =>
      (jobs.lookup record.infoHash).isNone).take (maxActive - jobs.count)) =
    ((freeRows now c jobs).take (maxActive - jobs.count)).map HashJobRecord.ofRow := by
  rw [dueHashJobs_eq, List.filter_map, ← List.map_take]
  exact congrArg (List.map HashJobRecord.ofRow) (take_filter_take tracked_dueRows_length)

/-- The records with the peers that `load_due_jobs` reads for them. -/
def withPeers (maxPeers : Nat) (c : Catalogue) (e : Σ _ : InfoHash, HashJobRow) :
    HashJobRecord × List PeerContact :=
  (HashJobRecord.ofRow e, hashJobPeersOf e.1 maxPeers c)

theorem mapM_ok {α β ε : Type} {f : α → Except ε β} {g : α → β} {l : List α} {r : List β}
    (h : l.mapM f = .ok r) (hf : ∀ a b, f a = .ok b → b = g a) : r = l.map g := by
  induction l generalizing r with
  | nil =>
    cases h
    rfl
  | cons a l ih =>
    rw [List.mapM_cons] at h
    cases hb : f a with
    | error e =>
      rw [hb] at h
      cases h
    | ok b =>
      rw [hb] at h
      cases hrest : l.mapM f with
      | error e =>
        rw [hrest] at h
        cases h
      | ok rest =>
        rw [hrest] at h
        cases h
        rw [List.map_cons, hf a b hb, ih hrest]

/-- Whatever queries could have failed, what the scan returns is what it returns without failures. -/
theorem loadDueJobs_ok {failure : Option StoreError} {peersFailure : InfoHash → Option StoreError}
    {loaded : List (HashJobRecord × List PeerContact)}
    (h : loadDueJobs failure peersFailure now jobs maxActive maxPeers c = .ok loaded) :
    loaded = ((freeRows now c jobs).take (maxActive - jobs.count)).map (withPeers maxPeers c) := by
  rw [loadDueJobs] at h
  simp only at h
  by_cases hnone : maxActive - jobs.count = 0
  · rw [if_pos hnone] at h
    cases h
    rw [hnone, List.take_zero, List.map_nil]
  · rw [if_neg hnone] at h
    cases failure with
    | some e => cases h
    | none =>
      have hread := mapM_ok (g := fun record => (record, hashJobPeersOf record.infoHash maxPeers c))
        h fun record loaded hl => by
          cases hp : peersFailure record.infoHash with
          | some e =>
            rw [hp] at hl
            cases hl
          | none =>
            rw [hp] at hl
            cases hl
            rfl
      rw [hread, free_records, List.map_map]
      rfl

theorem loadDueJobs_unfailing :
    loadDueJobs none (fun _ => none) now jobs maxActive maxPeers c =
      .ok (((freeRows now c jobs).take (maxActive - jobs.count)).map (withPeers maxPeers c)) := by
  rw [loadDueJobs]
  simp only
  by_cases hnone : maxActive - jobs.count = 0
  · rw [if_pos hnone, hnone, List.take_zero, List.map_nil]
  · rw [if_neg hnone]
    show List.mapM (fun record : HashJobRecord =>
      pure (record, hashJobPeersOf record.infoHash maxPeers c)) _ = _
    rw [List.mapM_pure, free_records, List.map_map]
    rfl

/-- The scan returns the first due jobs with a peer that are not tracked, in the order of the
query, as many as there are free slots. -/
theorem retry_scan_fills (now : Int) (c : Catalogue) (jobs : KeyedTable InfoHash HashJob)
    (maxActive maxPeers : Nat) :
    ∃ free : List (Σ _ : InfoHash, HashJobRow), Ascending dueRank free ∧
      (∀ e, e ∈ free ↔ c.hashJobs.lookup e.1 = some e.2 ∧ e.2.status.isSchedulable = true ∧
        e.2.nextAttemptAt ≤ now ∧ (∃ addr, HasPeer e.1 addr c) ∧ jobs.lookup e.1 = none) ∧
      loadDueJobs none (fun _ => none) now jobs maxActive maxPeers c =
        .ok ((free.take (maxActive - jobs.count)).map (withPeers maxPeers c)) ∧
      ∀ failure peersFailure loaded,
        loadDueJobs failure peersFailure now jobs maxActive maxPeers c = .ok loaded →
        loaded = (free.take (maxActive - jobs.count)).map (withPeers maxPeers c) := by
  refine ⟨freeRows now c jobs, ascending_dueRows.filter, fun e => mem_freeRows,
    loadDueJobs_unfailing, fun failure peersFailure loaded h => loadDueJobs_ok h⟩

end Btfind
