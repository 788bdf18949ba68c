import Mathlib.Data.List.Sort
import Btfind.Library.Chunks
import Btfind.Store.Discover
import Btfind.Store.Search

/-!
# Committed metadata, pruned torrents and the totals

The transactions that change whole torrents. Foreign keys cascade on the
deletion of a torrent row as in the schema.
-/

namespace Btfind

open Transaction

/-! ## Committing metadata -/

def TorrentRow.complete (name : String) (pieceLength totalSize fileCount now : Int)
    (row : TorrentRow) : TorrentRow :=
  { row with
    name := some name
    pieceLength := some pieceLength
    totalSize := totalSize
    fileCount := fileCount
    lastSeen := now
    metadataComplete := true }

def insertFiles (hash : InfoHash) (files : List (String × Int)) (table : List FileRow) :
    List FileRow :=
  (files.toChunks 128).foldl
    (fun table chunk => table ++ chunk.map fun f => ⟨hash, f.1, f.2⟩) table

/-- The job row that `commit_metadata` inserts. -/
def HashJobRow.committed (now : Int) : HashJobRow where
  status := .complete
  attemptCount := 0
  nextAttemptAt := 0
  lastFailure := none
  lastSuccessAt := some now
  lastNewPeerAt := none
  discoverySources := ["dht"]
  updatedAt := now

def HashJobRow.onCommitted (inserted row : HashJobRow) : HashJobRow :=
  { row with
    status := .complete
    lastFailure := none
    lastSuccessAt := inserted.lastSuccessAt
    updatedAt := inserted.updatedAt }

/-- The metadata that `commit_metadata` stores. -/
structure TorrentMetadata where
  name : String
  pieceLength : Int
  totalSize : Int
  files : List (String × Int)
  deriving DecidableEq

/-- `files.iter().any(..) || total_size < 0 || piece_length < 0` -/
def TorrentMetadata.rejected (m : TorrentMetadata) : Bool :=
  m.files.any (fun f => f.1.isEmpty || f.2 < 0) || m.totalSize < 0 || m.pieceLength < 0

/-- One transaction of `commit_metadata`. -/
def commitMetadataTx (u : Unicode) (now : Int) (packet : Nat) (hash : InfoHash)
    (m : TorrentMetadata) (c : Catalogue) : Except StoreError (Unit × Catalogue) :=
  let count : Int := m.files.length
  let c := (discover now hash "dht" false c).2
  match c.torrents.lookup hash with
  | none => .error rowNotFound
  | some old =>
    let deleted : Int := (filesOf hash c.files).length
    let c := { c with files := c.files.filter fun f => f.torrentId ≠ hash }
    let c := { c with torrents :=
      c.torrents.adjust hash (.complete m.name m.pieceLength m.totalSize count now) }
    let c := { c with files := insertFiles hash m.files c.files }
    (refreshSearch u packet hash c).bind fun c =>
      let inserted := HashJobRow.committed now
      let c := { c with hashJobs := c.hashJobs.upsert hash inserted inserted.onCommitted }
      let t := c.catalogTotals
      .ok ((), { c with catalogTotals := { t with
        totalMetadataComplete :=
          t.totalMetadataComplete + if old.metadataComplete then 0 else 1
        totalFiles := t.totalFiles + (count - deleted)
        totalSize := t.totalSize + (m.totalSize - old.totalSize) } })

theorem insertFiles_eq (hash : InfoHash) (files : List (String × Int)) (table : List FileRow) :
    insertFiles hash files table = table ++ files.map fun f => ⟨hash, f.1, f.2⟩ := by
  rw [insertFiles]
  rw [List.foldl_append_eq_append, ← List.map_flatten, List.toChunks_flatten]

theorem filesOf_append (hash : InfoHash) (xs ys : List FileRow) :
    filesOf hash (xs ++ ys) = filesOf hash xs ++ filesOf hash ys :=
  List.filter_append xs ys

/-- After the old rows are deleted and the new ones inserted, the new ones are all. -/
theorem filesOf_replaced (hash : InfoHash) (xs : List FileRow) (files : List (String × Int)) :
    filesOf hash ((xs.filter fun f => f.torrentId ≠ hash) ++
      files.map fun f => (⟨hash, f.1, f.2⟩ : FileRow)) =
        files.map fun f => ⟨hash, f.1, f.2⟩ := by
  rw [filesOf_append]
  have hold : filesOf hash (xs.filter fun f => f.torrentId ≠ hash) = [] := by
    simp [filesOf]
  have hnew : filesOf hash (files.map fun f => (⟨hash, f.1, f.2⟩ : FileRow)) =
      files.map fun f => ⟨hash, f.1, f.2⟩ := by
    rw [filesOf, List.filter_eq_self]
    intro f hf
    obtain ⟨g, -, rfl⟩ := List.mem_map.mp hf
    simp
  rw [hold, hnew, List.nil_append]

/-- What a committed transaction of `commit_metadata` has done. -/
structure Committed (u : Unicode) (now : Int) (hash : InfoHash) (m : TorrentMetadata)
    (c c' : Catalogue) (old : TorrentRow) : Prop where
  fetched : (discover now hash "dht" false c).2.torrents.lookup hash = some old
  torrents : c'.torrents = (discover now hash "dht" false c).2.torrents.insert hash
    (old.complete m.name m.pieceLength m.totalSize m.files.length now)
  files : c'.files = (c.files.filter fun f => f.torrentId ≠ hash) ++
    m.files.map fun f => ⟨hash, f.1, f.2⟩
  hashJobs : c'.hashJobs = (discover now hash "dht" false c).2.hashJobs.upsert hash
    (.committed now) (HashJobRow.committed now).onCommitted
  totals : c'.catalogTotals =
    { totalTorrents := (discover now hash "dht" false c).2.catalogTotals.totalTorrents
      totalMetadataComplete :=
        c.catalogTotals.totalMetadataComplete + if old.metadataComplete then 0 else 1
      totalFiles :=
        c.catalogTotals.totalFiles + (m.files.length - (filesOf hash c.files).length)
      totalSize := c.catalogTotals.totalSize + (m.totalSize - old.totalSize) }
  document : ∃ budget found, c'.searchDocuments.lookup hash = found ∧
    searchDocumentOf u hash budget
      (old.complete m.name m.pieceLength m.totalSize m.files.length now)
      (m.files.map Prod.fst) = .ok found
  documents : ∀ k, k ≠ hash → c'.searchDocuments.lookup k = c.searchDocuments.lookup k
  hashJobPeers : c'.hashJobPeers = c.hashJobPeers
  metadataPeerAttempts : c'.metadataPeerAttempts = c.metadataPeerAttempts

theorem commitMetadataTx_ok {u : Unicode} {now : Int} {packet : Nat} {hash : InfoHash}
    {m : TorrentMetadata} {c c' : Catalogue}
    (h : commitMetadataTx u now packet hash m c = .ok ((), c')) :
    ∃ old, Committed u now hash m c c' old := by
  rw [commitMetadataTx] at h
  simp only at h
  split at h
  · cases h
  · next old hold =>
    obtain ⟨found, hsearch, hrest⟩ := ok_of_bind h
    simp only [Except.ok.injEq, Prod.mk.injEq, true_and] at hrest
    obtain ⟨budget, document, hdoc, hlook, hframe, hother⟩ := refreshSearch_ok hsearch
    -- The row is there, so the update replaces it.
    have hadjust : ∀ f : TorrentRow → TorrentRow,
        (discover now hash "dht" false c).2.torrents.adjust hash f =
          (discover now hash "dht" false c).2.torrents.insert hash (f old) := by
      intro f
      simp only [AList.adjust, hold]
    rw [searchDocument] at hdoc
    simp only [hadjust, AList.lookup_insert, insertFiles_eq, discover_files,
      filesOf_replaced, List.map_map] at hdoc
    refine ⟨old, hold, ?_, ?_, ?_, ?_, ⟨budget, document, ?_, hdoc⟩, ?_, ?_, ?_⟩
    · rw [← hrest]
      simp only
      rw [hframe]
      exact hadjust _
    · rw [← hrest]
      simp only
      rw [hframe]
      simp only [insertFiles_eq, discover_files]
    · rw [← hrest]
      simp only
      rw [hframe]
    · rw [← hrest]
      simp only
      rw [hframe]
      simp only [discover_catalogTotals, discover_files]
    · rw [← hrest]
      exact hlook
    · intro k hk
      rw [← hrest]
      simp only
      rw [hother k hk]
      simp
    · rw [← hrest]
      simp only
      rw [hframe]
      simp
    · rw [← hrest]
      simp only
      rw [hframe]
      simp

/-- `retryable` -/
def StoreError.isRetryable : StoreError → Bool
  | .database retryable _ => retryable
  | _ => false

/-- The retry loop of `commit_metadata`; `turns` numbers the attempts. The fourth
attempt always returns, so the loop is left before its bound. -/
def commitAttempts (u : Unicode) (turns : Nat → Turn) (hash : InfoHash) (m : TorrentMetadata) :
    Nat → Nat → Store → Except StoreError Unit × Store
  | 0, _, s => (.ok (), s)
  | left + 1, attempt, s =>
    let turn := turns attempt
    match transact turn.fate
        (Store.onCatalogue (commitMetadataTx u turn.now turn.maxAllowedPacket hash m)) s with
    | (.error e, s') =>
      if e.isRetryable && attempt < 3 then commitAttempts u turns hash m left (attempt + 1) s'
      else (.error e, s')
    | done => done

def commitMetadata (u : Unicode) (turns : Nat → Turn) (hash : InfoHash) (m : TorrentMetadata)
    (s : Store) : Except StoreError Unit × Store :=
  if m.rejected then (.error (.invalid "invalid metadata file or size"), s)
  else commitAttempts u turns hash m 4 0 s

/-! ## Pruning torrents -/

/-- Delete a torrent row with the rows that reference it. -/
def Catalogue.deleteTorrent (hash : InfoHash) (c : Catalogue) : Catalogue :=
  { c with
    torrents := c.torrents.erase hash
    files := c.files.filter fun f => f.torrentId ≠ hash
    hashJobs := c.hashJobs.erase hash
    hashJobPeers := c.hashJobPeers.keep fun k _ => k.1 ≠ hash
    metadataPeerAttempts := c.metadataPeerAttempts.keep fun k _ => k.1 ≠ hash
    sampleObservations := c.sampleObservations.erase hash
    searchDocuments := c.searchDocuments.erase hash }

/-- The body of the loop over the selected rows. -/
def pruneTorrent (c : Catalogue) (selected : Σ _ : InfoHash, TorrentRow) : Catalogue :=
  let hash := selected.1
  let row := selected.2
  let files : Int := (filesOf hash c.files).length
  let c := { c with files := c.files.filter fun f => f.torrentId ≠ hash }
  let c := c.deleteTorrent hash
  let t := c.catalogTotals
  { c with catalogTotals := {
      totalTorrents := t.totalTorrents - 1
      totalMetadataComplete := t.totalMetadataComplete - if row.metadataComplete then 1 else 0
      totalFiles := t.totalFiles - files
      totalSize := t.totalSize - row.totalSize } }

/-- `ORDER BY last_seen,info_hash LIMIT 128` over the rows older than the cutoff. -/
def oldTorrents (cutoff : Int) (c : Catalogue) : List (Σ _ : InfoHash, TorrentRow) :=
  let before (a b : Σ _ : InfoHash, TorrentRow) : Prop :=
    a.2.lastSeen < b.2.lastSeen ∨ (a.2.lastSeen = b.2.lastSeen ∧ a.1.toNat ≤ b.1.toNat)
  have : DecidableRel before := fun _ _ => inferInstanceAs (Decidable (_ ∨ _))
  ((c.torrents.entries.filter fun e => e.2.lastSeen < cutoff).insertionSort before).take 128

theorem mem_oldTorrents {c : Catalogue} {cutoff : Int} {e : Σ _ : InfoHash, TorrentRow}
    (he : e ∈ oldTorrents cutoff c) :
    c.torrents.lookup e.1 = some e.2 ∧ e.2.lastSeen < cutoff := by
  have hmem := List.mem_of_mem_take he
  rw [List.mem_insertionSort, List.mem_filter] at hmem
  exact ⟨AList.lookup_eq_some_iff.mpr hmem.1, by simpa using hmem.2⟩

theorem oldTorrents_nodup (cutoff : Int) (c : Catalogue) : (oldTorrents cutoff c).NodupKeys := by
  unfold oldTorrents
  simp only
  refine List.NodupKeys.sublist (List.take_sublist _ _) ?_
  rw [List.perm_nodupKeys (List.perm_insertionSort _ _)]
  exact AList.nodupKeys_filter _ _

/-- One committed batch of `prune_old_torrents`. -/
def pruneBatch (cutoff : Int) (c : Catalogue) : Catalogue :=
  (oldTorrents cutoff c).foldl pruneTorrent c

/-- One transaction of `prune_old_torrents`: how many rows it deleted. -/
def pruneBatchTx (cutoff : Int) (c : Catalogue) : Except StoreError (Nat × Catalogue) :=
  .ok ((oldTorrents cutoff c).length, pruneBatch cutoff c)

/-- The loop of `prune_old_torrents` over the transactions it gets to run; `none`
while it has not returned. -/
def pruneLoop (cutoff : Int) : List Turn → Nat → Store → Option (Except StoreError Nat) × Store
  | [], _, s => (none, s)
  | turn :: turns, total, s =>
    match transact turn.fate (Store.onCatalogue (pruneBatchTx cutoff)) s with
    | (.error e, s') => (some (.error e), s')
    | (.ok 0, s') => (some (.ok total), s')
    | (.ok (n + 1), s') => pruneLoop cutoff turns (total + (n + 1)) s'

def pruneCutoff (now days : Int) : Int := clampI64 (now - clampI64 (days * 86400))

def pruneOldTorrents (now days : Int) (turns : List Turn) (s : Store) :
    Option (Except StoreError Nat) × Store :=
  pruneLoop (pruneCutoff now days) turns 0 s

/-! ## Reconciling the totals -/

/-- The totals counted from the tables. -/
def Catalogue.countedTotals (c : Catalogue) : CatalogTotals where
  totalTorrents := c.torrents.count
  totalMetadataComplete := c.torrents.total fun _ row => if row.metadataComplete then 1 else 0
  totalFiles := c.files.length
  totalSize := c.torrents.total fun _ row => row.totalSize

def reconcileTx (c : Catalogue) : Except StoreError (Unit × Catalogue) :=
  .ok ((), { c with catalogTotals := c.countedTotals })

def reconcile (turn : Turn) (s : Store) : Except StoreError Unit × Store :=
  transact turn.fate (Store.onCatalogue reconcileTx) s

end Btfind
