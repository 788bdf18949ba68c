import Btfind.Store.Catalog
import Btfind.Store.HashJobs
import Btfind.Store.RuntimeBatch
import Btfind.Store.SearchText

/-!
# Completed torrents

What the five tables say about a hash whose metadata is complete, and the proof
that every transaction keeps them in agreement. Which metadata may be stored is a
parameter, so the invariant says nothing about peers.
-/

namespace Btfind

/-- The columns of a torrent row that hold metadata. -/
structure StoredMetadata where
  name : Option String
  pieceLength : Option Int
  totalSize : Int
  fileCount : Int
  deriving DecidableEq

def TorrentRow.stored (row : TorrentRow) : StoredMetadata :=
  ⟨row.name, row.pieceLength, row.totalSize, row.fileCount⟩

def TorrentMetadata.stored (m : TorrentMetadata) : StoredMetadata :=
  ⟨some m.name, some m.pieceLength, m.totalSize, m.files.length⟩

/-- The metadata columns of a hash, when `metadata_complete = 1`. -/
def completedRow (h : InfoHash) (c : Catalogue) : Option StoredMetadata :=
  ((c.torrents.lookup h).filter TorrentRow.metadataComplete).map TorrentRow.stored

/-- `hash_jobs` has a row of the hash with status `complete`. -/
def jobComplete (h : InfoHash) (c : Catalogue) : Bool :=
  (c.hashJobs.lookup h).any fun row => row.status = .complete

/-- The tables show a torrent's metadata. -/
structure Shows (u : Unicode) (h : InfoHash) (m : TorrentMetadata) (c : Catalogue) : Prop where
  row : completedRow h c = some m.stored
  files : filesOf h c.files = m.files.map fun f => ⟨h, f.1, f.2⟩
  document : ∃ budget document, searchDocument u h budget c = .ok (some document) ∧
    c.searchDocuments.lookup h = some document

/-- The two completion flags of a hash agree, and what is complete shows
metadata that was allowed. -/
structure CompletedOk (u : Unicode) (allowed : InfoHash → TorrentMetadata → Prop)
    (c : Catalogue) (h : InfoHash) : Prop where
  agree : (completedRow h c).isSome = jobComplete h c
  shows : (completedRow h c).isSome = true → ∃ m, allowed h m ∧ Shows u h m c

/-- Two catalogues say the same about the completion of a hash. -/
structure SameCompleted (h : InfoHash) (c c' : Catalogue) : Prop where
  row : completedRow h c' = completedRow h c
  files : filesOf h c'.files = filesOf h c.files
  document : c'.searchDocuments.lookup h = c.searchDocuments.lookup h
  job : jobComplete h c' = jobComplete h c

theorem completedRow_eq_some {h : InfoHash} {c : Catalogue} {stored : StoredMetadata} :
    completedRow h c = some stored ↔
      ∃ row, c.torrents.lookup h = some row ∧ row.metadataComplete = true ∧
        row.stored = stored := by
  simp only [completedRow, Option.map_eq_some_iff, Option.filter_eq_some_iff, and_assoc]

theorem completedRow_isSome {h : InfoHash} {c : Catalogue} :
    (completedRow h c).isSome = true ↔
      ∃ row, c.torrents.lookup h = some row ∧ row.metadataComplete = true := by
  rw [Option.isSome_iff_exists]
  simp only [completedRow_eq_some]
  constructor
  · rintro ⟨-, row, hrow, hcomplete, -⟩
    exact ⟨row, hrow, hcomplete⟩
  · rintro ⟨row, hrow, hcomplete⟩
    exact ⟨row.stored, row, hrow, hcomplete, rfl⟩

theorem jobComplete_iff {h : InfoHash} {c : Catalogue} :
    jobComplete h c = true ↔
      ∃ row, c.hashJobs.lookup h = some row ∧ row.status = .complete := by
  rw [jobComplete]
  cases c.hashJobs.lookup h <;> simp

/-- The document of a complete torrent depends on its name and paths only. -/
theorem searchDocumentOf_congr {u : Unicode} {h : InfoHash} {budget : Nat} {row row' : TorrentRow}
    {paths : List String} (hcomplete : row'.metadataComplete = row.metadataComplete)
    (hname : row'.name = row.name) :
    searchDocumentOf u h budget row' paths = searchDocumentOf u h budget row paths := by
  unfold searchDocumentOf
  rw [hcomplete, hname]

/-- A complete torrent with a name has a document. -/
theorem searchDocumentOf_complete {u : Unicode} {h : InfoHash} {budget : Nat} {row : TorrentRow}
    {paths : List String} {name : String} {found : Option SearchDocumentRow}
    (hcomplete : row.metadataComplete = true) (hname : row.name = some name)
    (hd : searchDocumentOf u h budget row paths = .ok found) : found.isSome = true := by
  obtain ⟨-, rfl⟩ := searchDocumentOf_eq_ok_iff.mp hd
  rw [completeDocument, indexedName, if_pos hcomplete, hname]
  rfl

namespace SameCompleted

variable {u : Unicode} {h : InfoHash} {c c' c'' : Catalogue}

theorem refl (h : InfoHash) (c : Catalogue) : SameCompleted h c c := ⟨rfl, rfl, rfl, rfl⟩

theorem shows (hs : SameCompleted h c c') {m : TorrentMetadata} (hm : Shows u h m c) :
    Shows u h m c' where
  row := hs.row.trans hm.row
  files := hs.files.trans hm.files
  document := by
    obtain ⟨budget, document, hd, hrow⟩ := hm.document
    obtain ⟨row, hl, hcomplete, hstored⟩ := completedRow_eq_some.mp hm.row
    obtain ⟨row', hl', hcomplete', hstored'⟩ := completedRow_eq_some.mp (hs.row.trans hm.row)
    refine ⟨budget, document, ?_, hs.document.trans hrow⟩
    have hname : row'.name = row.name := congrArg StoredMetadata.name (hstored'.trans hstored.symm)
    rw [← hd]
    simp only [searchDocument, hl, hl', hs.files]
    exact searchDocumentOf_congr (hcomplete'.trans hcomplete.symm) hname

end SameCompleted

theorem CompletedOk.of_same {u : Unicode} {allowed : InfoHash → TorrentMetadata → Prop}
    {c c' : Catalogue} {h : InfoHash} (hi : CompletedOk u allowed c h)
    (hs : SameCompleted h c c') : CompletedOk u allowed c' h where
  agree := by
    rw [hs.row, hs.job]
    exact hi.agree
  shows := by
    rw [hs.row]
    intro hcomplete
    obtain ⟨m, hm, hshows⟩ := hi.shows hcomplete
    exact ⟨m, hm, hs.shows hshows⟩

section Operations

variable {u : Unicode} {allowed : InfoHash → TorrentMetadata → Prop} {c c' : Catalogue}
  {h hash : InfoHash} {now : Int}

/-- A table with the same flags and metadata columns has the same completed row. -/
theorem completedRow_congr (hrow : ∀ row, c.torrents.lookup h = some row →
      ∃ row', c'.torrents.lookup h = some row' ∧
        row'.metadataComplete = row.metadataComplete ∧ row'.stored = row.stored)
    (hnone : c.torrents.lookup h = none →
      ∀ row', c'.torrents.lookup h = some row' → row'.metadataComplete = false) :
    completedRow h c' = completedRow h c := by
  unfold completedRow
  cases hl : c.torrents.lookup h with
  | some row =>
    obtain ⟨row', hl', hcomplete, hstored⟩ := hrow row hl
    rw [hl']
    by_cases hc : row.metadataComplete = true <;> simp_all [Option.filter]
  | none =>
    cases hl' : c'.torrents.lookup h with
    | none => rfl
    | some row' => simp [Option.filter, hnone hl row' hl']

/-- A discovery leaves the job complete or not complete, as the torrent is. -/
theorem discoveredRow_complete {source : String} {peers : Bool} {done : Option Bool}
    {old : Option HashJobRow}
    (hagree : done = some true ↔ (old.any fun row => row.status = .complete) = true) :
    ((discoveredRow now source peers done old).any fun row => row.status = .complete) =
      old.any fun row => row.status = .complete := by
  cases old with
  | none =>
    have hdone : done ≠ some true := by simpa using hagree
    unfold discoveredRow
    cases peers with
    | false => rfl
    | true =>
      match done, hdone with
      | none, _ => rfl
      | some false, _ => rfl
  | some row =>
    simp only [Option.any_some, decide_eq_true_eq] at hagree ⊢
    unfold discoveredRow
    cases peers with
    | false =>
      simp only [Option.map_some, Option.any_some, HashJobRow.onPeerless]
      cases row.status <;> rfl
    | true =>
      match done, hagree with
      | some true, hagree =>
        have hcomplete : row.status = .complete := hagree.mp rfl
        simp [HashJobRow.onCompleteTorrent, hcomplete]
      | none, _ =>
        simp only [Option.any_some, HashJobRow.onNewPeers, HashJobRow.discovered]
        cases row.status <;> rfl
      | some false, _ =>
        simp only [Option.any_some, HashJobRow.onNewPeers, HashJobRow.discovered]
        cases row.status <;> rfl

/-- A discovery says nothing new about completion, given that the flags agree. -/
theorem SameCompleted.discover (hagree : (completedRow h c).isSome = jobComplete h c)
    (now : Int) (hash : InfoHash) (source : String) (peers : Bool) :
    SameCompleted h c (discover now hash source peers c).2 where
  row := by
    refine completedRow_congr ?_ ?_
    · intro row hl
      rw [discover_torrents, AList.lookup_upsert]
      split
      · next hk =>
        subst hk
        simp [hl, TorrentRow.rediscovered, TorrentRow.stored]
      · exact ⟨row, hl, rfl, rfl⟩
    · intro hl row' hl'
      rw [discover_torrents, AList.lookup_upsert] at hl'
      split at hl'
      · next hk =>
        subst hk
        simp only [hl, Option.map_none, Option.getD_none, Option.some.injEq] at hl'
        rw [← hl']
        rfl
      · rw [hl] at hl'
        cases hl'
  files := by rw [discover_files]
  document := by rw [discover_searchDocuments]
  job := by
    rw [jobComplete]
    rw [discover_hashJobs, discoverJob_lookup]
    split
    · next hk =>
      subst hk
      refine discoveredRow_complete ?_
      rw [← jobComplete, ← hagree, completedRow_isSome, Option.map_eq_some_iff]
    · rfl

theorem CompletedOk.discover (hi : CompletedOk u allowed c h) (now : Int) (hash : InfoHash)
    (source : String) (peers : Bool) :
    CompletedOk u allowed (Btfind.discover now hash source peers c).2 h :=
  hi.of_same (.discover hi.agree now hash source peers)

theorem CompletedOk.recordDiscovery (hi : CompletedOk u allowed c h) (now : Int)
    (hash : InfoHash) (source : String) (peers : List PeerContact) (limit : Nat) :
    CompletedOk u allowed (Btfind.recordDiscovery now hash source peers limit c).2 h := by
  rw [recordDiscovery_frame]
  have hs := SameCompleted.discover hi.agree now hash source
    (!(discoveredAddrs peers limit).isEmpty)
  exact hi.of_same ⟨hs.row, hs.files, hs.document, hs.job⟩

theorem CompletedOk.of_core (hi : CompletedOk u allowed c h) (hs : SameCore c c') :
    CompletedOk u allowed c' h := by
  refine hi.of_same ⟨?_, ?_, ?_, ?_⟩
  · simp only [completedRow, hs.torrents]
  · rw [hs.files]
  · rw [hs.searchDocuments]
  · simp only [jobComplete, hs.hashJobs]

theorem CompletedOk.recordRuntimeBatch (hi : CompletedOk u allowed c h) (now : Int)
    (events : List CrawlStatsEvent) (snapshot : Option RuntimeSnapshot) :
    CompletedOk u allowed (Btfind.recordRuntimeBatch now events snapshot c).2 h := by
  refine recordRuntimeBatch_induction (P := fun c => CompletedOk u allowed c h) hi
    (fun c hash source hc => hc.discover now hash source false) ?_
  exact fun c c' hc hsame => hc.of_core hsame

/-- The status that a round writes is not `complete`, and a complete job is not written. -/
theorem SameCompleted.updateJob {status : JobStatus} {attempts n : Nat} {next : Int}
    {failure : String} (hstatus : status ≠ .complete)
    (hu : updateHashJobFailureTx now hash status attempts next failure c = .ok (n, c')) :
    SameCompleted h c c' := by
  unfold updateHashJobFailureTx at hu
  split at hu
  · cases hu
    exact .refl h c
  · next row hl =>
    split at hu
    · cases hu
      exact .refl h c
    · next hopen =>
      cases hu
      refine ⟨rfl, rfl, rfl, ?_⟩
      unfold jobComplete
      rw [AList.lookup_insert_eq]
      split
      · next hk =>
        subst hk
        simp [hl, hstatus, hopen]
      · rfl

theorem SameCompleted.adjustTorrent {f : TorrentRow → TorrentRow}
    {attempts : KeyedTable (InfoHash × SocketAddrV4) PeerAttemptRow}
    (hf : ∀ row, (f row).metadataComplete = row.metadataComplete ∧
      (f row).stored = row.stored) :
    SameCompleted h c { c with
      torrents := c.torrents.adjust hash f, metadataPeerAttempts := attempts } where
  row := by
    refine completedRow_congr ?_ ?_
    · intro row hl
      rw [AList.lookup_adjust]
      split
      · next hk =>
        subst hk
        exact ⟨f row, by simp [hl], hf row⟩
      · exact ⟨row, hl, rfl, rfl⟩
    · intro hl row' hl'
      rw [AList.lookup_adjust] at hl'
      split at hl'
      · next hk =>
        subst hk
        simp [hl] at hl'
      · rw [hl] at hl'
        cases hl'
  files := rfl
  document := rfl
  job := rfl

/-! ## Commits -/

/-- The committed torrent shows the committed metadata. -/
theorem Committed.shows {m : TorrentMetadata} {old : TorrentRow}
    (hc : Committed u now hash m c c' old) : Shows u hash m c' where
  row := completedRow_eq_some.mpr ⟨_, by rw [hc.torrents, AList.lookup_insert], rfl, rfl⟩
  files := by rw [hc.files, filesOf_replaced]
  document := by
    obtain ⟨budget, found, hrow, hd⟩ := hc.document
    obtain ⟨document, hsome⟩ :=
      Option.isSome_iff_exists.mp (searchDocumentOf_complete rfl rfl hd)
    refine ⟨budget, document, ?_, by rw [hrow, hsome]⟩
    rw [searchDocument, hc.torrents, AList.lookup_insert]
    simp only
    rw [hc.files, filesOf_replaced, List.map_map, ← hsome]
    exact hd

theorem filesOf_filter_ne {k : InfoHash} (hk : h ≠ k) (files : List FileRow) :
    filesOf h (files.filter fun f => f.torrentId ≠ k) = filesOf h files := by
  rw [filesOf]
  rw [List.filter_filter]
  refine List.filter_congr ?_
  intro f _
  by_cases hf : f.torrentId = h
  · simp [hf, hk]
  · simp [hf]

/-- A commit leaves the other hashes alone. -/
theorem Committed.sameCompleted {m : TorrentMetadata} {old : TorrentRow}
    (hc : Committed u now hash m c c' old) (hne : h ≠ hash) : SameCompleted h c c' where
  row := by
    simp only [completedRow, hc.torrents, discover_torrents, AList.lookup_insert_eq, hne,
      AList.lookup_upsert, if_false]
  files := by
    have hnew : filesOf h (m.files.map fun f => (⟨hash, f.1, f.2⟩ : FileRow)) = [] := by
      rw [filesOf, List.filter_eq_nil_iff]
      intro f hf
      obtain ⟨g, -, rfl⟩ := List.mem_map.mp hf
      simpa using Ne.symm hne
    rw [hc.files, filesOf_append, filesOf_filter_ne hne, hnew, List.append_nil]
  document := hc.documents h hne
  job := by
    simp only [jobComplete, hc.hashJobs, AList.lookup_upsert, discover_hashJobs,
      discoverJob_lookup, hne, if_false]

theorem CompletedOk.commit {m : TorrentMetadata} {packet : Nat} (hi : CompletedOk u allowed c h)
    (hm : allowed hash m) (hc : commitMetadataTx u now packet hash m c = .ok ((), c')) :
    CompletedOk u allowed c' h := by
  obtain ⟨old, hcommitted⟩ := commitMetadataTx_ok hc
  by_cases hk : h = hash
  · subst hk
    have hshows := hcommitted.shows
    refine ⟨?_, fun _ => ⟨m, hm, hshows⟩⟩
    rw [hshows.row, Option.isSome_some, eq_comm, jobComplete_iff, hcommitted.hashJobs,
      AList.lookup_upsert]
    simp only [if_true, Option.some.injEq, exists_eq_left']
    cases (Btfind.discover now h "dht" false c).2.hashJobs.lookup h <;> rfl
  · exact hi.of_same (hcommitted.sameCompleted hk)

/-! ## Prunes -/

theorem CompletedOk.pruneTorrent (hi : CompletedOk u allowed c h)
    (selected : Σ _ : InfoHash, TorrentRow) :
    CompletedOk u allowed (Btfind.pruneTorrent c selected) h := by
  by_cases hk : h = selected.1
  · have hrow : completedRow h (Btfind.pruneTorrent c selected) = none := by
      simp [completedRow, Btfind.pruneTorrent, Catalogue.deleteTorrent, AList.lookup_erase_eq, hk]
    have hjob : jobComplete h (Btfind.pruneTorrent c selected) = false := by
      simp [jobComplete, Btfind.pruneTorrent, Catalogue.deleteTorrent, AList.lookup_erase_eq, hk]
    refine ⟨by rw [hrow, hjob]; rfl, ?_⟩
    rw [hrow]
    rintro ⟨⟩
  · refine hi.of_same ⟨?_, ?_, ?_, ?_⟩
    · simp only [completedRow, Btfind.pruneTorrent, Catalogue.deleteTorrent,
        AList.lookup_erase_eq, hk, if_false]
    · simp only [Btfind.pruneTorrent, Catalogue.deleteTorrent, filesOf_filter_ne hk]
    · simp only [Btfind.pruneTorrent, Catalogue.deleteTorrent, AList.lookup_erase_eq, hk, if_false]
    · simp only [jobComplete, Btfind.pruneTorrent, Catalogue.deleteTorrent,
        AList.lookup_erase_eq, hk, if_false]

theorem CompletedOk.pruneBatch (hi : CompletedOk u allowed c h) (cutoff : Int) :
    CompletedOk u allowed (Btfind.pruneBatch cutoff c) h :=
  List.foldlRecOn (motive := fun c => CompletedOk u allowed c h) _ _ hi
    fun _ hc selected _ => hc.pruneTorrent selected

theorem CompletedOk.migrated : CompletedOk u allowed .migrated h :=
  ⟨rfl, by rintro ⟨⟩⟩

end Operations

end Btfind
