import Btfind.Metadata.SystemInvariant
import Btfind.Store.CompletedTorrents
import Btfind.Store.SearchRebuild

/-!
# The search index in step with the catalogue

Every transaction keeps the stored document of a torrent equal to the one that a rebuild would
build, so a rebuild after any run changes nothing.
-/

namespace Btfind

/-- The stored document of the hash is the one that is built for it. -/
structure Indexed (u : Unicode) (budget : Nat) (c : Catalogue) (h : InfoHash) : Prop where
  document : Searchable c h → searchDocument u h budget c = .ok (c.searchDocuments.lookup h)
  nothingElse : ¬ Searchable c h → c.searchDocuments.lookup h = none
  owned : filesOf h c.files ≠ [] → (c.torrents.lookup h).isSome = true

/-- Two catalogues have the same document to build for the hash, and the same one stored. -/
structure SameIndexed (h : InfoHash) (c c' : Catalogue) : Prop where
  row : ∀ row, c.torrents.lookup h = some row → ∃ row', c'.torrents.lookup h = some row' ∧
    row'.metadataComplete = row.metadataComplete ∧ row'.name = row.name
  unnamed : c.torrents.lookup h = none →
    ∀ row', c'.torrents.lookup h = some row' → row'.isNamed = false
  files : filesOf h c'.files = filesOf h c.files
  document : c'.searchDocuments.lookup h = c.searchDocuments.lookup h

section Operations

variable {u : Unicode} {budget packet : Nat} {c c' : Catalogue} {h hash : InfoHash} {now : Int}
  {source : String} {peers : Bool}

theorem searchable_iff : Searchable c h ↔
    (∃ row, c.torrents.lookup h = some row ∧ row.isNamed = true) ∨ filesOf h c.files ≠ [] := by
  rw [Searchable, ne_eq, filesOf_eq_nil, not_not]

theorem SameIndexed.searchable (hs : SameIndexed h c c') : Searchable c' h ↔ Searchable c h := by
  rw [searchable_iff, searchable_iff, hs.files]
  refine or_congr ?_ Iff.rfl
  cases hl : c.torrents.lookup h with
  | none =>
    constructor
    · rintro ⟨row', hrow', hnamed⟩
      rw [hs.unnamed hl row' hrow'] at hnamed
      cases hnamed
    · rintro ⟨row, ⟨⟩, -⟩
  | some row =>
    obtain ⟨row', hrow', hcomplete, hname⟩ := hs.row row hl
    have hnamed : row'.isNamed = row.isNamed := by
      rw [TorrentRow.isNamed, TorrentRow.isNamed, hcomplete, hname]
    simp [hrow', hnamed]

theorem Indexed.of_same (hi : Indexed u budget c h) (hs : SameIndexed h c c') :
    Indexed u budget c' h where
  document := by
    intro hsearchable
    rw [hs.searchable] at hsearchable
    rw [hs.document, ← hi.document hsearchable]
    have hrow : ∃ row, c.torrents.lookup h = some row := by
      obtain ⟨row, hrow, -⟩ | hfiles := searchable_iff.mp hsearchable
      · exact ⟨row, hrow⟩
      · exact Option.isSome_iff_exists.mp (hi.owned hfiles)
    obtain ⟨row, hrow⟩ := hrow
    obtain ⟨row', hrow', hcomplete, hname⟩ := hs.row row hrow
    rw [searchDocument, searchDocument, hrow, hrow', hs.files]
    exact searchDocumentOf_congr hcomplete hname
  nothingElse := by
    rw [hs.searchable, hs.document]
    exact hi.nothingElse
  owned := by
    rw [hs.files]
    intro hfiles
    obtain ⟨row, hrow⟩ := Option.isSome_iff_exists.mp (hi.owned hfiles)
    obtain ⟨row', hrow', -⟩ := hs.row row hrow
    rw [hrow']
    rfl

theorem SameIndexed.of_tables (htorrents : c'.torrents = c.torrents) (hfiles : c'.files = c.files)
    (hdocuments : c'.searchDocuments = c.searchDocuments) : SameIndexed h c c' where
  row := by
    rw [htorrents]
    exact fun row hrow => ⟨row, hrow, rfl, rfl⟩
  unnamed := by
    rw [htorrents]
    intro hnone row' hrow'
    rw [hnone] at hrow'
    cases hrow'
  files := by rw [hfiles]
  document := by rw [hdocuments]

theorem SameIndexed.discover : SameIndexed h c (discover now hash source peers c).2 where
  row := by
    intro row hrow
    rw [discover_torrents, AList.lookup_upsert]
    split
    · next hk =>
      subst hk
      exact ⟨row.rediscovered now source, by rw [hrow]; rfl, rfl, rfl⟩
    · exact ⟨row, hrow, rfl, rfl⟩
  unnamed := by
    intro hnone row' hrow'
    rw [discover_torrents, AList.lookup_upsert] at hrow'
    split at hrow'
    · next hk =>
      subst hk
      rw [hnone] at hrow'
      cases hrow'
      rfl
    · rw [hnone] at hrow'
      cases hrow'
  files := by rw [discover_files]
  document := by rw [discover_searchDocuments]

theorem Indexed.recordDiscovery (hi : Indexed u budget c h) {contacts : List PeerContact}
    {limit : Nat} : Indexed u budget (recordDiscovery now hash source contacts limit c).2 h := by
  rw [recordDiscovery_frame]
  have hdiscovered : Indexed u budget (discover now hash source
      (!(discoveredAddrs contacts limit).isEmpty) c).2 h := hi.of_same .discover
  exact hdiscovered.of_same (.of_tables rfl rfl rfl)

theorem Indexed.recordRuntimeBatch (hi : Indexed u budget c h) {events : List CrawlStatsEvent}
    {snapshot : Option RuntimeSnapshot} :
    Indexed u budget (recordRuntimeBatch now events snapshot c).2 h := by
  refine recordRuntimeBatch_induction (P := fun c => Indexed u budget c h) hi
    (fun _ _ _ hc => hc.of_same .discover) ?_
  intro c c' hc hsame
  exact hc.of_same (.of_tables hsame.torrents hsame.files hsame.searchDocuments)

theorem SameIndexed.adjustTorrent {f : TorrentRow → TorrentRow}
    {attempts : KeyedTable (InfoHash × SocketAddrV4) PeerAttemptRow}
    (hf : ∀ row, (f row).metadataComplete = row.metadataComplete ∧ (f row).name = row.name) :
    SameIndexed h c { c with
      torrents := c.torrents.adjust hash f, metadataPeerAttempts := attempts } where
  row := by
    intro row hrow
    rw [AList.lookup_adjust]
    split
    · next hk =>
      subst hk
      exact ⟨f row, by rw [hrow]; rfl, hf row⟩
    · exact ⟨row, hrow, rfl, rfl⟩
  unnamed := by
    intro hnone row' hrow'
    rw [AList.lookup_adjust] at hrow'
    split at hrow'
    · next hk =>
      subst hk
      rw [hnone] at hrow'
      cases hrow'
    · rw [hnone] at hrow'
      cases hrow'
  files := rfl
  document := rfl

/-! ## Commits and prunes -/

theorem refreshSearch_indexed (hlimits : SearchLimits.forPacket packet = .ok budget)
    (h : refreshSearch u packet hash c = .ok c') :
    searchDocument u hash budget c' = .ok (c'.searchDocuments.lookup hash) := by
  rw [refreshSearch, hlimits] at h
  have hwithin : refreshSearchWithin u budget hash c = .ok c' := h
  rw [refreshSearchWithin] at hwithin
  split at hwithin
  · cases hwithin
  · next document hd =>
    cases hwithin
    rw [AList.lookup_insert]
    exact hd
  · next hd =>
    cases hwithin
    rw [AList.lookup_erase]
    exact hd

/-- A commit leaves the document that the committed torrent is to have. -/
theorem commitMetadataTx_indexed {m : TorrentMetadata}
    (hlimits : SearchLimits.forPacket packet = .ok budget)
    (h : commitMetadataTx u now packet hash m c = .ok ((), c')) :
    searchDocument u hash budget c' = .ok (c'.searchDocuments.lookup hash) := by
  rw [commitMetadataTx] at h
  simp only at h
  split at h
  · cases h
  · obtain ⟨found, hsearch, hrest⟩ := Transaction.ok_of_bind h
    cases hrest
    have hindexed := refreshSearch_indexed hlimits hsearch
    exact (searchDocument_congr (c := found) rfl rfl).trans hindexed

theorem Committed.sameIndexed {m : TorrentMetadata} {old : TorrentRow}
    (hc : Committed u now hash m c c' old) (hne : h ≠ hash) : SameIndexed h c c' where
  row := by
    intro row hrow
    refine ⟨row, ?_, rfl, rfl⟩
    rw [hc.torrents, AList.lookup_insert_ne hne, discover_torrents, AList.lookup_upsert,
      if_neg hne, hrow]
  unnamed := by
    intro hnone row' hrow'
    rw [hc.torrents, AList.lookup_insert_ne hne, discover_torrents, AList.lookup_upsert,
      if_neg hne, hnone] at hrow'
    cases hrow'
  files := (hc.sameCompleted hne).files
  document := hc.documents h hne

theorem Indexed.commit {m : TorrentMetadata} (hi : Indexed u budget c h)
    (hlimits : SearchLimits.forPacket packet = .ok budget)
    (hc : commitMetadataTx u now packet hash m c = .ok ((), c')) : Indexed u budget c' h := by
  obtain ⟨old, hcommitted⟩ := commitMetadataTx_ok hc
  by_cases hk : h = hash
  · subst hk
    have hdocument := commitMetadataTx_indexed hlimits hc
    refine ⟨fun _ => hdocument, ?_, ?_⟩
    · intro hs
      rw [← (searchDocument_ok hdocument).1, Bool.not_eq_true, Option.isSome_eq_false_iff,
        Option.isNone_iff_eq_none] at hs
      exact hs
    · intro _
      rw [hcommitted.torrents, AList.lookup_insert]
      rfl
  · exact hi.of_same (hcommitted.sameIndexed hk)

theorem Indexed.pruneTorrent (hi : Indexed u budget c h) (selected : Σ _ : InfoHash, TorrentRow) :
    Indexed u budget (pruneTorrent c selected) h := by
  by_cases hk : h = selected.1
  · subst hk
    have hfiles : filesOf selected.1 (Btfind.pruneTorrent c selected).files = [] := by
      simp [Btfind.pruneTorrent, Catalogue.deleteTorrent, filesOf]
    have hrow : (Btfind.pruneTorrent c selected).torrents.lookup selected.1 = none :=
      AList.lookup_erase ..
    refine ⟨?_, fun _ => AList.lookup_erase .., fun hne => absurd hfiles hne⟩
    intro hs
    obtain ⟨row, hsome, -⟩ | hne := searchable_iff.mp hs
    · rw [hrow] at hsome
      cases hsome
    · exact absurd hfiles hne
  · refine hi.of_same ⟨?_, ?_, ?_, AList.lookup_erase_ne hk⟩
    · intro row hrow
      exact ⟨row, (AList.lookup_erase_ne hk).trans hrow, rfl, rfl⟩
    · intro hnone row' hrow'
      rw [show (Btfind.pruneTorrent c selected).torrents.lookup h = c.torrents.lookup h from
        AList.lookup_erase_ne hk, hnone] at hrow'
      cases hrow'
    · simp only [Btfind.pruneTorrent, Catalogue.deleteTorrent]
      rw [filesOf_filter_ne hk, filesOf_filter_ne hk]

theorem Indexed.pruneBatch (hi : Indexed u budget c h) (cutoff : Int) :
    Indexed u budget (pruneBatch cutoff c) h :=
  List.foldlRecOn (motive := fun c => Indexed u budget c h) _ _ hi
    fun _ hc selected _ => hc.pruneTorrent selected

end Operations

namespace System

open Transition

variable {u : Unicode} {budget packet fuel : Nat} {env : SystemEnv} {y y' z : System}
  {e : SystemEvent} {k : InfoHash} {c : Catalogue}

/-- The server has this packet limit whenever a round commits. -/
def PacketLimit (packet : Nat) (_ : System) (e : SystemEvent) : Prop :=
  ∀ index choice, e = .worked index choice → choice.turn.maxAllowedPacket = packet

theorem Changes.indexed (hlimits : SearchLimits.forPacket packet = .ok budget)
    (hpacket : PacketLimit packet y e) (hc : Changes env y e c)
    (hi : Indexed env.round.unicode budget y.store.catalogue k) :
    Indexed env.round.unicode budget c k := by
  cases hc with
  | kept => exact hi
  | recorded => exact hi.recordDiscovery
  | batched => exact hi.recordRuntimeBatch
  | worked hw hwrites =>
    cases hwrites with
    | attempt => exact hi.of_same (.adjustTorrent fun _ => ⟨rfl, rfl⟩)
    | commit hphase hcommit =>
      rw [hpacket _ _ rfl] at hcommit
      exact hi.commit hlimits hcommit
    | update _ _ hupdate =>
      rw [updateHashJobFailureTx_frame hupdate]
      exact hi.of_same (.of_tables rfl rfl rfl)
  | prunedTorrents => exact hi.pruneBatch _
  | prunedAttempts => exact hi.of_same (.of_tables rfl rfl rfl)
  | reconciled => exact hi.of_same (.of_tables rfl rfl rfl)

/-- In every run the stored documents are the ones that a rebuild would build. -/
theorem run_indexed {y₀ : System} {es : List SystemEvent}
    (hlimits : SearchLimits.forPacket packet = .ok budget) (hs : StartsMigrated y₀)
    (h : Run (Guarded (PacketLimit packet) (Step env)) y₀ es y) :
    Indexed env.round.unicode budget y.store.catalogue k := by
  refine h.invariant (I := fun y => Indexed env.round.unicode budget y.store.catalogue k) ?_ ?_
  · rintro y e y' hi ⟨hpacket, hstep⟩
    exact hstep.lift (fun _ _ hz => hz) fun z hz => hz.changes.indexed hlimits hpacket hi
  · rw [hs.2]
    refine ⟨?_, fun _ => rfl, fun hne => absurd rfl hne⟩
    rintro (⟨row, ⟨⟩, -⟩ | ⟨f, hf, -⟩)
    exact absurd hf List.not_mem_nil

end System

section Refinement

variable {u : Unicode} {budget packet fuel : Nat} {c : Catalogue}

theorem Indexed.references (hi : ∀ h, Indexed u budget c h) : c.References where
  files := by
    intro f hf
    refine (hi f.torrentId).owned ?_
    rw [ne_eq, filesOf_eq_nil, not_not]
    exact ⟨f, hf, rfl⟩
  searchDocuments := by
    intro h hdocument
    by_cases hs : Searchable c h
    · obtain ⟨row, hrow, -⟩ | hfiles := searchable_iff.mp hs
      · rw [hrow]
        rfl
      · exact (hi h).owned hfiles
    · rw [(hi h).nothingElse hs] at hdocument
      cases hdocument

/-- A rebuild of an index in step with the catalogue leaves it as it is. -/
theorem Indexed.rebuild (hlimits : SearchLimits.forPacket packet = .ok budget)
    (hi : ∀ h, Indexed u budget c h) (hfuel : (searchableHashes c).length < fuel) :
    ∃ s, rebuildSearchIndex u packet fuel c = (some (.ok ()), s) ∧
      s.catalogue = { c with searchDocuments := s.catalogue.searchDocuments } ∧
      ∀ h, s.catalogue.searchDocuments.lookup h = c.searchDocuments.lookup h := by
  have hfits : ∀ h, Searchable c h →
      searchDocument u h budget c ≠ .error (.documentTooLarge h budget) := by
    intro h hs
    rw [(hi h).document hs]
    rintro ⟨⟩
  obtain ⟨s, hok, hexact⟩ := rebuildSearchIndex_exact hlimits (Indexed.references hi) hfits hfuel
  refine ⟨s, hok, hexact.frame, ?_⟩
  intro h
  by_cases hs : Searchable c h
  · obtain ⟨document, hbuilt, hstored⟩ := hexact.documents h hs
    rw [(hi h).document hs] at hbuilt
    rw [hstored, Except.ok.inj hbuilt]
  · rw [hexact.nothingElse h hs, (hi h).nothingElse hs]

/-- A rebuild leaves exactly the documents of the searchable hashes, and after any run of the
program, whose documents the commits have written, it changes nothing. -/
theorem rebuild_equals_ingestion (hlimits : SearchLimits.forPacket packet = .ok budget) :
    (∀ u c fuel, c.References →
      (∀ h, Searchable c h →
        searchDocument u h budget c ≠ .error (.documentTooLarge h budget)) →
      (searchableHashes c).length < fuel →
      ∃ s, rebuildSearchIndex u packet fuel c = (some (.ok ()), s) ∧ s.Exact u budget c) ∧
    ∀ env y₀ es y fuel, System.StartsMigrated y₀ →
      Transition.Run (Transition.Guarded (System.PacketLimit packet) (System.Step env)) y₀ es y →
      (searchableHashes y.store.catalogue).length < fuel →
      ∃ s, rebuildSearchIndex env.round.unicode packet fuel y.store.catalogue =
          (some (.ok ()), s) ∧
        s.catalogue =
          { y.store.catalogue with searchDocuments := s.catalogue.searchDocuments } ∧
        ∀ h, s.catalogue.searchDocuments.lookup h =
          y.store.catalogue.searchDocuments.lookup h :=
  ⟨fun _ _ _ hr hfits hfuel => rebuildSearchIndex_exact hlimits hr hfits hfuel,
    fun _ _ _ _ _ hs hrun hfuel =>
      Indexed.rebuild hlimits (fun _ => System.run_indexed hlimits hs hrun) hfuel⟩

/-- A missing document is built and an obsolete one is deleted, and after a run with a commit a
rebuild changes nothing. -/
theorem rebuild_equals_ingestion_committed :
    let c : Catalogue := { Catalogue.migrated with
      torrents := AList.insert 7 ⟨some "ab", some 1, 1, 1, "dht", 0, 0, 0, true⟩
        (AList.insert 9 (.discovered 0 "dht") ∅)
      files := [⟨7, "c/d", 1⟩]
      searchDocuments := AList.insert 9 ⟨"obsolete", ""⟩ ∅ }
    let info : BencodeDict :=
      [(asBytes "name", .bytes [97]), (asBytes "piece length", .int 16384),
        (asBytes "length", .int 5)]
    let env : SystemEnv :=
      ⟨⟨.ascii, ⟨fun _ => 7, fun _ => .ok (.dict info)⟩, 24⟩,
        ⟨1, 1, 1, 1, by decide, by decide, by decide, by decide⟩⟩
    let turn : Turn := ⟨1, 1048576, .commits⟩
    let start : System := ⟨.migrated, .empty, .idle, 0, [], []⟩
    let script : List SystemEvent :=
      [.discovered ⟨7, [⟨⟨⟨10, 0, 0, 1⟩, 6881⟩⟩], .announcePeer⟩ 1, .lookedUp, .attempted turn,
        .removed .commits, .admitted, .dispatched] ++
        List.replicate 6 (.worked 0 ⟨turn, .ok [], 0⟩)
    (∃ s, rebuildSearchIndex .ascii 1048576 2 c = (some (.ok ()), s) ∧
      s.catalogue.searchDocuments.lookup 7 = some ⟨"ab", "c d"⟩ ∧
      s.catalogue.searchDocuments.lookup 9 = none) ∧
    ∃ y s, System.play env script start = some y ∧
      (y.store.catalogue.searchDocuments.lookup 7).isSome = true ∧
      rebuildSearchIndex .ascii 1048576 2 y.store.catalogue = (some (.ok ()), s) ∧
      ∀ h, s.catalogue.searchDocuments.lookup h =
        y.store.catalogue.searchDocuments.lookup h := by
  intro c info env turn start script
  have hlimits : SearchLimits.forPacket 1048576 = .ok 1032192 := rfl
  constructor
  -- The document of 7 is missing and the one of 9 is obsolete.
  · have hall : searchableHashes c = [7] := by decide
    have hdocument : searchDocument .ascii 7 1032192 c = .ok (some ⟨"ab", "c d"⟩) := by decide
    have hr : c.References := by
      constructor
      · decide
      · intro h hdocument
        rw [AList.lookup_insert_eq] at hdocument
        split at hdocument
        · next hk =>
          subst hk
          decide
        · cases hdocument
    obtain ⟨s, hok, hexact⟩ := (rebuild_equals_ingestion hlimits).1 .ascii c 2 hr (by
      intro h hs
      rw [← mem_searchableHashes, hall, List.mem_singleton] at hs
      rw [hs, hdocument]
      rintro ⟨⟩) (by rw [hall]; decide)
    refine ⟨s, hok, ?_, ?_⟩
    · obtain ⟨document, hbuilt, hstored⟩ := hexact.documents 7
        (mem_searchableHashes.mp (by rw [hall]; decide))
      rw [hdocument] at hbuilt
      rw [hstored, Option.some.inj (Except.ok.inj hbuilt)]
    · exact hexact.nothingElse 9 (mem_searchableHashes.not.mp (by rw [hall]; decide))
  -- The script discovers 7, fetches its metadata and commits it.
  · have hrun : (System.play env script start).any (fun y =>
        (y.store.catalogue.searchDocuments.lookup 7).isSome ∧
          searchableHashes y.store.catalogue = [7]) = true := by
      decide
    obtain ⟨y, hplay, hy⟩ := (Option.any_eq_true _ _).mp hrun
    obtain ⟨hindexed, hall⟩ := of_decide_eq_true hy
    have hguard : ∀ e ∈ script, ∀ s, System.PacketLimit 1048576 s e := by
      rintro e he s index choice rfl
      simp only [script, List.mem_append, List.mem_cons, List.not_mem_nil, List.mem_replicate,
        reduceCtorEq, SystemEvent.worked.injEq, false_or, ne_eq, OfNat.ofNat_ne_zero,
        not_false_eq_true, true_and] at he
      rw [he.2]
    obtain ⟨s, hok, -, hsame⟩ := (rebuild_equals_ingestion hlimits).2 env start script y 2
      ⟨⟨rfl, rfl, rfl, rfl⟩, rfl⟩ ((System.play_run hplay).guarded hguard)
      (by rw [hall]; decide)
    exact ⟨y, s, hplay, hindexed, hok, hsame⟩

end Refinement

end Btfind
