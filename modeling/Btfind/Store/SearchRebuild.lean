import Mathlib.Data.List.Dedup
import Btfind.Library.Batches
import Btfind.Library.Paging
import Btfind.Store.SearchText

/-!
# Rebuilding the search index

The loop of `rebuild_search_index`: pages of hashes, the documents of a page in writes of bounded
size. No other writer runs, so the torrents and files stay as they are.
-/

namespace Btfind

open Paging

def searchBatchBytes : Nat := 1024 * 1024

/-- `SearchLimits::batch_bytes`, from the limit of one document. -/
def SearchLimits.batchBytes (documentBytes : Nat) : Nat := min documentBytes searchBatchBytes

abbrev SearchDocument := InfoHash × SearchDocumentRow

/-- `document.0.len() + document.1.len() + document.2.len() + 128` -/
def documentSize (document : SearchDocument) : Nat :=
  (hexEncode document.1).utf8ByteSize + document.2.name.utf8ByteSize +
    document.2.paths.utf8ByteSize + 128

/-- A document that the first statement deletes: its torrent has no metadata and no files. -/
def isObsolete (c : Catalogue) (hash : InfoHash) : Bool :=
  (c.torrents.lookup hash).any (fun row => !row.metadataComplete || row.name.isNone) &&
    !c.files.any fun f => f.torrentId = hash

def deleteObsolete (c : Catalogue) : Catalogue :=
  { c with searchDocuments := c.searchDocuments.keep fun hash _ => !isObsolete c hash }

/-- The texts of hashes have one length, so they are ordered as the numbers; `none` is the empty
text that the first page starts after. -/
def afterHash (after : Option InfoHash) (hash : InfoHash) : Bool :=
  isAfter BitVec.toNat after hash

def namedTorrents (c : Catalogue) : List InfoHash :=
  (c.torrents.entries.filter fun e => e.2.metadataComplete && e.2.name.isSome).map Sigma.fst

/-- The two limited queries, their union and the limit of the union. -/
def pageHashes (after : Option InfoHash) (c : Catalogue) : List InfoHash :=
  let named := (inOrder BitVec.toNat ((namedTorrents c).filter (afterHash after))).take 128
  let owners := (inOrder BitVec.toNat
    ((c.files.map FileRow.torrentId).filter (afterHash after)).dedup).take 128
  (inOrder BitVec.toNat (named ++ owners).dedup).take 128

def duplicateDocument : StoreError :=
  .database false "Duplicate entry for key 'search_documents.PRIMARY'"

def insertSearchDocuments : List SearchDocument → KeyedTable InfoHash SearchDocumentRow →
    Except StoreError (KeyedTable InfoHash SearchDocumentRow)
  | [], table => .ok table
  | (hash, row) :: documents, table =>
    if (table.lookup hash).isSome then .error duplicateDocument
    else insertSearchDocuments documents (table.insert hash row)

/-- The transaction of `replace_search_documents`. -/
def replaceSearchDocuments (documents : List SearchDocument) (c : Catalogue) :
    Except StoreError Catalogue :=
  let kept := c.searchDocuments.keep fun hash _ => hash ∉ documents.map Prod.fst
  match insertSearchDocuments documents kept with
  | .error e => .error e
  | .ok table => .ok { c with searchDocuments := table }

/-- The local variables of the loop. `visited` and `writes` record the hashes of the pages and
the writes so far. -/
structure SearchRebuild where
  catalogue : Catalogue
  visited : List InfoHash
  writes : List (List SearchDocument)
  documents : List SearchDocument
  bytes : Nat

namespace SearchRebuild

def start (c : Catalogue) : SearchRebuild := ⟨c, [], [], [], 0⟩

/-- Write the collected documents and start collecting anew. -/
def flush (s : SearchRebuild) : Except StoreError Unit × SearchRebuild :=
  match replaceSearchDocuments s.documents s.catalogue with
  | .error e => (.error e, s)
  | .ok c =>
    (.ok (), { s with catalogue := c, writes := s.writes ++ [s.documents], documents := [], bytes := 0 })

def addDocument (documentBytes : Nat) (document : SearchDocument) (s : SearchRebuild) :
    Except StoreError Unit × SearchRebuild :=
  let size := documentSize document
  let batchBytes := SearchLimits.batchBytes documentBytes
  match if s.documents ≠ [] ∧ batchBytes < s.bytes + size then s.flush else (.ok (), s) with
  | (.error e, s) => (.error e, s)
  | (.ok (), s) =>
    let s := { s with documents := s.documents ++ [document], bytes := s.bytes + size }
    if batchBytes ≤ s.bytes then s.flush else (.ok (), s)

def visit (u : Unicode) (documentBytes : Nat) (hash : InfoHash) (s : SearchRebuild) :
    Except StoreError Unit × SearchRebuild :=
  let s := { s with visited := s.visited ++ [hash] }
  match searchDocument u hash documentBytes s.catalogue with
  | .error e => (.error e, s)
  | .ok none => (.ok (), s)
  | .ok (some row) => s.addDocument documentBytes (hash, row)

def visitAll (u : Unicode) (documentBytes : Nat) :
    List InfoHash → SearchRebuild → Except StoreError Unit × SearchRebuild
  | [], s => (.ok (), s)
  | hash :: hashes, s =>
    match s.visit u documentBytes hash with
    | (.error e, s) => (.error e, s)
    | (.ok (), s) => visitAll u documentBytes hashes s

def page (u : Unicode) (documentBytes : Nat) (hashes : List InfoHash) (s : SearchRebuild) :
    Except StoreError Unit × SearchRebuild :=
  match { s with documents := [], bytes := 0 }.visitAll u documentBytes hashes with
  | (.error e, s) => (.error e, s)
  | (.ok (), s) => if s.documents ≠ [] then s.flush else (.ok (), s)

/-- The loop over the pages; `none` while it has not returned. -/
def loop (u : Unicode) (documentBytes : Nat) :
    Nat → Option InfoHash → SearchRebuild → Option (Except StoreError Unit) × SearchRebuild
  | 0, _, s => (none, s)
  | fuel + 1, after, s =>
    let hashes := pageHashes after s.catalogue
    if hashes = [] then (some (.ok ()), s)
    else
      match s.page u documentBytes hashes with
      | (.error e, s) => (some (.error e), s)
      | (.ok (), s) => loop u documentBytes fuel hashes.getLast? s

end SearchRebuild

/-- What `rebuild_search_index` does with the limits that it has loaded. -/
def rebuildWithin (u : Unicode) (fuel : Nat) (c : Catalogue) :
    Except StoreError Nat → Option (Except StoreError Unit) × SearchRebuild
  | .error e => (some (.error e), .start c)
  | .ok documentBytes => (SearchRebuild.start (deleteObsolete c)).loop u documentBytes fuel none

/-- `rebuild_search_index` with the packet limit of the server. -/
def rebuildSearchIndex (u : Unicode) (packet fuel : Nat) (c : Catalogue) :
    Option (Except StoreError Unit) × SearchRebuild :=
  rebuildWithin u fuel c (SearchLimits.forPacket packet)

/-! ## Documents -/

section Documents

variable {u : Unicode} {hash : InfoHash} {budget : Nat} {row : TorrentRow} {paths : List String}
  {c c' : Catalogue}

/-- The torrent has a name to index: it has its metadata. -/
def TorrentRow.isNamed (row : TorrentRow) : Bool := row.metadataComplete && row.name.isSome

theorem isSome_indexedName (row : TorrentRow) : (indexedName row).isSome = row.isNamed := by
  rw [indexedName, TorrentRow.isNamed]
  cases row.metadataComplete <;> rfl

/-- A document is built for a name or for paths, and fits the budget with its hash. -/
theorem searchDocumentOf_ok {found : Option SearchDocumentRow}
    (h : searchDocumentOf u hash budget row paths = .ok found) :
    ∃ document, documentSize (hash, document) ≤ budget ∧
      found = if row.isNamed || !paths.isEmpty then some document else none := by
  obtain ⟨hfits, rfl⟩ := searchDocumentOf_eq_ok_iff.mp h
  refine ⟨⟨documentName u row, documentPaths u paths⟩, ?_, ?_⟩
  · have htotal := hfits.total
    rw [documentSize]
    simp only
    omega
  · rw [completeDocument, isSome_indexedName]

theorem searchDocument_congr (htorrents : c'.torrents = c.torrents) (hfiles : c'.files = c.files) :
    searchDocument u hash budget c' = searchDocument u hash budget c := by
  rw [searchDocument, searchDocument, htorrents, hfiles]

/-- A hash that a document is to be built for. -/
def Searchable (c : Catalogue) (hash : InfoHash) : Prop :=
  (∃ row, c.torrents.lookup hash = some row ∧ row.isNamed = true) ∨
    ∃ f ∈ c.files, f.torrentId = hash

theorem filesOf_eq_nil {files : List FileRow} :
    filesOf hash files = [] ↔ ¬ ∃ f ∈ files, f.torrentId = hash := by
  simp [filesOf]

theorem searchDocument_ok {found : Option SearchDocumentRow}
    (h : searchDocument u hash budget c = .ok found) :
    (found.isSome = true ↔ Searchable c hash) ∧
      ∀ document, found = some document → documentSize (hash, document) ≤ budget := by
  rw [searchDocument] at h
  split at h
  · cases h
  · next row hrow =>
    obtain ⟨document, hsize, rfl⟩ := searchDocumentOf_ok h
    constructor
    · have hpaths : (!((filesOf hash c.files).map FileRow.path).isEmpty) = true ↔
          ∃ f ∈ c.files, f.torrentId = hash := by
        rw [← not_iff_not, ← filesOf_eq_nil]
        simp
      rw [Searchable, hrow, ← hpaths]
      simp only [Option.some.injEq, exists_eq_left']
      rw [← Bool.or_eq_true]
      split
      · next hpresent => exact iff_of_true rfl hpresent
      · next habsent => exact iff_of_false Bool.false_ne_true habsent
    · intro document' heq
      split at heq
      · cases heq
        exact hsize
      · cases heq

end Documents

/-! ## Writes -/

theorem insertSearchDocuments_ok {documents : List SearchDocument}
    {table : KeyedTable InfoHash SearchDocumentRow} (hdistinct : (documents.map Prod.fst).Nodup)
    (hfree : ∀ d ∈ documents, table.lookup d.1 = none) :
    ∃ table', insertSearchDocuments documents table = .ok table' ∧
      (∀ d ∈ documents, table'.lookup d.1 = some d.2) ∧
      ∀ k, k ∉ documents.map Prod.fst → table'.lookup k = table.lookup k := by
  induction documents generalizing table with
  | nil => exact ⟨table, rfl, List.forall_mem_nil _, fun _ _ => rfl⟩
  | cons d documents ih =>
    obtain ⟨hash, row⟩ := d
    obtain ⟨hfirst, hdistinct⟩ := List.nodup_cons.mp hdistinct
    obtain ⟨hnone, hfree⟩ := List.forall_mem_cons.mp hfree
    have hfree' : ∀ d ∈ documents, (table.insert hash row).lookup d.1 = none := by
      intro d hd
      have hne : d.1 ≠ hash := by
        rintro rfl
        exact hfirst (List.mem_map.mpr ⟨d, hd, rfl⟩)
      rw [AList.lookup_insert_ne hne]
      exact hfree d hd
    obtain ⟨table', hok, hstored, hkept⟩ := ih hdistinct hfree'
    refine ⟨table', ?_, ?_, ?_⟩
    · rw [insertSearchDocuments, if_neg (by simp [show table.lookup hash = none from hnone])]
      exact hok
    · refine List.forall_mem_cons.mpr ⟨?_, hstored⟩
      rw [hkept hash hfirst, AList.lookup_insert]
    · intro k hk
      rw [List.map_cons, List.mem_cons, not_or] at hk
      rw [hkept k hk.2, AList.lookup_insert_ne hk.1]

/-- Distinct documents replace what is stored for their hashes. -/
theorem replaceSearchDocuments_ok {documents : List SearchDocument} {c : Catalogue}
    (hdistinct : (documents.map Prod.fst).Nodup) :
    ∃ c', replaceSearchDocuments documents c = .ok c' ∧
      c' = { c with searchDocuments := c'.searchDocuments } ∧
      (∀ d ∈ documents, c'.searchDocuments.lookup d.1 = some d.2) ∧
      ∀ k, k ∉ documents.map Prod.fst →
        c'.searchDocuments.lookup k = c.searchDocuments.lookup k := by
  let kept := c.searchDocuments.keep fun hash _ => hash ∉ documents.map Prod.fst
  have hfree : ∀ d ∈ documents, kept.lookup d.1 = none := by
    intro d hd
    rw [AList.lookup_keep, Option.filter_eq_none_iff]
    intro row _ hkeep
    exact of_decide_eq_true hkeep (List.mem_map_of_mem hd)
  obtain ⟨table, hok, hstored, hothers⟩ := insertSearchDocuments_ok hdistinct hfree
  refine ⟨{ c with searchDocuments := table }, ?_, rfl, hstored, ?_⟩
  · rw [replaceSearchDocuments, hok]
  · intro k hk
    rw [hothers k hk, AList.lookup_keep]
    cases hrow : c.searchDocuments.lookup k with
    | none => rfl
    | some row => rw [Option.filter_some, if_pos (decide_eq_true hk)]

namespace SearchRebuild

variable {u : Unicode} {documentBytes : Nat} {c : Catalogue} {row : InfoHash → SearchDocumentRow}
  {written : List (List SearchDocument)} {b : Batches SearchDocument} {s : SearchRebuild}
  {document : SearchDocument} {hashes : List InfoHash}

/-- The documents of hashes, each with its row. -/
def documentsOf (row : InfoHash → SearchDocumentRow) (hashes : List InfoHash) :
    List SearchDocument :=
  hashes.map fun hash => (hash, row hash)

/-- Only documents have changed, and every written one is stored. -/
structure Stands (c : Catalogue) (row : InfoHash → SearchDocumentRow) (s : SearchRebuild) :
    Prop where
  frame : s.catalogue = { c with searchDocuments := s.catalogue.searchDocuments }
  stored : ∀ h, s.catalogue.searchDocuments.lookup h =
    if h ∈ s.writes.flatten.map Prod.fst then some (row h) else c.searchDocuments.lookup h

/-- The writes since the start of the page and the collected documents are these batches. -/
structure Collects (written : List (List SearchDocument)) (b : Batches SearchDocument)
    (s : SearchRebuild) : Prop where
  writes : s.writes = written ++ b.closed
  documents : s.documents = b.current
  bytes : s.bytes = (b.current.map documentSize).sum

/-- Distinct documents with their rows. -/
structure Fair (row : InfoHash → SearchDocumentRow) (documents : List SearchDocument) : Prop where
  distinct : (documents.map Prod.fst).Nodup
  rows : ∀ d ∈ documents, d.2 = row d.1

theorem Fair.sublist {documents more : List SearchDocument} (h : Fair row more)
    (hsub : documents.Sublist more) : Fair row documents :=
  ⟨h.distinct.sublist (hsub.map _), fun d hd => h.rows d (hsub.mem hd)⟩

theorem fair_documentsOf (h : hashes.Nodup) : Fair row (documentsOf row hashes) := by
  constructor
  · rwa [documentsOf, List.map_map, show Prod.fst ∘ (fun hash => (hash, row hash)) = id from rfl,
      List.map_id]
  · intro d hd
    obtain ⟨hash, -, rfl⟩ := List.mem_map.mp hd
    rfl

/-- `bytes + size > limits.batch_bytes` -/
def isFull (documentBytes : Nat) (batch : List SearchDocument) (document : SearchDocument) : Bool :=
  SearchLimits.batchBytes documentBytes < (batch.map documentSize).sum + documentSize document

/-- `bytes >= limits.batch_bytes` -/
def isLarge (documentBytes : Nat) (batch : List SearchDocument) : Bool :=
  SearchLimits.batchBytes documentBytes ≤ (batch.map documentSize).sum

theorem flush_ok (hs : Stands c row s) (hb : Collects written b s) (hfair : Fair row b.current) :
    ∃ s', s.flush = (.ok (), s') ∧ Stands c row s' ∧ Collects written b.close s' ∧
      s'.visited = s.visited := by
  rw [← hb.documents] at hfair
  obtain ⟨c', hok, hframe, hstored, hothers⟩ :=
    replaceSearchDocuments_ok (c := s.catalogue) hfair.distinct
  let s' : SearchRebuild :=
    ⟨c', s.visited, s.writes ++ [s.documents], [], 0⟩
  refine ⟨s', by rw [flush, hok], ⟨?_, ?_⟩, ⟨?_, rfl, rfl⟩, rfl⟩
  · exact hframe.trans (by rw [hs.frame])
  · intro h
    simp only [s', List.flatten_append, List.map_append, List.mem_append, List.flatten_singleton]
    by_cases hin : h ∈ s.documents.map Prod.fst
    · obtain ⟨d, hd, rfl⟩ := List.mem_map.mp hin
      rw [hstored d hd, if_pos (Or.inr hin), hfair.rows d hd]
    · rw [hothers h hin, hs.stored h]
      simp only [hin, or_false]
  · simp only [s']
    rw [hb.writes, hb.documents, Batches.close, List.append_assoc]

theorem addDocument_ok (hs : Stands c row s) (hb : Collects written b s)
    (hfair : Fair row (b.items ++ [document])) :
    ∃ s', s.addDocument documentBytes document = (.ok (), s') ∧ Stands c row s' ∧
      Collects written (b.add (isFull documentBytes) (isLarge documentBytes) document) s' ∧
      s'.visited = s.visited := by
  have hroom : ∃ s₁, (if s.documents ≠ [] ∧
        SearchLimits.batchBytes documentBytes < s.bytes + documentSize document then s.flush
        else (.ok (), s)) = (.ok (), s₁) ∧ Stands c row s₁ ∧
      Collects written (b.makeRoom (isFull documentBytes) document) s₁ ∧
      s₁.visited = s.visited := by
    have hfull : (s.documents ≠ [] ∧
        SearchLimits.batchBytes documentBytes < s.bytes + documentSize document) ↔
        b.current ≠ [] ∧ isFull documentBytes b.current document = true := by
      rw [hb.documents, hb.bytes, isFull, decide_eq_true_iff]
    rw [Batches.makeRoom]
    by_cases hclose : b.current ≠ [] ∧ isFull documentBytes b.current document = true
    · rw [if_pos hclose, if_pos (hfull.mpr hclose)]
      exact flush_ok hs hb (hfair.sublist
        (b.current_sublist.trans (List.sublist_append_left _ _)))
    · rw [if_neg hclose, if_neg (hfull.not.mpr hclose)]
      exact ⟨s, rfl, hs, hb, rfl⟩
  obtain ⟨s₁, hok, hs₁, hb₁, hvisited⟩ := hroom
  generalize hopen : b.makeRoom (isFull documentBytes) document = open₁ at hb₁
  have hitems : open₁.items = b.items := by rw [← hopen, Batches.items_makeRoom]
  have hfair₁ : Fair row (open₁.current ++ [document]) :=
    hfair.sublist (hitems ▸ (open₁.current_sublist.append_right [document]))
  let s₂ : SearchRebuild := { s₁ with
    documents := s₁.documents ++ [document], bytes := s₁.bytes + documentSize document }
  have hb₂ : Collects written ⟨open₁.closed, open₁.current ++ [document]⟩ s₂ := by
    refine ⟨hb₁.writes, ?_, ?_⟩
    · rw [← hb₁.documents]
    · simp only [s₂, List.map_append, List.sum_append, hb₁.bytes]
      simp
  have hlarge : SearchLimits.batchBytes documentBytes ≤ s₂.bytes ↔
      isLarge documentBytes (open₁.current ++ [document]) = true := by
    rw [hb₂.bytes, isLarge, decide_eq_true_iff]
  rw [addDocument]
  simp only [hok]
  rw [Batches.add, hopen, Batches.put]
  by_cases hclose : isLarge documentBytes (open₁.current ++ [document]) = true
  · rw [if_pos hclose, if_pos (hlarge.mpr hclose)]
    obtain ⟨s', hflush, hs', hb', hvisited'⟩ := flush_ok (s := s₂) ⟨hs₁.frame, hs₁.stored⟩ hb₂ hfair₁
    exact ⟨s', hflush, hs', hb', hvisited'.trans hvisited⟩
  · rw [if_neg hclose, if_neg (hlarge.not.mpr hclose)]
    exact ⟨s₂, rfl, ⟨hs₁.frame, hs₁.stored⟩, hb₂, hvisited⟩

theorem visit_ok {hash : InfoHash} (hs : Stands c row s) (hb : Collects written b s)
    (hrow : searchDocument u hash documentBytes c = .ok (some (row hash)))
    (hfair : Fair row (b.items ++ [(hash, row hash)])) :
    ∃ s', s.visit u documentBytes hash = (.ok (), s') ∧ Stands c row s' ∧
      Collects written (b.add (isFull documentBytes) (isLarge documentBytes) (hash, row hash)) s' ∧
      s'.visited = s.visited ++ [hash] := by
  have hread : searchDocument u hash documentBytes s.catalogue = .ok (some (row hash)) := by
    rw [hs.frame]
    exact hrow
  rw [visit]
  simp only [hread]
  exact addDocument_ok (s := { s with visited := s.visited ++ [hash] }) ⟨hs.frame, hs.stored⟩
    ⟨hb.writes, hb.documents, hb.bytes⟩ hfair

theorem visitAll_ok (hs : Stands c row s) (hb : Collects written b s)
    (hrows : ∀ h ∈ hashes, searchDocument u h documentBytes c = .ok (some (row h)))
    (hfair : Fair row (b.items ++ documentsOf row hashes)) :
    ∃ s', s.visitAll u documentBytes hashes = (.ok (), s') ∧ Stands c row s' ∧
      Collects written (b.addAll (isFull documentBytes) (isLarge documentBytes)
        (documentsOf row hashes)) s' ∧ s'.visited = s.visited ++ hashes := by
  induction hashes generalizing b s with
  | nil => exact ⟨s, rfl, hs, hb, (List.append_nil _).symm⟩
  | cons hash hashes ih =>
    obtain ⟨hrow, hrows⟩ := List.forall_mem_cons.mp hrows
    rw [documentsOf, List.map_cons, List.append_cons] at hfair
    obtain ⟨s₁, hvisit, hs₁, hb₁, hvisited₁⟩ := visit_ok hs hb hrow
      (hfair.sublist (List.sublist_append_left _ _))
    obtain ⟨s', hall, hs', hb', hvisited⟩ := ih hs₁ hb₁ hrows (by rwa [Batches.items_add])
    refine ⟨s', ?_, hs', hb', ?_⟩
    · rw [visitAll, hvisit]
      exact hall
    · rw [hvisited, hvisited₁, List.append_assoc, List.singleton_append]

/-- What a write may hold: a page at most, and bytes up to the limit of a batch unless it is one
document. -/
structure Bounded (documentBytes : Nat) (documents : List SearchDocument) : Prop where
  nonempty : documents ≠ []
  length : documents.length ≤ 128
  bytes : (documents.map documentSize).sum ≤ SearchLimits.batchBytes documentBytes ∨
    ∃ document, documents = [document] ∧ documentSize document ≤ documentBytes

/-- The batches of the documents of a page. -/
def batchesOf (documentBytes : Nat) (documents : List SearchDocument) : Batches SearchDocument :=
  (Batches.empty.addAll (isFull documentBytes) (isLarge documentBytes) documents).finish

theorem bounded_of_mem {documents batch : List SearchDocument} (hlength : documents.length ≤ 128)
    (hsize : ∀ d ∈ documents, documentSize d ≤ documentBytes)
    (h : batch ∈ (batchesOf documentBytes documents).closed) : Bounded documentBytes batch := by
  -- A batch is within the batch size, or it is a single document.
  let Light (batch : List SearchDocument) : Prop :=
    (batch.map documentSize).sum ≤ SearchLimits.batchBytes documentBytes ∨
      ∃ document, batch = [document] ∧ documentSize document ≤ documentBytes
  have hok : Batches.Ok Light (batchesOf documentBytes documents) := by
    refine (Batches.ok_empty.addAll ?_ ?_).finish
    · intro d hd
      exact Or.inr ⟨d, rfl, hsize d hd⟩
    · intro d _ batch _ _ hroom
      left
      rw [isFull, decide_eq_false_iff_not, Nat.not_lt] at hroom
      simpa using hroom
  refine ⟨(hok.closed batch h).1, ?_, (hok.closed batch h).2⟩
  refine (Batches.length_le_of_mem h).trans ?_
  rwa [batchesOf, Batches.items_finish, Batches.items_addAll]

theorem batchesOf_flatten {documents : List SearchDocument} :
    (batchesOf documentBytes documents).closed.flatten = documents := by
  have hitems : (batchesOf documentBytes documents).items = documents := by
    rw [batchesOf, Batches.items_finish, Batches.items_addAll]
    rfl
  rwa [Batches.items, batchesOf, Batches.finish_current, List.append_nil] at hitems

/-- A page is visited in order and its documents are written in its batches. -/
theorem page_ok (hs : Stands c row s) (hdistinct : hashes.Nodup)
    (hrows : ∀ h ∈ hashes, searchDocument u h documentBytes c = .ok (some (row h))) :
    ∃ s', s.page u documentBytes hashes = (.ok (), s') ∧ Stands c row s' ∧
      s'.writes = s.writes ++ (batchesOf documentBytes (documentsOf row hashes)).closed ∧
      s'.visited = s.visited ++ hashes := by
  have hfair : Fair row (Batches.empty.items ++ documentsOf row hashes) :=
    fair_documentsOf hdistinct
  have hb : Collects s.writes Batches.empty { s with documents := [], bytes := 0 } :=
    ⟨(List.append_nil _).symm, rfl, rfl⟩
  have hstands : Stands c row { s with documents := [], bytes := 0 } := ⟨hs.frame, hs.stored⟩
  obtain ⟨s₁, hall, hs₁, hb₁, hvisited⟩ := visitAll_ok hstands hb hrows hfair
  rw [page, hall, batchesOf]
  generalize hopen : Batches.empty.addAll (isFull documentBytes) (isLarge documentBytes)
    (documentsOf row hashes) = open₁ at hb₁
  rw [Batches.finish]
  -- The last batch is written after the loop, unless it is empty.
  by_cases hempty : open₁.current = []
  · refine ⟨s₁, ?_, hs₁, ?_, hvisited⟩
    · simp only
      rw [if_neg (by simp [hb₁.documents, hempty])]
    · rw [if_pos hempty]
      exact hb₁.writes
  · have hitems : open₁.items = documentsOf row hashes := by
      rw [← hopen, Batches.items_addAll]
      rfl
    obtain ⟨s', hflush, hs', hb', hvisited'⟩ := flush_ok hs₁ hb₁
      ((fair_documentsOf hdistinct).sublist (hitems ▸ open₁.current_sublist))
    refine ⟨s', ?_, hs', ?_, hvisited'.trans hvisited⟩
    · simp only
      rwa [if_pos (by simp [hb₁.documents, hempty])]
    · rw [if_neg hempty]
      exact hb'.writes

end SearchRebuild

/-! ## Pages -/

section Pages

variable {c c' : Catalogue} {h : InfoHash} {after : Option InfoHash}

theorem toNat_injective : Function.Injective (BitVec.toNat : InfoHash → Nat) :=
  fun _ _ => BitVec.eq_of_toNat_eq

/-- The hashes that a document is to be built for, in order. -/
def searchableHashes (c : Catalogue) : List InfoHash :=
  inOrder BitVec.toNat (namedTorrents c ++ c.files.map FileRow.torrentId).dedup

theorem mem_namedTorrents :
    h ∈ namedTorrents c ↔ ∃ row, c.torrents.lookup h = some row ∧ row.isNamed = true := by
  simp only [namedTorrents, AList.lookup_eq_some_iff, List.mem_map, List.mem_filter]
  constructor
  · rintro ⟨e, ⟨he, hnamed⟩, rfl⟩
    exact ⟨e.2, he, hnamed⟩
  · rintro ⟨row, hrow, hnamed⟩
    exact ⟨⟨h, row⟩, ⟨hrow, hnamed⟩, rfl⟩

theorem namedTorrents_nodup : (namedTorrents c).Nodup :=
  AList.nodupKeys_filter _ c.torrents

theorem mem_searchableHashes : h ∈ searchableHashes c ↔ Searchable c h := by
  rw [searchableHashes, mem_inOrder, List.mem_dedup, List.mem_append, mem_namedTorrents,
    List.mem_map, Searchable]

theorem searchableHashes_ascending : Ascending BitVec.toNat (searchableHashes c) :=
  ascending_inOrder toNat_injective (List.nodup_dedup _)

/-- A page holds the first hashes after the last one of the page before it. -/
theorem pageHashes_eq :
    pageHashes after c = ((searchableHashes c).filter (afterHash after)).take 128 := by
  have hnamed : Ascending BitVec.toNat
      (inOrder BitVec.toNat ((namedTorrents c).filter (afterHash after))) :=
    ascending_inOrder toNat_injective (namedTorrents_nodup.filter _)
  have howners : Ascending BitVec.toNat
      (inOrder BitVec.toNat ((c.files.map FileRow.torrentId).filter (afterHash after)).dedup) :=
    ascending_inOrder toNat_injective (List.nodup_dedup _)
  refine hnamed.take_union howners searchableHashes_ascending.filter
    (ascending_inOrder toNat_injective (List.nodup_dedup _)) ?_ ?_
  · intro k
    simp only [List.mem_filter, mem_searchableHashes, mem_inOrder, List.mem_dedup,
      mem_namedTorrents, List.mem_map, Searchable]
    exact or_and_right
  · intro k
    rw [mem_inOrder, List.mem_dedup, List.mem_append]

theorem pageHashes_congr (htorrents : c'.torrents = c.torrents) (hfiles : c'.files = c.files) :
    pageHashes after c' = pageHashes after c := by
  rw [pageHashes, pageHashes, namedTorrents, namedTorrents, htorrents, hfiles]

end Pages

namespace SearchRebuild

variable {u : Unicode} {documentBytes fuel : Nat} {c : Catalogue}
  {row : InfoHash → SearchDocumentRow} {s : SearchRebuild} {done rest : List InfoHash}

/-- The state between two pages, when these hashes have been visited. -/
structure Paged (documentBytes : Nat) (c : Catalogue) (row : InfoHash → SearchDocumentRow)
    (done : List InfoHash) (s : SearchRebuild) : Prop where
  stands : Stands c row s
  visited : s.visited = done
  written : s.writes.flatten = documentsOf row done
  bounded : ∀ documents ∈ s.writes, Bounded documentBytes documents

theorem Paged.page (hp : Paged documentBytes c row done s) {hashes : List InfoHash}
    (hlength : hashes.length ≤ 128) (hdistinct : hashes.Nodup)
    (hrows : ∀ h ∈ hashes, searchDocument u h documentBytes c = .ok (some (row h))) :
    ∃ s', s.page u documentBytes hashes = (.ok (), s') ∧
      Paged documentBytes c row (done ++ hashes) s' := by
  obtain ⟨s', hpage, hs', hwrites, hvisited⟩ := page_ok hp.stands hdistinct hrows
  refine ⟨s', hpage, hs', by rw [hvisited, hp.visited], ?_, ?_⟩
  · rw [hwrites, List.flatten_append, hp.written, batchesOf_flatten]
    exact (List.map_append).symm
  · rw [hwrites]
    intro documents hd
    obtain hold | hnew := List.mem_append.mp hd
    · exact hp.bounded documents hold
    · refine bounded_of_mem (by rwa [documentsOf, List.length_map]) ?_ hnew
      intro d hd
      obtain ⟨h, hh, rfl⟩ := List.mem_map.mp hd
      exact (searchDocument_ok (hrows h hh)).2 _ rfl

/-- With fuel for the hashes that are left the loop visits them all and returns. -/
theorem Paged.loop_ok (hp : Paged documentBytes c row done s)
    (hall : searchableHashes c = done ++ rest) (hfuel : rest.length < fuel)
    (hrows : ∀ h, Searchable c h → searchDocument u h documentBytes c = .ok (some (row h))) :
    ∃ s', s.loop u documentBytes fuel done.getLast? = (some (.ok ()), s') ∧
      Paged documentBytes c row (searchableHashes c) s' := by
  induction fuel generalizing done rest s with
  | zero => exact absurd hfuel (Nat.not_lt_zero _)
  | succ fuel ih =>
    have hascending := searchableHashes_ascending (c := c)
    have hpage : pageHashes done.getLast? s.catalogue = rest.take 128 := by
      rw [hp.stands.frame]
      rw [show pageHashes done.getLast? { c with searchDocuments := s.catalogue.searchDocuments } =
        pageHashes done.getLast? c from pageHashes_congr rfl rfl, pageHashes_eq]
      rw [hall] at hascending ⊢
      exact congrArg (List.take 128) hascending.filter_isAfter
    rw [loop]
    simp only [hpage]
    by_cases hempty : rest = []
    · subst hempty
      rw [List.append_nil] at hall
      exact ⟨s, if_pos rfl, hall ▸ hp⟩
    · have hpos : rest.take 128 ≠ [] := by simpa using hempty
      rw [if_neg hpos]
      have hdistinct : (rest.take 128).Nodup := by
        have hnodup := hascending.nodup
        rw [hall] at hnodup
        exact (hnodup.sublist (List.sublist_append_right _ _)).sublist (List.take_sublist _ _)
      obtain ⟨s₁, hok, hp₁⟩ := hp.page (u := u) (List.length_take_le _ _) hdistinct (by
        intro h hh
        refine hrows h (mem_searchableHashes.mp ?_)
        rw [hall]
        exact List.mem_append_right _ (List.mem_of_mem_take hh))
      rw [hok]
      have hlast : (rest.take 128).getLast? = (done ++ rest.take 128).getLast? := by
        rw [List.getLast?_append, Option.or_of_isSome]
        simpa using hempty
      simp only
      rw [hlast]
      have hleft : searchableHashes c = done ++ rest.take 128 ++ rest.drop 128 := by
        rw [hall, List.append_assoc, List.take_append_drop]
      refine ih hp₁ hleft ?_
      have hlength : 0 < rest.length := List.length_pos_iff.mpr hempty
      rw [List.length_drop]
      omega

/-- What a rebuild leaves of a catalogue: a document for every searchable hash and no other, each
hash visited once, in bounded writes. -/
structure Exact (u : Unicode) (documentBytes : Nat) (c : Catalogue) (s : SearchRebuild) : Prop where
  frame : s.catalogue = { c with searchDocuments := s.catalogue.searchDocuments }
  documents : ∀ h, Searchable c h → ∃ document,
    searchDocument u h documentBytes c = .ok (some document) ∧
      s.catalogue.searchDocuments.lookup h = some document
  nothingElse : ∀ h, ¬ Searchable c h → s.catalogue.searchDocuments.lookup h = none
  visited : ∀ h, h ∈ s.visited ↔ Searchable c h
  once : s.visited.Nodup
  written : s.writes.flatten.map Prod.fst = s.visited
  bounded : ∀ documents ∈ s.writes, Bounded documentBytes documents

end SearchRebuild

/-- The foreign keys of files and documents. -/
structure Catalogue.References (c : Catalogue) : Prop where
  files : ∀ f ∈ c.files, (c.torrents.lookup f.torrentId).isSome = true
  searchDocuments : ∀ h, (c.searchDocuments.lookup h).isSome = true →
    (c.torrents.lookup h).isSome = true

section Rebuild

variable {u : Unicode} {packet budget fuel : Nat} {c : Catalogue} {h : InfoHash}

theorem Catalogue.References.searchable (hr : c.References) (hs : Searchable c h) :
    ∃ row, c.torrents.lookup h = some row := by
  obtain ⟨row, hrow, -⟩ | ⟨f, hf, rfl⟩ := hs
  · exact ⟨row, hrow⟩
  · exact Option.isSome_iff_exists.mp (hr.files f hf)

theorem searchDocument_of_fits (hr : c.References) (hs : Searchable c h)
    (hfits : searchDocument u h budget c ≠ .error (.documentTooLarge h budget)) :
    ∃ document, searchDocument u h budget c = .ok (some document) := by
  obtain ⟨row, hrow⟩ := hr.searchable hs
  cases hd : searchDocument u h budget c with
  | error e =>
    rw [searchDocument, hrow] at hd
    refine absurd ?_ hfits
    rw [searchDocument, hrow, ← searchDocumentOf_error hd]
    exact hd
  | ok found =>
    obtain ⟨document, rfl⟩ := Option.isSome_iff_exists.mp ((searchDocument_ok hd).1.mpr hs)
    exact ⟨document, rfl⟩

/-- The documents that the first statement leaves belong to searchable hashes. -/
theorem deleteObsolete_lookup (hr : c.References) (hs : ¬ Searchable c h) :
    (deleteObsolete c).searchDocuments.lookup h = none := by
  rw [deleteObsolete, AList.lookup_keep, Option.filter_eq_none_iff]
  intro document hdocument
  obtain ⟨row, hrow⟩ := Option.isSome_iff_exists.mp
    (hr.searchDocuments h (by rw [hdocument]; rfl))
  rw [Searchable, not_or] at hs
  have hnamed : (!row.metadataComplete || row.name.isNone) = true := by
    have hname : row.isNamed ≠ true := fun hnamed => hs.1 ⟨row, hrow, hnamed⟩
    rw [TorrentRow.isNamed] at hname
    cases hcomplete : row.metadataComplete with
    | false => rfl
    | true => simpa [hcomplete] using hname
  have hfiles : (c.files.any fun f => f.torrentId = h) = false := by
    simpa using hs.2
  rw [isObsolete, hrow, hfiles]
  simp [hnamed]

/-- A rebuild of a database whose documents fit returns, and leaves the index exact. -/
theorem rebuildSearchIndex_exact (hlimits : SearchLimits.forPacket packet = .ok budget)
    (hr : c.References)
    (hfits : ∀ h, Searchable c h →
      searchDocument u h budget c ≠ .error (.documentTooLarge h budget))
    (hfuel : (searchableHashes c).length < fuel) :
    ∃ s, rebuildSearchIndex u packet fuel c = (some (.ok ()), s) ∧ s.Exact u budget c := by
  have hrow : ∀ h, ∃ row, Searchable c h → searchDocument u h budget c = .ok (some row) := by
    intro h
    by_cases hs : Searchable c h
    · obtain ⟨row, hrow⟩ := searchDocument_of_fits hr hs (hfits h hs)
      exact ⟨row, fun _ => hrow⟩
    · exact ⟨⟨"", ""⟩, fun hsearchable => absurd hsearchable hs⟩
  choose row hrow using hrow
  -- the first statement leaves torrents and files alone
  let c₀ := deleteObsolete c
  have hstart : SearchRebuild.Paged budget c₀ row [] (.start c₀) :=
    ⟨⟨rfl, fun _ => rfl⟩, rfl, rfl, List.forall_mem_nil _⟩
  have hall : searchableHashes c₀ = [] ++ searchableHashes c := rfl
  obtain ⟨s, hok, hp⟩ := hstart.loop_ok hall hfuel hrow
  have hstored : ∀ h, s.catalogue.searchDocuments.lookup h =
      if h ∈ searchableHashes c then some (row h) else c₀.searchDocuments.lookup h := by
    intro h
    have hkeys : (SearchRebuild.documentsOf row (searchableHashes c)).map Prod.fst =
        searchableHashes c := by
      rw [SearchRebuild.documentsOf, List.map_map]
      exact List.map_id _
    rw [hp.stands.stored h, hp.written]
    exact if_congr (by rw [← hkeys]; rfl) rfl rfl
  refine ⟨s, ?_, ?_, ?_, ?_, ?_, ?_, ?_, hp.bounded⟩
  · rw [rebuildSearchIndex, hlimits]
    exact hok
  · exact hp.stands.frame
  · intro h hs
    exact ⟨row h, hrow h hs, by rw [hstored h, if_pos (mem_searchableHashes.mpr hs)]⟩
  · intro h hs
    rw [hstored h, if_neg (mem_searchableHashes.not.mpr hs)]
    exact deleteObsolete_lookup hr hs
  · intro h
    rw [hp.visited]
    exact mem_searchableHashes
  · rw [hp.visited]
    exact searchableHashes_ascending.nodup
  · rw [hp.written, hp.visited, SearchRebuild.documentsOf, List.map_map]
    exact List.map_id _

end Rebuild

end Btfind
