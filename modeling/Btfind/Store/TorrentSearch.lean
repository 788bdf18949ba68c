import Btfind.Library.OffsetPages
import Btfind.Store.SearchQuery
import Mathlib.Algebra.Order.Ring.Rat
import Mathlib.Data.Prod.Lex

/-!
# The torrent search

`search_torrents_filtered_page`: the torrents whose documents match the terms and whose sizes pass
the filters, in one of five orders, cut into pages. The match, its score and the collation of the
names are the database's, and parameters here.
-/

namespace Btfind

open OffsetPages

/-- A row of `torrents` with its key. -/
structure TorrentRecord extends TorrentRow where
  infoHash : InfoHash
  deriving DecidableEq

structure TorrentSearchFilters where
  completeOnly : Bool := false
  minSize : Option Int := none
  maxSize : Option Int := none
  deriving DecidableEq

/-- The answers of the database that depend on its full-text index and on its collation. -/
structure FullText where
  /-- `MATCH(s.name,s.paths) AGAINST (? IN BOOLEAN MODE)` in a `WHERE` -/
  isMatch : String → SearchDocumentRow → Bool
  /-- `MATCH(s.name,s.paths) … +5*MATCH(s.name) …`, which weighs a document among all others. -/
  score : KeyedTable InfoHash SearchDocumentRow → String → SearchDocumentRow → Rat
  /-- `ORDER BY t.name` -/
  nameLe : Option String → Option String → Bool

/-- `u64` of one more row than the page holds. -/
def fetchLimit (limit : Nat) : Nat := min (limit + 1) (2 ^ 64 - 1)

/-- `row_to_torrent` -/
def rowToTorrent (e : Σ _ : InfoHash, TorrentRow) : TorrentRecord := ⟨e.2, e.1⟩

/-- The `AND`s that the filters add to the query. -/
def TorrentSearchFilters.pass (filters : TorrentSearchFilters) (t : TorrentRecord) : Bool :=
  (!filters.completeOnly || t.metadataComplete) &&
    filters.minSize.all (fun s => decide (s ≤ t.totalSize)) &&
    filters.maxSize.all fun s => decide (t.totalSize ≤ s)

/-- The `JOIN` with the documents and its `WHERE`; there is neither without terms. -/
def matchesTerms (ft : FullText) (terms : String) (c : Catalogue) (t : TorrentRecord) : Bool :=
  if terms.isEmpty then true
  else (c.searchDocuments.lookup t.infoHash).any (ft.isMatch terms)

/-- The score of a matching torrent. -/
def scoreOf (ft : FullText) (terms : String) (c : Catalogue) (t : TorrentRecord) : Rat :=
  (c.searchDocuments.lookup t.infoHash).elim 0 (ft.score c.searchDocuments terms)

/-! ## Orders -/

/-- `score DESC,t.last_seen DESC,t.info_hash` -/
def byScore (ft : FullText) (terms : String) (c : Catalogue) (t : TorrentRecord) :
    Ratᵒᵈ ×ₗ Intᵒᵈ ×ₗ Nat :=
  toLex (OrderDual.toDual (scoreOf ft terms c t),
    toLex (OrderDual.toDual t.lastSeen, t.infoHash.toNat))

/-- `column DESC,t.info_hash DESC` -/
def byColumn (column : TorrentRecord → Int) (t : TorrentRecord) : Intᵒᵈ ×ₗ Natᵒᵈ :=
  toLex (OrderDual.toDual (column t), OrderDual.toDual t.infoHash.toNat)

/-- `t.name,t.info_hash` -/
def nameOrder (ft : FullText) (a b : TorrentRecord) : Bool :=
  ft.nameLe a.name b.name &&
    (!ft.nameLe b.name a.name || decide (a.infoHash.toNat ≤ b.infoHash.toNat))

/-- The columns of an `ORDER BY`. -/
inductive TorrentOrder
  | score
  | lastSeen
  | firstSeen
  | totalSize
  | name
  deriving DecidableEq

/-- The `ORDER BY` of a sort. -/
def torrentOrder (sort terms : String) : Except StoreError TorrentOrder :=
  if sort = "rank" ∧ terms ≠ "" then .ok .score
  else if sort = "rank" ∨ sort = "last_seen" then .ok .lastSeen
  else if sort = "first_seen" then .ok .firstSeen
  else if sort = "total_size" then .ok .totalSize
  else if sort = "name" then .ok .name
  else .error (.invalid "invalid sort")

/-- The first of two rows comes before the second or is the same row. -/
def TorrentOrder.le (order : TorrentOrder) (ft : FullText) (terms : String) (c : Catalogue)
    (a b : TorrentRecord) : Bool :=
  match order with
  | .score => decide (byScore ft terms c a ≤ byScore ft terms c b)
  | .lastSeen => decide (byColumn (·.lastSeen) a ≤ byColumn (·.lastSeen) b)
  | .firstSeen => decide (byColumn (·.firstSeen) a ≤ byColumn (·.firstSeen) b)
  | .totalSize => decide (byColumn (·.totalSize) a ≤ byColumn (·.totalSize) b)
  | .name => nameOrder ft a b

/-- The torrents that the query selects, before they are ordered. -/
def selectedTorrents (ft : FullText) (terms : String) (filters : TorrentSearchFilters)
    (c : Catalogue) : List TorrentRecord :=
  (c.torrents.entries.map rowToTorrent).filter fun t => matchesTerms ft terms c t && filters.pass t

/-- The selected torrents in their order. -/
def orderedTorrents (ft : FullText) (order : TorrentOrder) (terms : String)
    (filters : TorrentSearchFilters) (c : Catalogue) : List TorrentRecord :=
  (selectedTorrents ft terms filters c).mergeSort (order.le ft terms c)

/-- `search_torrents_filtered_page`; `connection` is what the query meets at the database, an error
or the tables. -/
def searchTorrentsFilteredPage (u : Unicode) (ft : FullText)
    (connection : Except StoreError Catalogue) (query : String) (limit offset : Nat)
    (sort : String) (filters : TorrentSearchFilters) : Except StoreError (Page TorrentRecord) :=
  match searchQuery u query with
  | .error message => .error (.invalid message)
  | .ok terms =>
    match torrentOrder sort terms with
    | .error e => .error e
    | .ok order => connection.map fun c =>
      pageOf (fetchLimit limit) limit offset (orderedTorrents ft order terms filters c)

/-! ## Selected torrents -/

section Selected

variable {ft : FullText} {terms : String} {filters : TorrentSearchFilters} {c : Catalogue}
  {t : TorrentRecord} {order : TorrentOrder}

theorem mem_selectedTorrents :
    t ∈ selectedTorrents ft terms filters c ↔
      c.torrents.lookup t.infoHash = some t.toTorrentRow ∧ matchesTerms ft terms c t = true ∧
        filters.pass t = true := by
  rw [selectedTorrents, List.mem_filter, Bool.and_eq_true, AList.lookup_eq_some_iff]
  refine and_congr_left fun _ => ?_
  rw [List.mem_map]
  constructor
  · rintro ⟨e, he, rfl⟩
    exact he
  · intro h
    exact ⟨_, h, rfl⟩

theorem nodup_selectedTorrents : ((selectedTorrents ft terms filters c).map (·.infoHash)).Nodup := by
  have hkeys : ((c.torrents.entries.map rowToTorrent).map (·.infoHash)).Nodup := by
    rw [List.map_map]
    exact c.torrents.nodupKeys
  exact hkeys.sublist (List.filter_sublist.map _)

theorem mem_orderedTorrents :
    t ∈ orderedTorrents ft order terms filters c ↔ t ∈ selectedTorrents ft terms filters c :=
  List.mem_mergeSort

/-- No torrent is listed twice. -/
theorem nodup_orderedTorrents :
    ((orderedTorrents ft order terms filters c).map (·.infoHash)).Nodup :=
  ((List.mergeSort_perm _ _).map _).nodup_iff.mpr nodup_selectedTorrents

theorem length_orderedTorrents_le :
    (orderedTorrents ft order terms filters c).length ≤ c.torrents.count := by
  rw [orderedTorrents, List.length_mergeSort, AList.count]
  have hfilter := List.length_filter_le (fun t => matchesTerms ft terms c t && filters.pass t)
    (c.torrents.entries.map rowToTorrent)
  rwa [List.length_map] at hfilter

end Selected

/-! ## The order of the rows -/

section Order

variable {ft : FullText} {terms : String} {filters : TorrentSearchFilters} {c : Catalogue}
  {order : TorrentOrder}

theorem pairwise_mergeSort_key {K : Type*} [LinearOrder K] (key : TorrentRecord → K)
    (rows : List TorrentRecord) :
    (rows.mergeSort fun a b => decide (key a ≤ key b)).Pairwise fun a b => key a ≤ key b := by
  have htrans : ∀ a b d, decide (key a ≤ key b) = true → decide (key b ≤ key d) = true →
      decide (key a ≤ key d) = true :=
    fun a b d hab hbd => by simpa using le_trans (by simpa using hab) (by simpa using hbd)
  have htotal : ∀ a b, (decide (key a ≤ key b) || decide (key b ≤ key a)) = true :=
    fun a b => by simpa using le_total (key a) (key b)
  exact (List.pairwise_mergeSort htrans htotal rows).imp fun h => by simpa using h

/-- The selected torrents stand in their order. -/
theorem pairwise_orderedTorrents (h : order ≠ .name) :
    (orderedTorrents ft order terms filters c).Pairwise
      fun a b => order.le ft terms c a b = true := by
  have hkey : ∀ {K : Type} [LinearOrder K] (key : TorrentRecord → K) (rows : List TorrentRecord),
      (rows.mergeSort fun a b => decide (key a ≤ key b)).Pairwise
        fun a b => decide (key a ≤ key b) = true := by
    intro K _ key rows
    exact (pairwise_mergeSort_key key rows).imp decide_eq_true
  unfold orderedTorrents
  cases order with
  | score => exact hkey _ _
  | lastSeen => exact hkey _ _
  | firstSeen => exact hkey _ _
  | totalSize => exact hkey _ _
  | name => exact absurd rfl h

end Order

end Btfind
