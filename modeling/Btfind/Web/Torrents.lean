import Btfind.Web.Service

/-!
# The requests for one torrent

The three handlers of a hash read its text in three ways: the check, the decoder and the key of the
table. Each text that passes the check stands for one hash, in whichever case it is written, and
all three answer about the torrent of that hash.
-/

namespace Btfind

open OffsetPages

section Lookup

variable {text : String} {hash : InfoHash} {connection : Connection}

theorem find?_eq_lookup (c : Catalogue) (hash : InfoHash) :
    c.torrents.entries.find? (fun e => e.1 = hash) =
      (c.torrents.lookup hash).map fun row => ⟨hash, row⟩ := by
  unfold AList.lookup
  induction c.torrents.entries with
  | nil => rfl
  | cons e rows ih =>
    obtain ⟨key, row⟩ := e
    by_cases hkey : key = hash
    · subst hkey
      rw [List.dlookup_cons_eq]
      simp
    · rw [List.dlookup_cons_ne _ _ (Ne.symm hkey), ← ih]
      simp [hkey]

/-- The row whose key has the text is the row of the hash. -/
theorem getTorrentByHex_eq (h : Denotes text hash) :
    getTorrentByHex connection text = connection.map fun c =>
      (c.torrents.lookup hash).map fun row => ⟨row, hash⟩ := by
  have hkey : ∀ e : Σ _ : InfoHash, TorrentRow,
      (hexEncode e.1 = toAsciiLowercase text) = (e.1 = hash) := by
    intro e
    have hlower : toAsciiLowercase text = hexEncode hash := h
    rw [hlower]
    exact propext hexEncode_injective.eq_iff
  have hfind : ∀ c : Catalogue,
      (c.torrents.entries.find? fun e => hexEncode e.1 = toAsciiLowercase text).map rowToTorrent =
        (c.torrents.lookup hash).map fun row => ⟨row, hash⟩ := by
    intro c
    simp only [hkey]
    rw [find?_eq_lookup, Option.map_map]
    rfl
  unfold getTorrentByHex
  exact congrArg (Except.map · connection) (funext hfind)

theorem validateInfoHashHex_ok (h : Denotes text hash) : validateInfoHashHex text = .ok () :=
  if_pos (isInfoHashHex_iff.mpr ⟨hash, h⟩)

theorem decodeInfoHash_eq {decode : String → Except String Bytes} (hdecode : DecodesHex decode)
    (h : Denotes text hash) : decodeInfoHash decode text = .ok hash := by
  rw [decodeInfoHash, hdecode text hash h]
  simp only
  rw [if_pos (length_idToBytes hash), idOfBytes_idToBytes]

end Lookup

/-- The detail of a row. -/
def torrentDetail (encode : String → String) (hash : InfoHash) (row : TorrentRow) :
    TorrentDetail where
  infoHash := hexEncode hash
  name := row.name
  totalSize := row.totalSize
  fileCount := row.fileCount
  firstSeen := row.firstSeen
  lastSeen := row.lastSeen
  metadataComplete := row.metadataComplete
  magnet := magnetUriFromHash encode hash row.name

/-- The response of a page of the files of a hash. -/
def fileResponse (coll : Collation) (hash : InfoHash) (params : FileSearchQuery)
    (c : Catalogue) : FileSearchResponse :=
  let page := searchFilesPage coll hash (params.q.getD "") (clampLimit params.limit)
    (clampOffset params.offset) c
  { files := page.results.map fun f => ⟨f.1, f.2⟩
    limit := clampLimit params.limit
    offset := clampOffset params.offset
    hasNext := page.hasNext }

def torrentNotFound : ApiError := .notFound "torrent not found"

section Handlers

variable {decode : String → Except String Bytes} {encode : String → String} {coll : Collation}
  {text : String} {hash : InfoHash}

theorem apiTorrent_eq (h : Denotes text hash) (connection : Connection) :
    apiTorrent encode connection text = readStore connection fun c =>
      ⟨(c.torrents.lookup hash).elim (.error torrentNotFound) fun row =>
        .ok (torrentDetail encode hash row), 0⟩ := by
  unfold apiTorrent checkRequest
  simp only [validateInfoHashHex_ok h, getTorrentByHex_eq h]
  cases connection with
  | error e => rfl
  | ok c =>
    simp only [readStore, Except.map]
    cases c.torrents.lookup hash <;> rfl

theorem apiTorrentFiles_eq (hdecode : DecodesHex decode) (h : Denotes text hash)
    (first second : Connection) (params : FileSearchQuery) :
    apiTorrentFiles decode coll first second text params = readStore first fun c =>
      if (c.torrents.lookup hash).isNone then ⟨.error torrentNotFound, 0⟩
      else readStore second fun c => ⟨.ok (fileResponse coll hash params c), 0⟩ := by
  unfold apiTorrentFiles checkRequest
  simp only [validateInfoHashHex_ok h, decodeInfoHash_eq hdecode h, getTorrentByHex_eq h]
  cases first with
  | error e => rfl
  | ok c =>
    simp only [readStore, Except.map, Option.isNone_map]
    cases second <;> rfl

theorem apiMagnet_eq (hdecode : DecodesHex decode) (h : Denotes text hash)
    (connection : Connection) :
    apiMagnet decode encode connection text = readStore connection fun c =>
      ⟨.ok (magnetUriFromHash encode hash ((c.torrents.lookup hash).bind (·.name))), 0⟩ := by
  unfold apiMagnet checkRequest
  simp only [validateInfoHashHex_ok h, decodeInfoHash_eq hdecode h, getTorrentByHex_eq h]
  cases connection with
  | error e => rfl
  | ok c =>
    simp only [readStore, Except.map]
    cases c.torrents.lookup hash <;> rfl

/-- The handlers of a hash answer about one torrent, the one that the text stands for, and refuse
every other text without a query. -/
theorem hash_requests_agree (hdecode : DecodesHex decode) (encode : String → String)
    (coll : Collation) (text : String) :
    ((¬ ∃ hash, Denotes text hash) → ∀ first second params,
      let refused : ApiError := .badRequest "invalid info_hash: must be 40 hex characters"
      apiTorrent encode first text = ⟨.error refused, 0⟩ ∧
        apiTorrentFiles decode coll first second text params = ⟨.error refused, 0⟩ ∧
        apiMagnet decode encode first text = ⟨.error refused, 0⟩) ∧
    ∀ hash, Denotes text hash → ∀ first second params,
      apiTorrent encode first text = readStore first (fun c =>
        ⟨(c.torrents.lookup hash).elim (.error torrentNotFound) fun row =>
          .ok (torrentDetail encode hash row), 0⟩) ∧
      apiTorrentFiles decode coll first second text params = readStore first (fun c =>
        if (c.torrents.lookup hash).isNone then ⟨.error torrentNotFound, 0⟩
        else readStore second fun c => ⟨.ok (fileResponse coll hash params c), 0⟩) ∧
      apiMagnet decode encode first text = readStore first fun c =>
        ⟨.ok (magnetUriFromHash encode hash ((c.torrents.lookup hash).bind (·.name))), 0⟩ := by
  constructor
  · intro hnone first second params
    have hcheck : validateInfoHashHex text =
        .error (.badRequest "invalid info_hash: must be 40 hex characters") :=
      if_neg (mt isInfoHashHex_iff.mp hnone)
    refine ⟨?_, ?_, ?_⟩
    · simp only [apiTorrent, checkRequest, hcheck]
    · simp only [apiTorrentFiles, checkRequest, hcheck]
    · simp only [apiMagnet, checkRequest, hcheck]
  · intro hash h first second params
    exact ⟨apiTorrent_eq h first, apiTorrentFiles_eq hdecode h first second params,
      apiMagnet_eq hdecode h first⟩

/-- A collation that takes no notice of the case. -/
def Collation.ignoreCase : Collation where
  le a b := decide (a.toLower ≤ b.toLower)
  same x y := decide (x.toLower = y.toLower)

/-- A catalogue with the torrent of a hash whose text has letters. -/
def lettered : Catalogue :=
  { Catalogue.migrated with
    torrents := AList.insert 0xAB ⟨some "a", none, 0, 0, "dht", 0, 0, 0, true⟩ ∅ }

/-- A text in capitals finds the torrent, and a text of two characters finds nothing. -/
theorem hash_requests_agree_capitals :
    apiMagnet plainHex id (.ok lettered) "00000000000000000000000000000000000000AB" =
        ⟨.ok (magnetUriFromHash id 0xAB (some "a")), 0⟩ ∧
      apiTorrentFiles plainHex .ignoreCase (.ok lettered) (.ok lettered) "AB" {} =
        ⟨.error (.badRequest "invalid info_hash: must be 40 hex characters"), 0⟩ := by
  have hcapitals := hash_requests_agree plainHex_decodes id .ignoreCase
    "00000000000000000000000000000000000000AB"
  have hshort := hash_requests_agree plainHex_decodes id .ignoreCase "AB"
  have hdenotes : Denotes "00000000000000000000000000000000000000AB" 0xAB := by
    unfold Denotes
    decide +kernel
  have hnone : ¬ ∃ hash, Denotes "AB" hash := by
    rw [← isInfoHashHex_iff]
    decide
  exact ⟨(hcapitals.2 0xAB hdenotes (.ok lettered) (.ok lettered) {}).2.2,
    (hshort.1 hnone (.ok lettered) (.ok lettered) {}).2.1⟩

end Handlers

/-! ## The pages of the files -/

section Files

variable {decode : String → Except String Bytes} {coll : Collation} {text : String}
  {hash : InfoHash} {c : Catalogue}

/-- The pages of the files, asked for one after the other while the tables stay as they are. -/
def askFiles (decode : String → Except String Bytes) (coll : Collation) (c : Catalogue)
    (text : String) (params : FileSearchQuery) (offset : Nat) :
    Option (Nat × Page Web.FileEntry) :=
  match (apiTorrentFiles decode coll (.ok c) (.ok c) text { params with offset }).response with
  | .ok response => some (response.limit, ⟨response.files, response.hasNext⟩)
  | .error _ => none

/-- The files that a query selects, in the order of their paths. -/
def orderedFiles (coll : Collation) (hash : InfoHash) (query : String) (c : Catalogue) :
    List Web.FileEntry :=
  ((selectedFiles coll.same hash query c).mergeSort fun f g => coll.le f.path g.path).map
    fun f => ⟨f.path, f.size⟩

theorem fileResponse_eq (params : FileSearchQuery) :
    fileResponse coll hash params c =
      let page := pageOf (fetchLimit (clampLimit params.limit)) (clampLimit params.limit)
        (clampOffset params.offset) (orderedFiles coll hash (params.q.getD "") c)
      ⟨page.rows, clampLimit params.limit, clampOffset params.offset, page.hasNext⟩ := by
  have hmap : ∀ files : List (FileRow), (files.map fun f => (f.path, f.size)).map
      (fun f => (⟨f.1, f.2⟩ : Web.FileEntry)) = files.map fun f => ⟨f.path, f.size⟩ :=
    fun files => by rw [List.map_map]; rfl
  simp only [fileResponse, searchFilesPage, pageOf, orderedFiles, fetchLimit, hmap, List.map_take,
    List.map_drop, List.length_take, List.length_drop, List.length_map]

theorem perm_orderedFiles (query : String) :
    (orderedFiles coll hash query c).Perm
      (((filesOf hash c.files).filter fun f =>
        Like.contains coll.same query.toList f.path.toList).map fun f => ⟨f.path, f.size⟩) := by
  refine (List.mergeSort_perm _ _).map _ |>.trans ?_
  simp only [selectedFiles, pathLike_filePattern]
  exact .refl _

theorem length_orderedFiles_le (coll : Collation) (hash : InfoHash) (query : String)
    (c : Catalogue) :
    (orderedFiles coll hash query c).length ≤ c.files.length := by
  rw [orderedFiles, List.length_map, List.length_mergeSort]
  exact (List.length_filter_le _ _).trans (List.length_filter_le _ _)

theorem pairwise_orderedFiles (htrans : ∀ a b d, coll.le a b → coll.le b d → coll.le a d)
    (htotal : ∀ a b, coll.le a b || coll.le b a) (query : String) :
    (orderedFiles coll hash query c).Pairwise fun f g => coll.le f.path g.path = true := by
  rw [orderedFiles, List.pairwise_map]
  exact List.pairwise_mergeSort (fun a b d => htrans a.path b.path d.path)
    (fun a b => htotal a.path b.path) _

theorem serves_askFiles (hdecode : DecodesHex decode) (coll : Collation) (h : Denotes text hash)
    (hrow : (c.torrents.lookup hash).isSome) (hrows : c.files.length < 2 ^ 63)
    (params : FileSearchQuery) :
    Serves (askFiles decode coll c text params) (clampLimit params.limit)
      (orderedFiles coll hash (params.q.getD "") c) := by
  have hlength := length_orderedFiles_le coll hash (params.q.getD "") c
  refine serves_pageOf (lt_fetchLimit _) fun offset hoffset => ?_
  have hclamp : clampOffset offset = offset := by
    unfold clampOffset
    omega
  have hsome : ¬ (c.torrents.lookup hash).isNone = true := by
    rw [Option.isNone_iff_eq_none]
    exact Option.isSome_iff_ne_none.mp hrow
  simp only [askFiles, apiTorrentFiles_eq hdecode h, readStore, if_neg hsome, fileResponse_eq,
    hclamp]

/-- Whoever follows the pages of the files comes to an end and has then read every file whose path
contains the query as the collation compares characters, as often as the torrent has it, in the
order of the paths. -/
theorem file_pages_complete (hdecode : DecodesHex decode) (h : Denotes text hash)
    (hrow : (c.torrents.lookup hash).isSome) (hrows : c.files.length < 2 ^ 63)
    (htrans : ∀ a b d, coll.le a b → coll.le b d → coll.le a d)
    (htotal : ∀ a b, coll.le a b || coll.le b a) (params : FileSearchQuery) :
    (∃ pages, Follows (askFiles decode coll c text params) 0 pages) ∧
    ∀ pages, Follows (askFiles decode coll c text params) 0 pages →
      (pages.flatMap Page.rows).Perm
        (((filesOf hash c.files).filter fun f =>
          Like.contains coll.same (params.q.getD "").toList f.path.toList).map
            fun f => ⟨f.path, f.size⟩) ∧
      (pages.flatMap Page.rows).Pairwise (fun f g => coll.le f.path g.path = true) := by
  have hserves := serves_askFiles hdecode coll h hrow hrows params
  refine ⟨exists_follows hserves (clampLimit_pos _) (Nat.zero_le _), fun pages hpages => ?_⟩
  rw [hpages.flatten hserves]
  exact ⟨perm_orderedFiles _, pairwise_orderedFiles htrans htotal _⟩

/-- A catalogue with one torrent of two files. -/
def twoFiles : Catalogue :=
  { Catalogue.migrated with
    torrents := AList.insert 7 ⟨some "a", none, 3, 2, "dht", 0, 0, 0, true⟩ ∅
    files := [⟨7, "b/c", 1⟩, ⟨7, "a", 2⟩] }

/-- The file is found by a letter of the other case. -/
theorem file_pages_complete_twoFiles :
    ∃ pages, Follows
        (askFiles plainHex .ignoreCase twoFiles (hexEncode 7) { q := some "A", limit := 1 }) 0 pages ∧
      (pages.flatMap Page.rows).Perm [⟨"a", 2⟩] := by
  have htrans : ∀ a b d, Collation.ignoreCase.le a b → Collation.ignoreCase.le b d →
      Collation.ignoreCase.le a d := fun a b d hab hbd =>
    decide_eq_true (le_trans (of_decide_eq_true hab) (of_decide_eq_true hbd))
  have htotal : ∀ a b, Collation.ignoreCase.le a b || Collation.ignoreCase.le b a := fun a b => by
    simpa [Collation.ignoreCase] using le_total a.toLower b.toLower
  obtain ⟨⟨pages, hpages⟩, hall⟩ := file_pages_complete (c := twoFiles) plainHex_decodes
    (denotes_hexEncode 7) (by decide) (by decide) htrans htotal { q := some "A", limit := 1 }
  refine ⟨pages, hpages, (hall pages hpages).1.trans ?_⟩
  have hfound : ((filesOf 7 twoFiles.files).filter fun f =>
      Like.contains Collation.ignoreCase.same "A".toList f.path.toList) = [⟨7, "a", 2⟩] := by
    decide
  simp only [Option.getD_some, hfound, List.map_cons, List.map_nil]
  exact .refl _

end Files

end Btfind
