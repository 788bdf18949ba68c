import Btfind.Web.Service

/-!
# Searching through the interface

A request is refused before the database is asked, or it is answered from the tables. The sort in
the response is the order of its page, and whoever follows the pages reads every match once.
-/

namespace Btfind

open OffsetPages

/-- The size filters that `validate_search_filters` accepts. -/
structure SizesAccepted (params : SearchQuery) : Prop where
  minSize : ∀ size, params.minSize = some size → 0 ≤ size
  maxSize : ∀ size, params.maxSize = some size → 0 ≤ size
  range : ∀ lo hi, params.minSize = some lo → params.maxSize = some hi → lo ≤ hi

/-- The parameters that `api_search` accepts. -/
structure SearchAccepted (u : Unicode) (params : SearchQuery) : Prop where
  sizes : SizesAccepted params
  sort : ∀ sort, params.sort = some sort →
    sort = "rank" ∨ sort = "last_seen" ∨ sort = "total_size"
  query : trim (params.q.getD "") = "" ∨ QueryAccepted u (params.q.getD "")

/-- The filters of accepted parameters. -/
def SearchQuery.filters (params : SearchQuery) : TorrentSearchFilters where
  completeOnly := params.completeOnly.getD false
  minSize := params.minSize
  maxSize := params.maxSize

/-- The sort that names an order in a response. -/
def TorrentOrder.sortName : TorrentOrder → String
  | .score => "rank"
  | .lastSeen => "last_seen"
  | .firstSeen => "first_seen"
  | .totalSize => "total_size"
  | .name => "name"

/-! ## The checks -/

section Checks

variable {u : Unicode} {params : SearchQuery} {query terms : String} {sort : Option String}

theorem validateSearchFilters_accepted (h : SizesAccepted params) :
    validateSearchFilters params = .ok params.filters := by
  obtain ⟨hmin, hmax, hrange⟩ := h
  unfold validateSearchFilters
  cases hlo : params.minSize with
  | none =>
    cases hhi : params.maxSize with
    | none => simp [SearchQuery.filters, hlo, hhi]
    | some hi => simp [SearchQuery.filters, hlo, hhi, hmax hi hhi]
  | some lo =>
    cases hhi : params.maxSize with
    | none => simp [SearchQuery.filters, hlo, hhi, hmin lo hlo]
    | some hi =>
      have hlow := Int.not_lt.mpr (hmin lo hlo)
      have hhigh := Int.not_lt.mpr (hmax hi hhi)
      have horder := Int.not_lt.mpr (hrange lo hi hlo hhi)
      simp [SearchQuery.filters, hlo, hhi, hlow, hhigh, horder]

theorem validateSearchFilters_refused (h : ¬ SizesAccepted params) :
    ∃ message, validateSearchFilters params = .error (.badRequest message) := by
  unfold validateSearchFilters
  split_ifs with hmin hmax hrange
  · exact ⟨_, rfl⟩
  · exact ⟨_, rfl⟩
  · exact ⟨_, rfl⟩
  · refine absurd ⟨fun size hsize => ?_, fun size hsize => ?_, fun lo hi hlo hhi => ?_⟩ h
    · simpa [hsize] using hmin
    · simpa [hsize] using hmax
    · simpa [hlo, hhi] using hrange

theorem validateSort_cases (sort : String) :
    ((sort = "rank" ∨ sort = "last_seen" ∨ sort = "total_size") ∧ validateSort sort = .ok ()) ∨
    (¬ (sort = "rank" ∨ sort = "last_seen" ∨ sort = "total_size") ∧
      ∃ message, validateSort sort = .error (.badRequest message)) := by
  by_cases h : sort = "rank" ∨ sort = "last_seen" ∨ sort = "total_size"
  · exact .inl ⟨h, if_pos h⟩
  · exact .inr ⟨h, _, if_neg h⟩

/-- The sorts that the store is asked for. -/
theorem effectiveSort_cases (query : String) (sort : Option String) :
    (effectiveSort query sort = "rank" ∧ 2 ≤ (trim query).length) ∨
      effectiveSort query sort = "last_seen" ∨ effectiveSort query sort = "total_size" := by
  unfold effectiveSort
  cases sort with
  | none =>
    by_cases h : 2 ≤ (trim query).length
    · simp [h]
    · simp [h]
  | some sort =>
    by_cases hsize : sort = "total_size"
    · simp [hsize]
    · by_cases hseen : sort = "last_seen"
      · simp [hseen]
      · by_cases hrank : sort = "rank" ∧ 2 ≤ (trim query).length
        · simp [hrank]
        · simp [hsize, hseen, hrank]

theorem trim_ne_empty (h : 2 ≤ (trim query).length) : trim query ≠ "" := by
  intro hempty
  rw [hempty, String.length_empty] at h
  omega

/-- The order of the store is the one that the response names; a search by rank has terms. -/
theorem torrentOrder_effectiveSort (sort : Option String) (hspace : SpaceFree u)
    (h : searchQuery u query = .ok terms) :
    ∃ order, torrentOrder (effectiveSort query sort) terms = .ok order ∧
      order.sortName = effectiveSort query sort := by
  rcases effectiveSort_cases query sort with ⟨hsort, hlength⟩ | hsort | hsort
  · have hterms : terms ≠ "" := by
      rintro rfl
      exact trim_ne_empty hlength ((searchQuery_empty_iff hspace query).mp h)
    exact ⟨.score, by simp [torrentOrder, hsort, hterms], hsort.symm⟩
  · exact ⟨.lastSeen, by simp [torrentOrder, hsort], hsort.symm⟩
  · exact ⟨.totalSize, by simp [torrentOrder, hsort], hsort.symm⟩

theorem validateQuery_cases (hspace : SpaceFree u) (query : String) :
    ((trim query = "" ∨ QueryAccepted u query) ∧
      ∃ terms, searchQuery u query = .ok terms ∧ validateQuery u query = .ok terms) ∨
    (¬ (trim query = "" ∨ QueryAccepted u query) ∧
      ∃ message, validateQuery u query = .error (.badRequest message)) := by
  unfold validateQuery
  rcases searchQuery_cases hspace query with ⟨hblank, h⟩ | ⟨-, hacc, h⟩ | ⟨hblank, hacc, message, h⟩
  · exact .inl ⟨.inl hblank, _, h, by rw [h]; rfl⟩
  · exact .inl ⟨.inr hacc, _, h, by rw [h]; rfl⟩
  · exact .inr ⟨not_or.mpr ⟨hblank, hacc⟩, message, by rw [h]; rfl⟩

end Checks

/-! ## The responses -/

section Responses

variable {u : Unicode} {ft : FullText} {encode : String → String} {connection : Connection}
  {params : SearchQuery} {c : Catalogue}

/-- The response of a page of the ordered torrents. -/
def searchResponse (ft : FullText) (encode : String → String) (order : TorrentOrder)
    (terms : String) (params : SearchQuery) (c : Catalogue) : SearchResponse :=
  let torrents := orderedTorrents ft order terms params.filters c
  { results := ((torrents.drop (clampOffset params.offset)).take (clampLimit params.limit)).map
      (torrentToSearchResult encode)
    limit := clampLimit params.limit
    offset := clampOffset params.offset
    hasNext := decide (clampOffset params.offset + clampLimit params.limit < torrents.length)
    effectiveSort := order.sortName }

theorem apiSearch_refused (hspace : SpaceFree u) (h : ¬ SearchAccepted u params) :
    ∃ message, ∀ connection,
      apiSearch u ft encode connection params = ⟨.error (.badRequest message), 0⟩ := by
  by_cases hsizes : SizesAccepted params
  · have hfilters := validateSearchFilters_accepted hsizes
    cases hsort : params.sort with
    | none =>
      rcases validateQuery_cases hspace (params.q.getD "") with ⟨hacc, -⟩ | ⟨-, message, hquery⟩
      · exact absurd ⟨hsizes, by simp [hsort], hacc⟩ h
      · exact ⟨message, fun _ => by simp [apiSearch, checkRequest, hfilters, hsort, hquery]⟩
    | some sort =>
      rcases validateSort_cases sort with ⟨hgood, hok⟩ | ⟨-, message, hbad⟩
      · rcases validateQuery_cases hspace (params.q.getD "") with ⟨hacc, -⟩ | ⟨-, message, hquery⟩
        · refine absurd ⟨hsizes, ?_, hacc⟩ h
          rintro other heq
          rw [hsort, Option.some_inj] at heq
          rwa [← heq]
        · exact ⟨message, fun _ => by simp [apiSearch, checkRequest, hfilters, hsort, hok, hquery]⟩
      · exact ⟨message, fun _ => by simp [apiSearch, checkRequest, hfilters, hsort, hbad]⟩
  · obtain ⟨message, hfilters⟩ := validateSearchFilters_refused hsizes
    exact ⟨message, fun _ => by simp [apiSearch, checkRequest, hfilters]⟩

/-- An accepted request meets the connection alone, whatever its offset is. -/
theorem apiSearch_accepted (ft : FullText) (encode : String → String) (hspace : SpaceFree u)
    (h : SearchAccepted u params) :
    ∃ (terms : String) (order : TorrentOrder), searchQuery u (params.q.getD "") = .ok terms ∧
      order.sortName = effectiveSort (params.q.getD "") params.sort ∧
      ∀ connection offset, apiSearch u ft encode connection { params with offset } =
        readStore connection fun c =>
          ⟨.ok (searchResponse ft encode order terms { params with offset } c), 0⟩ := by
  obtain ⟨-, terms, hterms, hquery⟩ | ⟨hrefused, -⟩ := validateQuery_cases hspace (params.q.getD "")
  swap
  · exact absurd h.query hrefused
  obtain ⟨order, horder, hname⟩ := torrentOrder_effectiveSort params.sort hspace hterms
  refine ⟨terms, order, hterms, hname, fun connection offset => ?_⟩
  have hsort : params.sort.elim (.ok ()) validateSort = .ok () := by
    cases hsort : params.sort with
    | none => rfl
    | some sort => exact if_pos (h.sort sort hsort)
  have hfilters : validateSearchFilters { params with offset } = .ok params.filters :=
    validateSearchFilters_accepted ⟨h.sizes.minSize, h.sizes.maxSize, h.sizes.range⟩
  simp only [apiSearch, checkRequest, hfilters, hsort, hquery, searchTorrentsFilteredPage, hterms,
    horder]
  cases connection with
  | error e => rfl
  | ok c =>
    simp only [readStore, Except.map, searchResponse, hname, pageOf_rows (lt_fetchLimit _),
      pageOf_hasNext_eq (lt_fetchLimit _)]
    rfl

/-- A request is refused without a query, or it is answered as the tables are, in the order that
the response names; an error of the database is counted once and told without its text. -/
theorem api_search_contract (ft : FullText) (encode : String → String) (hspace : SpaceFree u)
    (params : SearchQuery) :
    (¬ SearchAccepted u params → ∃ message, ∀ connection,
      apiSearch u ft encode connection params = ⟨.error (.badRequest message), 0⟩) ∧
    (SearchAccepted u params →
      (∀ e, apiSearch u ft encode (.error e) params =
        ⟨.error (.db "database temporarily unavailable"), 1⟩) ∧
      ∃ (terms : String) (order : TorrentOrder), searchQuery u (params.q.getD "") = .ok terms ∧
        order.sortName = effectiveSort (params.q.getD "") params.sort ∧
        ∀ c, apiSearch u ft encode (.ok c) params =
          ⟨.ok (searchResponse ft encode order terms params c), 0⟩) := by
  refine ⟨apiSearch_refused hspace, fun haccepted => ?_⟩
  obtain ⟨terms, order, hterms, hname, hresponse⟩ := apiSearch_accepted ft encode hspace haccepted
  exact ⟨fun e => hresponse (.error e) params.offset, terms, order, hterms, hname,
    fun c => hresponse (.ok c) params.offset⟩

end Responses

/-- An index that finds the documents whose name is the term. -/
def FullText.byName : FullText where
  isMatch terms d := terms == quoteTerm d.name
  score _ _ _ := 6
  nameLe _ _ := true

theorem searchAccepted_ubuntu : SearchAccepted .ascii { q := some "ubuntu" } :=
  ⟨⟨by simp, by simp, by simp⟩, by simp, .inr ⟨by decide, by decide, by decide⟩⟩

theorem api_search_contract_ubuntu :
    apiSearch .ascii .byName percentEncode (.error rowNotFound) { q := some "ubuntu" } =
      ⟨.error (.db "database temporarily unavailable"), 1⟩ :=
  ((api_search_contract .byName percentEncode (spaceFree_isAlphanum _) _).2
    searchAccepted_ubuntu).1 rowNotFound

/-! ## Following the pages -/

section Pages

variable {u : Unicode} {params : SearchQuery} {c : Catalogue}

/-- The pages of a search, asked for one after the other while the tables stay as they are. -/
def askSearch (u : Unicode) (ft : FullText) (encode : String → String) (c : Catalogue)
    (params : SearchQuery) (offset : Nat) : Option (Nat × Page SearchResult) :=
  match (apiSearch u ft encode (.ok c) { params with offset }).response with
  | .ok response => some (response.limit, ⟨response.results, response.hasNext⟩)
  | .error _ => none

theorem serves_askSearch (ft : FullText) (encode : String → String) (hspace : SpaceFree u)
    (haccepted : SearchAccepted u params) (hrows : c.torrents.count < 2 ^ 63) :
    ∃ (terms : String) (order : TorrentOrder), searchQuery u (params.q.getD "") = .ok terms ∧
      order.sortName = effectiveSort (params.q.getD "") params.sort ∧
      Serves (askSearch u ft encode c params) (clampLimit params.limit)
        ((orderedTorrents ft order terms params.filters c).map
          (torrentToSearchResult encode)) := by
  obtain ⟨terms, order, hterms, hname, hresponse⟩ := apiSearch_accepted ft encode hspace haccepted
  refine ⟨terms, order, hterms, hname, fun offset hoffset => ?_⟩
  have hcount : (orderedTorrents ft order terms params.filters c).length ≤ c.torrents.count :=
    length_orderedTorrents_le
  rw [List.length_map] at hoffset
  -- No offset within the rows is as large as the bound that it is clamped to.
  have hclamp : clampOffset offset = offset := by
    unfold clampOffset
    omega
  refine ⟨_, by rw [askSearch, hresponse]; rfl, ?_, ?_⟩
  · simp only [searchResponse, hclamp, List.map_take, List.map_drop]
    rfl
  · simp only [searchResponse, hclamp, decide_eq_true_iff, List.length_map]
    exact Iff.rfl

theorem order_ne_name {order : TorrentOrder} {query : String} {sort : Option String}
    (h : order.sortName = effectiveSort query sort) : order ≠ .name := by
  rintro rfl
  rcases effectiveSort_cases query sort with ⟨hsort, -⟩ | hsort | hsort <;>
    simp [TorrentOrder.sortName, hsort] at h

/-- Whoever follows the pages comes to an end and has then read every match once, in order. -/
theorem search_pages_complete (ft : FullText) (encode : String → String) (hspace : SpaceFree u)
    (haccepted : SearchAccepted u params) (hrows : c.torrents.count < 2 ^ 63) :
    (∃ pages, Follows (askSearch u ft encode c params) 0 pages) ∧
    ∀ pages, Follows (askSearch u ft encode c params) 0 pages →
      ∃ (terms : String) (order : TorrentOrder) (torrents : List TorrentRecord),
        searchQuery u (params.q.getD "") = .ok terms ∧
        order.sortName = effectiveSort (params.q.getD "") params.sort ∧
        pages.flatMap Page.rows = torrents.map (torrentToSearchResult encode) ∧
        (torrents.map (·.infoHash)).Nodup ∧
        (∀ t, t ∈ torrents ↔ c.torrents.lookup t.infoHash = some t.toTorrentRow ∧
          matchesTerms ft terms c t = true ∧ params.filters.pass t = true) ∧
        torrents.Pairwise (fun a b => order.le ft terms c a b = true) ∧
        pages.length =
          max 1 ((torrents.length + clampLimit params.limit - 1) / clampLimit params.limit) := by
  obtain ⟨terms, order, hterms, hname, hserves⟩ :=
    serves_askSearch ft encode hspace haccepted hrows
  refine ⟨exists_follows hserves (clampLimit_pos _) (Nat.zero_le _), fun pages hpages => ?_⟩
  refine ⟨terms, order, orderedTorrents ft order terms params.filters c, hterms, hname,
    hpages.flatten hserves, nodup_orderedTorrents, fun t => ?_,
    pairwise_orderedTorrents (order_ne_name hname), ?_⟩
  · rw [mem_orderedTorrents, mem_selectedTorrents]
  · rw [hpages.length_eq hserves (clampLimit_pos _) (Nat.zero_le _), List.length_map, Nat.sub_zero]

/-- Three torrents of a name, and one of another. -/
def releases : Catalogue :=
  let row (name : String) (lastSeen : Int) : TorrentRow :=
    ⟨some name, none, 3, 1, "dht", 0, lastSeen, 0, true⟩
  { Catalogue.migrated with
    torrents := AList.insert 1 (row "ubuntu" 10) (AList.insert 2 (row "ubuntu" 30)
      (AList.insert 3 (row "ubuntu" 20) (AList.insert 4 (row "debian" 40) ∅)))
    searchDocuments := AList.insert 1 ⟨"ubuntu", "iso"⟩ (AList.insert 2 ⟨"ubuntu", "iso"⟩
      (AList.insert 3 ⟨"ubuntu", "iso"⟩ (AList.insert 4 ⟨"debian", "iso"⟩ ∅))) }

/-- The search for the first name finds its torrents. -/
theorem mem_releases {hash : InfoHash} {torrents : List TorrentRecord}
    (h : ∀ t, t ∈ torrents ↔ releases.torrents.lookup t.infoHash = some t.toTorrentRow ∧
      matchesTerms .byName (quoteTerm "ubuntu") releases t = true ∧
      TorrentSearchFilters.pass {} t = true) :
    hash ∈ torrents.map (·.infoHash) ↔ hash ∈ ([1, 2, 3] : List InfoHash) := by
  constructor
  · intro hmem
    obtain ⟨t, ht, rfl⟩ := List.mem_map.mp hmem
    obtain ⟨hrow, hmatch, -⟩ := (h t).mp ht
    simp only [releases, AList.lookup_insert_eq] at hrow
    split_ifs at hrow with h₁ h₂ h₃ h₄
    · simp [h₁]
    · simp [h₂]
    · simp [h₃]
    · -- The document of the fourth torrent has the other name.
      rw [matchesTerms, h₄] at hmatch
      exact absurd hmatch (by decide)
    · cases hrow
  · intro hmem
    simp only [List.mem_cons, List.not_mem_nil, or_false] at hmem
    rcases hmem with rfl | rfl | rfl
    all_goals exact List.mem_map.mpr ⟨⟨_, _⟩, (h _).mpr ⟨rfl, by decide, rfl⟩, rfl⟩

theorem search_pages_complete_releases :
    ∃ pages, Follows (askSearch .ascii .byName percentEncode releases
        { q := some "ubuntu", limit := 1 }) 0 pages ∧
      pages.length = 3 ∧ ∃ torrents : List TorrentRecord,
        pages.flatMap Page.rows = torrents.map (torrentToSearchResult percentEncode) ∧
        (torrents.map (·.infoHash)).Perm [1, 2, 3] := by
  have haccepted : SearchAccepted .ascii { q := some "ubuntu", limit := 1 } :=
    ⟨⟨by simp, by simp, by simp⟩, by simp, searchAccepted_ubuntu.query⟩
  obtain ⟨⟨pages, hpages⟩, hall⟩ := search_pages_complete .byName percentEncode
    (spaceFree_isAlphanum _) haccepted (c := releases) (by decide)
  obtain ⟨terms, order, torrents, hterms, -, hrows, hnodup, hmem, -, hlength⟩ := hall pages hpages
  have hquery : searchQuery .ascii "ubuntu" = .ok (quoteTerm "ubuntu") := by decide
  obtain rfl : terms = quoteTerm "ubuntu" := Except.ok.inj (hterms.symm.trans hquery)
  have hperm : (torrents.map (·.infoHash)).Perm [1, 2, 3] :=
    (List.perm_ext_iff_of_nodup hnodup (by decide)).mpr fun hash => mem_releases hmem
  refine ⟨pages, hpages, ?_, torrents, hrows, hperm⟩
  have hthree : torrents.length = 3 := by simpa using hperm.length_eq
  rw [hlength, hthree]
  rfl

end Pages

end Btfind
