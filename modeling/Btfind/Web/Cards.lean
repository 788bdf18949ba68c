import Btfind.Library.Markup
import Btfind.Web.FilePanelRuns

/-!
# The cards of the dashboard

What the dashboard writes into the page: the cards of the results with their panels. A text that
others chose stands in the page with its escapes; the texts without are info hashes and times.
-/

namespace Btfind

open Markup Transition

/-- `replace`, with a character for every match. -/
def replaceAll (c : Char) (replacement : String) (cs : List Char) : List Char :=
  cs.flatMap fun d => if d = c then replacement.toList else [d]

/-- `escapeHtml` and `escapeAttr` -/
def escapeHtml (value : String) : String :=
  let cs := replaceAll '&' "&amp;" value.toList
  let cs := replaceAll '<' "&lt;" cs
  let cs := replaceAll '>' "&gt;" cs
  let cs := replaceAll '"' "&quot;" cs
  String.ofList (replaceAll apostrophe "&#39;" cs)

def attributeText : Attribute → String
  | .flag name => " " ++ name
  | .quoted name own value => " " ++ name ++ "=\"" ++ own ++ escapeHtml value ++ "\""

def itemText : Item → String
  | .start name attributes => "<" ++ name ++ String.join (attributes.map attributeText) ++ ">"
  | .stop name => "</" ++ name ++ ">"
  | .own text => text
  | .value text => escapeHtml text

/-- The text of a template. -/
def pageText (items : List Item) : String := String.join (items.map itemText)

/-- How numbers, sizes and times are written. -/
structure Formats where
  formatSize : Int → String
  formatNumber : Int → String
  toIsoString : Int → String
  toLocaleString : Int → String
  formatRelativeTime : Int → String

section Templates

variable (fmt : Formats)

def timeElement (seconds : Int) : List Item :=
  if seconds = 0 then [.own "Unknown"]
  else
    [.start "time" [.quoted "datetime" (fmt.toIsoString seconds),
      .quoted "title" "" (fmt.toLocaleString seconds), .quoted "data-relative-time" seconds.repr],
      .value (fmt.formatRelativeTime seconds), .stop "time"]

def fileRow (file : Web.FileEntry) : List Item :=
  [.start "div" [.quoted "class" "file-row"],
    .start "div" [.quoted "class" "file-path"], .value file.path, .stop "div",
    .start "div" [.quoted "class" "cell"], .value (fmt.formatSize file.size), .stop "div",
    .stop "div"]

def boolText (b : Bool) : String := if b then "true" else "false"

/-- The list of a file panel. -/
def fileList (detail : Detail) : List Item :=
  if detail.files ≠ [] then detail.files.flatMap (fileRow fmt)
  else
    [.start "div" [.quoted "class" "empty"],
      .own (if detail.filesLoading then "Loading files…"
        else if detail.fileQuery.isEmpty then "No files indexed."
        else "No file paths match this filter."),
      .stop "div"]

/-- The error of a file panel. -/
def fileError (infoHash : String) (detail : Detail) : List Item :=
  match detail.filesError with
  | some error =>
    [.start "div" [.quoted "class" "status error"], .value error, .stop "div",
      .start "button" [.quoted "class" "mini", .quoted "type" "button",
        .quoted "data-files-retry" "" infoHash],
      .own "Retry", .stop "button"]
  | none => []

/-- The button for more files. -/
def moreFiles (infoHash : String) (detail : Detail) : List Item :=
  if detail.hasMoreFiles then
    let disabled := if detail.filesLoading then [.flag "disabled"] else []
    [.start "button" (.quoted "class" "mini" :: .quoted "type" "button" ::
        .quoted "data-files-more" "" infoHash :: disabled),
      .own "Show more", .stop "button"]
  else []

def filePanel (infoHash : String) (detail : Detail) : List Item :=
  List.flatten [
    [.start "form" [.quoted "class" "file-search", .quoted "data-file-search" "" infoHash],
      .own "\n            ",
      .start "label" [.quoted "class" "visually-hidden", .quoted "for" "file-query-" infoHash],
      .own "Filter file paths", .stop "label",
      .own "\n            ", .start "div" [.quoted "class" "file-toolbar"],
      .own "\n                ",
      .start "input" [.quoted "id" "file-query-" infoHash, .quoted "type" "search",
        .quoted "value" "" detail.fileQuery, .quoted "placeholder" "Filter file paths",
        .quoted "autocomplete" "off"],
      .own "\n                ",
      .start "button" [.quoted "class" "mini", .quoted "type" "submit"],
      .own "Filter files", .stop "button",
      .own "\n            ", .stop "div",
      .own "\n        ", .stop "form",
      .own "\n        "],
    fileError infoHash detail,
    [.own "\n        ",
      .start "div" [.quoted "class" "file-list",
        .quoted "aria-busy" (boolText detail.filesLoading)]],
    fileList fmt detail,
    [.stop "div",
      .own "\n        ", .start "div" [.quoted "class" "file-footer"],
      .own "\n            ", .start "span", .own "Showing ",
      .value (fmt.formatNumber detail.files.length), .own " files", .stop "span",
      .own "\n            "],
    moreFiles infoHash detail,
    [.own "\n        ", .stop "div"]]

/-- `detailPanel`; a detail without summary and error would be a type error. -/
def detailPanel (detail : Option Detail) (infoHash detailId : String) : Option (List Item) :=
  let opening : Item :=
    .start "section" [.quoted "class" "detail", .quoted "id" detailId,
      .quoted "aria-label" "Torrent details"]
  let loading : List Item :=
    [opening, .start "div" [.quoted "class" "status"], .own "Loading torrent details…",
      .stop "div", .stop "section"]
  match detail with
  | none => some loading
  | some detail =>
    if detail.loading then some loading
    else
      match detail.error, detail.summary with
      | some error, _ =>
        some [opening, .start "div" [.quoted "class" "status error"], .value error, .stop "div",
          .start "button" [.quoted "class" "mini", .quoted "type" "button",
            .quoted "data-detail-retry" "" infoHash],
          .own "Retry", .stop "button", .stop "section"]
      | none, none => none
      | none, some summary =>
        some (List.flatten [
          [opening,
            .own "\n        ", .start "div" [.quoted "class" "detail-grid"],
            .own "\n            ", .start "div", .own "First seen", .start "br"],
          timeElement fmt summary.firstSeen,
          [.stop "div",
            .own "\n            ", .start "div", .own "Last seen", .start "br"],
          timeElement fmt summary.lastSeen,
          [.stop "div",
            .own "\n            ", .start "div", .own "Total size", .start "br",
            .value (fmt.formatSize summary.totalSize), .stop "div",
            .own "\n            ", .start "div", .own "Files", .start "br",
            .value (fmt.formatNumber summary.fileCount), .stop "div",
            .own "\n        ", .stop "div",
            .own "\n        ", .start "div" [.quoted "class" "actions detail-actions"],
            .own "\n            ",
            .start "button" [.quoted "class" "mini", .quoted "type" "button",
              .quoted "data-copy" "" summary.infoHash, .quoted "data-copy-label" "Info hash"],
            .own "Copy hash", .stop "button",
            .own "\n        ", .stop "div",
            .own "\n        "],
          filePanel fmt infoHash detail,
          [.own "\n    ", .stop "section"]])

/-- `torrent.name || '(unknown)'` -/
def cardName (torrent : SearchResult) : String :=
  match torrent.name with
  | some name => if name.isEmpty then "(unknown)" else name
  | none => "(unknown)"

def resultCard (s : DetailPanels) (expandedHash : Option String) (torrent : SearchResult) :
    Option (List Item) :=
  let expanded := decide (expandedHash = some torrent.infoHash)
  let detailId := "detail-" ++ torrent.infoHash
  let panel :=
    if expanded then
      detailPanel fmt ((s.details.lookup torrent.infoHash).bind s.objects.lookup) torrent.infoHash
        detailId
    else some []
  panel.map fun panel => List.flatten [
    [.start "article" [.quoted "class" ("torrent-card" ++ if expanded then " expanded" else ""),
        .quoted "data-hash" "" torrent.infoHash],
      .own "\n        ", .start "div" [.quoted "class" "torrent-summary"],
      .own "\n            ",
      .start "button" [.quoted "class" "torrent-title", .quoted "type" "button",
        .quoted "data-expand" "" torrent.infoHash, .quoted "aria-expanded" (boolText expanded),
        .quoted "aria-controls" detailId],
      .own "\n                ",
      .start "span" [.quoted "class" "chevron", .quoted "aria-hidden" "true"], .own "›",
      .stop "span",
      .own "\n                ", .start "span" [.quoted "class" "title-text"],
      .start "span" [.quoted "class" "name"], .value (cardName torrent), .stop "span",
      .start "span" [.quoted "class" "hash"], .value torrent.infoHash, .stop "span", .stop "span",
      .own "\n            ", .stop "button",
      .own "\n            ", .start "div" [.quoted "class" "cell"],
      .start "span" [.quoted "class" "mobile-label"], .own "Size", .stop "span",
      .value (fmt.formatSize torrent.totalSize), .stop "div",
      .own "\n            ", .start "div" [.quoted "class" "cell"],
      .start "span" [.quoted "class" "mobile-label"], .own "Files", .stop "span",
      .value (fmt.formatNumber torrent.fileCount), .stop "div",
      .own "\n            ", .start "div" [.quoted "class" "cell"],
      .start "span" [.quoted "class" "mobile-label"], .own "Last seen", .stop "span"],
    timeElement fmt torrent.lastSeen,
    [.stop "div",
      .own "\n            ", .start "div" [.quoted "class" "actions"],
      .own "\n                ",
      .start "button" [.quoted "class" "mini primary-action", .quoted "type" "button",
        .quoted "data-copy" "" torrent.magnet, .quoted "data-copy-label" "Magnet link"],
      .own "Copy magnet", .stop "button",
      .own "\n                ",
      .start "a" [.quoted "class" "mini", .quoted "href" "" torrent.magnet], .own "Open magnet",
      .stop "a",
      .own "\n            ", .stop "div",
      .own "\n        ", .stop "div",
      .own "\n        "],
    panel,
    [.own "\n    ", .stop "article"]]

def renderEmpty (message : String) : List Item :=
  [.start "div" [.quoted "class" "empty"], .value message, .stop "div"]

/-- `renderResults` -/
def renderResults (s : DetailPanels) (expandedHash : Option String) (statsTotal : Option Int)
    (results : List SearchResult) : Option (List Item) :=
  if results = [] then
    if statsTotal = some 0 then
      some (renderEmpty "The database does not contain any torrents yet.")
    else some (renderEmpty "No torrents match this search.")
  else (results.mapM (resultCard fmt s expandedHash)).map List.flatten

end Templates

/-! ## Escapes -/

theorem replaceAll_append (c : Char) (replacement : String) (xs ys : List Char) :
    replaceAll c replacement (xs ++ ys) =
      replaceAll c replacement xs ++ replaceAll c replacement ys :=
  List.flatMap_append

theorem replaceAll_of_ne {c d : Char} (h : d ≠ c) (replacement : String) :
    replaceAll c replacement [d] = [d] := by
  rw [replaceAll, List.flatMap_singleton, if_neg h]

/-- The ampersand is replaced first, so no escape is escaped again. -/
theorem replaceAll_eq_escapeChar (c : Char) :
    replaceAll apostrophe "&#39;" (replaceAll '"' "&quot;" (replaceAll '>' "&gt;"
      (replaceAll '<' "&lt;" (replaceAll '&' "&amp;" [c])))) = escapeChar c := by
  unfold escapeChar
  split_ifs with h₁ h₂ h₃ h₄ h₅
  · subst h₁
    rfl
  · subst h₂
    rfl
  · subst h₃
    rfl
  · subst h₄
    rfl
  · subst h₅
    rfl
  · rw [replaceAll_of_ne h₁, replaceAll_of_ne h₂, replaceAll_of_ne h₃, replaceAll_of_ne h₄,
      replaceAll_of_ne h₅]

theorem toList_escapeHtml (value : String) : (escapeHtml value).toList = escape value.toList := by
  simp only [escapeHtml, String.toList_ofList]
  induction value.toList with
  | nil => rfl
  | cons c cs ih =>
    have hcons : c :: cs = [c] ++ cs := rfl
    have hescape : escape (c :: cs) = escapeChar c ++ escape cs := rfl
    rw [hescape, ← ih, hcons]
    simp only [replaceAll_append]
    rw [replaceAll_eq_escapeChar]

theorem toList_join (texts : List String) :
    (String.join texts).toList = texts.flatMap String.toList := by
  simp [List.flatMap_def]

theorem toList_attributeText (attr : Attribute) : (attributeText attr).toList = attr.render := by
  cases attr with
  | flag name => simp [attributeText, Attribute.render]
  | quoted name own value =>
    simp [attributeText, Attribute.render, toList_escapeHtml]

/-- The text of a template is its rendering. -/
theorem toList_pageText (items : List Item) : (pageText items).toList = render items := by
  rw [pageText, toList_join, List.flatMap_map, render]
  refine List.flatMap_congr fun item _ => ?_
  cases item with
  | start name attributes =>
    simp [itemText, Item.render, List.flatMap_map, toList_attributeText]
  | stop name => simp [itemText, Item.render]
  | own text => rfl
  | value text => exact toList_escapeHtml text

/-! ## Well-formed templates -/

section WellFormed

variable {fmt : Formats} {items : List Item}

/-- Digits and a sign are plain. -/
theorem literal_repr (n : Int) : literal n.repr = true := by
  have hdigits : ∀ m : Nat, (Nat.repr m).toList.all plain = true := by
    intro m
    rw [List.all_eq_true]
    intro c hc
    rw [Nat.toList_repr] at hc
    have hdigit := Nat.isDigit_of_mem_toDigits (by decide) (by decide) hc
    simp only [plain, Bool.and_eq_true, decide_eq_true_eq]
    refine ⟨⟨⟨⟨⟨⟨?_, ?_⟩, ?_⟩, ?_⟩, ?_⟩, ?_⟩, ?_⟩ <;> (rintro rfl; revert hdigit; decide)
  cases n with
  | ofNat m => exact hdigits m
  | negSucc m =>
    rw [literal, Int.repr, String.toList_append, List.all_append, hdigits, Bool.and_true]
    decide

theorem literal_hexEncode (hash : InfoHash) : literal (hexEncode hash) = true := by
  rw [literal, List.all_eq_true]
  intro c hc
  rw [toList_hexEncode, List.mem_map] at hc
  obtain ⟨n, hn, rfl⟩ := hc
  have hlt := hashDigits_lt hash n hn
  interval_cases n <;> decide

theorem literal_append {a b : String} (ha : literal a = true) (hb : literal b = true) :
    literal (a ++ b) = true := by
  rw [literal, String.toList_append, List.all_append, Bool.and_eq_true]
  exact ⟨ha, hb⟩

theorem wellFormed_timeElement (hiso : ∀ n, literal (fmt.toIsoString n) = true) (seconds : Int) :
    WellFormed (timeElement fmt seconds ++ items) ↔ WellFormed items := by
  unfold timeElement
  split_ifs
  · simp +decide [WellFormed]
  · simp +decide [WellFormed, Attribute.Ok, startsOnLine, hiso, literal_repr]

theorem wellFormed_fileRow (file : Web.FileEntry) :
    WellFormed (fileRow fmt file ++ items) ↔ WellFormed items := by
  simp +decide [fileRow, WellFormed, Attribute.Ok, startsOnLine]

theorem wellFormed_files (files : List Web.FileEntry) :
    WellFormed (files.flatMap (fileRow fmt) ++ items) ↔ WellFormed items := by
  induction files with
  | nil => rfl
  | cons file files ih =>
    rw [List.flatMap_cons, List.append_assoc, wellFormed_fileRow, ih]

theorem wellFormed_fileList (detail : Detail) :
    WellFormed (fileList fmt detail ++ items) ↔ WellFormed items := by
  unfold fileList
  split_ifs
  · exact wellFormed_files _
  all_goals simp +decide [WellFormed, Attribute.Ok]

theorem wellFormed_fileError (infoHash : String) (detail : Detail) :
    WellFormed (fileError infoHash detail ++ items) ↔ WellFormed items := by
  unfold fileError
  split
  · simp +decide [WellFormed, Attribute.Ok, startsOnLine]
  · rfl

theorem wellFormed_moreFiles (infoHash : String) (detail : Detail) :
    WellFormed (moreFiles infoHash detail ++ items) ↔ WellFormed items := by
  unfold moreFiles
  split_ifs
  · simp +decide [WellFormed, Attribute.Ok]
  · simp +decide [WellFormed, Attribute.Ok]
  · rfl

theorem literal_boolText (b : Bool) : literal (boolText b) = true := by
  cases b <;> decide

theorem wellFormed_filePanel (infoHash : String) (detail : Detail) :
    WellFormed (filePanel fmt infoHash detail ++ items) ↔ WellFormed items := by
  simp +decide [filePanel, WellFormed, Attribute.Ok, startsOnLine, wellFormed_fileList,
    wellFormed_fileError, wellFormed_moreFiles, literal_boolText]

/-- A panel that is written is well-formed. -/
theorem wellFormed_detailPanel (hiso : ∀ n, literal (fmt.toIsoString n) = true)
    {detail : Option Detail} {infoHash detailId : String} (hid : literal detailId = true)
    {panel : List Item} (h : detailPanel fmt detail infoHash detailId = some panel) :
    WellFormed (panel ++ items) ↔ WellFormed items := by
  unfold detailPanel at h
  cases detail with
  | none =>
    cases h
    simp +decide [WellFormed, Attribute.Ok, hid]
  | some detail =>
    simp only at h
    split_ifs at h
    · cases h
      simp +decide [WellFormed, Attribute.Ok, hid]
    · split at h
      · cases h
        simp +decide [WellFormed, Attribute.Ok, startsOnLine, hid]
      · cases h
      · cases h
        simp +decide [WellFormed, Attribute.Ok, startsOnLine, hid, wellFormed_timeElement hiso,
          wellFormed_filePanel]

theorem wellFormed_resultCard (hiso : ∀ n, literal (fmt.toIsoString n) = true)
    {s : DetailPanels} {expandedHash : Option String} {torrent : SearchResult}
    (hhash : literal torrent.infoHash = true) {card : List Item}
    (h : resultCard fmt s expandedHash torrent = some card) :
    WellFormed (card ++ items) ↔ WellFormed items := by
  have hid : literal ("detail-" ++ torrent.infoHash) = true :=
    literal_append (by decide) hhash
  obtain ⟨panel, hpanel, rfl⟩ := Option.map_eq_some_iff.mp h
  have hinner : ∀ items, WellFormed (panel ++ items) ↔ WellFormed items := by
    intro items
    split_ifs at hpanel
    · exact wellFormed_detailPanel hiso hid hpanel
    · cases hpanel
      rfl
  cases decide (expandedHash = some torrent.infoHash) <;>
    simp +decide [WellFormed, Attribute.Ok, startsOnLine, hid, wellFormed_timeElement hiso, hinner]

end WellFormed

/-! ## What a page shows -/

/-- What stands in a page for the reader: the names of the cards with their hashes and links, and
of the open panels the paths, the filters and the errors. -/
structure PageContent where
  names : List String := []
  hashes : List String := []
  magnets : List String := []
  paths : List String := []
  queries : List String := []
  errors : List String := []
  deriving DecidableEq

instance : Append PageContent where
  append a b :=
    ⟨a.names ++ b.names, a.hashes ++ b.hashes, a.magnets ++ b.magnets, a.paths ++ b.paths,
      a.queries ++ b.queries, a.errors ++ b.errors⟩

/-- What the browser finds by the classes and the attributes. -/
def contentOf (ts : List Token) : PageContent where
  names := textsOf "name" ts
  hashes := textsOf "hash" ts
  magnets := valuesOf "href" ts
  paths := textsOf "file-path" ts
  queries := valuesOf "value" ts
  errors := textsOf "status error" ts

/-- What a panel has to show. -/
def panelContent : Option Detail → PageContent
  | none => {}
  | some detail =>
    if detail.loading then {}
    else
      match detail.error with
      | some error => { errors := [shownText error] }
      | none =>
        { paths := detail.files.map fun file => shownText file.path
          queries := [shownValue detail.fileQuery]
          errors := detail.filesError.toList.map shownText }

/-- The panel of a result, when it is expanded. -/
def openPanel (s : DetailPanels) (expandedHash : Option String) (torrent : SearchResult) :
    PageContent :=
  if expandedHash = some torrent.infoHash then
    panelContent ((s.details.lookup torrent.infoHash).bind s.objects.lookup)
  else {}

section Content

variable {fmt : Formats} {items : List Item}

@[simp] theorem PageContent.mk_append (a b c d e f a' b' c' d' e' f' : List String) :
    PageContent.mk a b c d e f ++ PageContent.mk a' b' c' d' e' f' =
      ⟨a ++ a', b ++ b', c ++ c', d ++ d', e ++ e', f ++ f'⟩ := rfl

theorem PageContent.append_assoc (x y z : PageContent) : x ++ y ++ z = x ++ (y ++ z) := by
  obtain ⟨_, _, _, _, _, _⟩ := x
  obtain ⟨_, _, _, _, _, _⟩ := y
  obtain ⟨_, _, _, _, _, _⟩ := z
  simp

@[simp] theorem PageContent.empty_append (x : PageContent) :
    PageContent.mk [] [] [] [] [] [] ++ x = x := rfl

@[simp] theorem contentOf_stop (name : String) :
    contentOf (tokens (.stop name :: items)) = contentOf (tokens items) := rfl

@[simp] theorem contentOf_own (text : String) :
    contentOf (tokens (.own text :: items)) = contentOf (tokens items) := by
  simp [contentOf]

@[simp] theorem contentOf_value (text : String) :
    contentOf (tokens (.value text :: items)) = contentOf (tokens items) := by
  simp [contentOf]

/-- What a tag and the text after it show. -/
def tagContent (attributes : List (String × String)) (text : String) : PageContent :=
  let shows (cls : String) := if attributes.lookup "class" = some cls then [text] else []
  ⟨shows "name", shows "hash", (attributes.lookup "href").toList, shows "file-path",
    (attributes.lookup "value").toList, shows "status error"⟩

@[simp] theorem contentOf_start (name : String) (attributes : List Attribute) :
    contentOf (tokens (.start name attributes :: items)) =
      tagContent (attributes.map Attribute.read) (String.ofList (leadingText (tokens items))) ++
        contentOf (tokens items) := by
  simp only [contentOf, textsOf_start, valuesOf_start]
  rfl

theorem contentOf_timeElement (seconds : Int) :
    contentOf (tokens (timeElement fmt seconds ++ items)) = contentOf (tokens items) := by
  unfold timeElement
  split_ifs
  · simp
  · simp [tagContent, Attribute.read, SortedMap.lookup_cons_eq]

theorem contentOf_fileRow (file : Web.FileEntry) :
    contentOf (tokens (fileRow fmt file ++ items)) =
      { paths := [shownText file.path] } ++ contentOf (tokens items) := by
  simp [fileRow, tagContent, Attribute.read, SortedMap.lookup_cons_eq]

theorem contentOf_files (files : List Web.FileEntry) :
    contentOf (tokens (files.flatMap (fileRow fmt) ++ items)) =
      { paths := files.map fun file => shownText file.path } ++ contentOf (tokens items) := by
  induction files with
  | nil => rfl
  | cons file files ih =>
    rw [List.flatMap_cons, List.append_assoc, contentOf_fileRow, ih, ← PageContent.append_assoc]
    simp

theorem contentOf_fileList (detail : Detail) :
    contentOf (tokens (fileList fmt detail ++ items)) =
      { paths := detail.files.map fun file => shownText file.path } ++
        contentOf (tokens items) := by
  unfold fileList
  split_ifs with hfiles
  · exact contentOf_files _
  all_goals
    rw [not_not] at hfiles
    simp [hfiles, tagContent, Attribute.read, SortedMap.lookup_cons_eq]

theorem contentOf_fileError (infoHash : String) (detail : Detail) :
    contentOf (tokens (fileError infoHash detail ++ items)) =
      { errors := detail.filesError.toList.map shownText } ++ contentOf (tokens items) := by
  unfold fileError
  cases detail.filesError with
  | some error => simp [tagContent, Attribute.read, SortedMap.lookup_cons_eq]
  | none => rfl

theorem contentOf_moreFiles (infoHash : String) (detail : Detail) :
    contentOf (tokens (moreFiles infoHash detail ++ items)) = contentOf (tokens items) := by
  unfold moreFiles
  split_ifs
  · simp [tagContent, Attribute.read, SortedMap.lookup_cons_eq]
  · simp [tagContent, Attribute.read, SortedMap.lookup_cons_eq]
  · rfl

theorem contentOf_filePanel (infoHash : String) (detail : Detail) :
    contentOf (tokens (filePanel fmt infoHash detail ++ items)) =
      { paths := detail.files.map fun file => shownText file.path
        queries := [shownValue detail.fileQuery]
        errors := detail.filesError.toList.map shownText } ++ contentOf (tokens items) := by
  simp [filePanel, tagContent, Attribute.read, SortedMap.lookup_cons_eq, contentOf_fileError,
    contentOf_fileList, contentOf_moreFiles, ← PageContent.append_assoc]

theorem contentOf_detailPanel {detail : Option Detail} {infoHash detailId : String}
    {panel : List Item} (h : detailPanel fmt detail infoHash detailId = some panel) :
    contentOf (tokens (panel ++ items)) = panelContent detail ++ contentOf (tokens items) := by
  unfold detailPanel at h
  unfold panelContent
  cases detail with
  | none =>
    cases h
    simp [tagContent, Attribute.read, SortedMap.lookup_cons_eq]
  | some detail =>
    simp only at h ⊢
    split_ifs at h ⊢
    · cases h
      simp [tagContent, Attribute.read, SortedMap.lookup_cons_eq]
    · cases herror : detail.error with
      | some error =>
        rw [herror] at h
        cases h
        simp [tagContent, Attribute.read, SortedMap.lookup_cons_eq]
      | none =>
        rw [herror] at h
        cases hsummary : detail.summary with
        | none =>
          rw [hsummary] at h
          cases h
        | some summary =>
          rw [hsummary] at h
          cases h
          simp [tagContent, Attribute.read, SortedMap.lookup_cons_eq, contentOf_timeElement,
            contentOf_filePanel]

/-- The parts of a card that do not depend on its panel. -/
theorem contentOf_resultCard {s : DetailPanels} {expandedHash : Option String}
    {torrent : SearchResult} {card : List Item}
    (h : resultCard fmt s expandedHash torrent = some card) :
    contentOf (tokens (card ++ items)) =
      { names := [shownText (cardName torrent)]
        hashes := [shownText torrent.infoHash]
        magnets := [shownValue torrent.magnet] } ++ openPanel s expandedHash torrent ++
        contentOf (tokens items) := by
  obtain ⟨panel, hpanel, rfl⟩ := Option.map_eq_some_iff.mp h
  have hinner : ∀ items, contentOf (tokens (panel ++ items)) =
      openPanel s expandedHash torrent ++ contentOf (tokens items) := by
    intro items
    unfold openPanel
    split_ifs at hpanel ⊢ with hexpanded
    · exact contentOf_detailPanel hpanel
    · simp [hexpanded] at *
    · simp [hexpanded] at *
    · cases hpanel
      rfl
  cases decide (expandedHash = some torrent.infoHash) <;>
    simp [tagContent, Attribute.read, SortedMap.lookup_cons_eq, contentOf_timeElement, hinner,
      ← PageContent.append_assoc]

theorem contentOf_renderEmpty (message : String) :
    contentOf (tokens (renderEmpty message)) = {} := by
  simp only [renderEmpty, contentOf_start, contentOf_value, contentOf_stop]
  simp [tagContent, Attribute.read, SortedMap.lookup_cons_eq]
  rfl

theorem wellFormed_renderEmpty (message : String) : WellFormed (renderEmpty message) := by
  simp +decide [renderEmpty, WellFormed, Attribute.Ok]

end Content

/-! ## Cards in every state -/

/-- Every object has something to show. -/
def Showable (objects : KeyedTable Nat Detail) : Prop :=
  ∀ k d, objects.lookup k = some d → d.loading = false → d.summary ≠ none ∨ d.error ≠ none

section Showable

variable {objects : KeyedTable Nat Detail} {s t : DetailPanels} {e : PanelEvent}
  {es : List PanelEvent}

theorem Showable.insert (h : Showable objects) (k : Nat) {d : Detail}
    (hd : d.loading = false → d.summary ≠ none ∨ d.error ≠ none) :
    Showable (objects.insert k d) := by
  intro k' d' hd'
  rw [AList.lookup_insert_eq] at hd'
  split_ifs at hd'
  · obtain rfl := Option.some.inj hd'
    exact hd
  · exact h k' d' hd'

theorem Showable.adjust (h : Showable objects) (k : Nat) {change : Detail → Detail}
    (hchange : ∀ d : Detail, (d.loading = false → d.summary ≠ none ∨ d.error ≠ none) →
      (change d).loading = false → (change d).summary ≠ none ∨ (change d).error ≠ none) :
    Showable (objects.adjust k change) := by
  unfold AList.adjust
  cases hd : objects.lookup k with
  | none => exact h
  | some d => exact h.insert k (hchange d (h k d hd))

theorem Showable.loadFiles (h : Showable s.objects) (hash : String) (reset : Bool) :
    Showable (s.loadFiles hash reset).objects := by
  obtain heq | ⟨k, d, -, hd, -, heq⟩ := loadFiles_cases s hash reset
  · rw [heq]
    exact h
  · rw [heq]
    exact h.insert k (h k d hd)

theorem Showable.loadDetail (h : Showable s.objects) (hash : String) (force : Bool) :
    Showable (s.loadDetail hash force).objects := by
  have hobjects : ((s.details.lookup hash).elim s s.abortFiles).objects = s.objects := by
    cases s.details.lookup hash with
    | none => rfl
    | some k => exact (sameRequests_abortFiles s k).objects
  unfold DetailPanels.loadDetail
  simp only
  split_ifs
  · exact h
  · simp only [hobjects]
    exact h.insert _ nofun

theorem Showable.finishFiles (h : Showable s.objects) (c k : Nat) {change : Detail → Detail}
    (hkept : ∀ d, (change d).kept = d.kept) : Showable (s.finishFiles c k change).objects := by
  refine h.adjust k fun d hd => ?_
  have hfields := hkept d
  simp only [Detail.kept, Prod.mk.injEq] at hfields
  obtain ⟨-, hloading, herror, hsummary, -⟩ := hfields
  simp only
  split_ifs
  all_goals
    simp only [hloading, herror, hsummary]
    exact hd

theorem Showable.refresh (h : Showable s.objects) : Showable s.refresh.objects := by
  have hobjects : ∀ (es : List (Σ _ : String, Nat)) (t : DetailPanels),
      (es.foldl (fun s e => s.abortFiles e.2) t).objects = t.objects := by
    intro es
    induction es with
    | nil => exact fun _ => rfl
    | cons e es ih => exact fun t => (ih _).trans (sameRequests_abortFiles t e.2).objects
  have hrefresh : s.refresh.objects = s.objects := hobjects s.details.entries s
  rw [hrefresh]
  exact h

theorem Showable.step (h : Showable s.objects) (hstep : DetailPanels.Step s e t) :
    Showable t.objects := by
  obtain ⟨hash, force, rfl⟩ | ⟨hash, rfl⟩ | ⟨hash, query, k, hk, rfl⟩ | rfl |
    ⟨k, task, stage, htask, rfl⟩ | ⟨k, hash, data, rfl⟩ | ⟨k, message, rfl⟩ |
    ⟨call, task, stage, htask, rfl⟩ | ⟨call, task, data, rfl, htask, rfl⟩ |
    ⟨call, task, message, htask, rfl⟩ | ⟨call, task, htask, haborted, rfl⟩ :=
    DetailPanels.next_cases hstep
  · exact h.loadDetail hash force
  · exact h.loadFiles hash false
  · refine Showable.loadFiles ?_ hash true
    exact h.adjust k fun _ hd => hd
  · exact h.refresh
  · exact h
  · refine Showable.loadFiles ?_ hash true
    exact h.adjust k fun _ _ _ => .inl nofun
  · exact h.adjust k fun _ _ _ => .inr nofun
  · exact h
  · refine h.finishFiles call _ fun d => ?_
    unfold DetailPanels.applyFiles
    split_ifs <;> rfl
  · exact h.finishFiles call _ fun _ => rfl
  · exact h.finishFiles call _ fun _ => rfl

theorem run_showable (h : Run DetailPanels.Step {} es s) : Showable s.objects :=
  Run.invariant (I := fun s => Showable s.objects) (fun _ _ _ hs hstep => hs.step hstep) h (by
    intro k d hd
    cases hd)

end Showable

section Pages

variable {fmt : Formats} {s : DetailPanels} {es : List PanelEvent}

/-- A card of a showable panel is written. -/
theorem exists_resultCard (h : Showable s.objects) (expandedHash : Option String)
    (torrent : SearchResult) : ∃ card, resultCard fmt s expandedHash torrent = some card := by
  unfold resultCard
  simp only [Option.map_eq_some_iff]
  split_ifs
  · cases hd : (s.details.lookup torrent.infoHash).bind s.objects.lookup with
    | none => exact ⟨_, _, rfl, rfl⟩
    | some d =>
      obtain ⟨k, -, hk⟩ := Option.bind_eq_some_iff.mp hd
      have hshowable := h k d hk
      unfold detailPanel
      simp only
      split_ifs with hloading
      · exact ⟨_, _, rfl, rfl⟩
      · split
        · exact ⟨_, _, rfl, rfl⟩
        · rename_i herror hsummary
          simp [herror, hsummary, hloading] at hshowable
        · exact ⟨_, _, rfl, rfl⟩
  · exact ⟨_, _, rfl, rfl⟩

/-- A panel adds nothing to the cards themselves. -/
theorem openPanel_cards (s : DetailPanels) (expandedHash : Option String)
    (torrent : SearchResult) : (openPanel s expandedHash torrent).names = [] ∧
      (openPanel s expandedHash torrent).hashes = [] ∧
      (openPanel s expandedHash torrent).magnets = [] := by
  unfold openPanel panelContent
  split_ifs
  · split
    · exact ⟨rfl, rfl, rfl⟩
    · split_ifs
      · exact ⟨rfl, rfl, rfl⟩
      · split <;> exact ⟨rfl, rfl, rfl⟩
  · exact ⟨rfl, rfl, rfl⟩

/-- What a list of results has to show. -/
def resultsContent (s : DetailPanels) (expandedHash : Option String)
    (results : List SearchResult) : PageContent where
  names := results.map fun r => shownText (cardName r)
  hashes := results.map fun r => shownText r.infoHash
  magnets := results.map fun r => shownValue r.magnet
  paths := results.flatMap fun r => (openPanel s expandedHash r).paths
  queries := results.flatMap fun r => (openPanel s expandedHash r).queries
  errors := results.flatMap fun r => (openPanel s expandedHash r).errors

theorem resultsContent_cons (torrent : SearchResult) (results : List SearchResult)
    (expandedHash : Option String) :
    { names := [shownText (cardName torrent)]
      hashes := [shownText torrent.infoHash]
      magnets := [shownValue torrent.magnet] } ++ openPanel s expandedHash torrent ++
      resultsContent s expandedHash results =
        resultsContent s expandedHash (torrent :: results) := by
  obtain ⟨hnames, hhashes, hmagnets⟩ := openPanel_cards s expandedHash torrent
  cases hopen : openPanel s expandedHash torrent with
  | mk names hashes magnets paths queries errors =>
    rw [hopen] at hnames hhashes hmagnets
    simp only at hnames hhashes hmagnets
    simp [resultsContent, hopen, hnames, hhashes, hmagnets]

theorem exists_renderResults (hiso : ∀ n, literal (fmt.toIsoString n) = true)
    (h : Showable s.objects) (expandedHash : Option String) (statsTotal : Option Int)
    {results : List SearchResult} (hhashes : ∀ r ∈ results, literal r.infoHash = true) :
    ∃ page, renderResults fmt s expandedHash statsTotal results = some page ∧ WellFormed page ∧
      contentOf (tokens page) = resultsContent s expandedHash results := by
  have hcards : ∃ cards, results.mapM (resultCard fmt s expandedHash) = some cards ∧
      WellFormed cards.flatten ∧
      contentOf (tokens cards.flatten) = resultsContent s expandedHash results := by
    induction results with
    | nil => exact ⟨[], rfl, trivial, rfl⟩
    | cons torrent results ih =>
      obtain ⟨htorrent, hresults⟩ := List.forall_mem_cons.mp hhashes
      obtain ⟨cards, hcards, hformed, hcontent⟩ := ih hresults
      obtain ⟨card, hcard⟩ := exists_resultCard h expandedHash torrent
      refine ⟨card :: cards, ?_, ?_, ?_⟩
      · rw [List.mapM_cons, hcard, hcards]
        rfl
      · rw [List.flatten_cons, wellFormed_resultCard hiso htorrent hcard]
        exact hformed
      · rw [List.flatten_cons, contentOf_resultCard hcard, hcontent, resultsContent_cons]
  unfold renderResults
  split_ifs with hnone
  · subst hnone
    exact ⟨_, rfl, wellFormed_renderEmpty _, contentOf_renderEmpty _⟩
  · subst hnone
    exact ⟨_, rfl, wellFormed_renderEmpty _, contentOf_renderEmpty _⟩
  · obtain ⟨cards, hcards, hrest⟩ := hcards
    exact ⟨cards.flatten, by rw [hcards]; rfl, hrest⟩

/-- The service writes the hashes of its results in hexadecimal. -/
theorem exists_hash_of_apiSearch {u : Unicode} {ft : FullText} {encode : String → String}
    {connection : Connection} {params : SearchQuery} {response : SearchResponse}
    (h : (apiSearch u ft encode connection params).response = .ok response) :
    ∀ r ∈ response.results, ∃ hash, r.infoHash = hexEncode hash := by
  obtain ⟨_, -, h⟩ := checkRequest_ok h
  obtain ⟨_, -, h⟩ := checkRequest_ok h
  obtain ⟨_, -, h⟩ := checkRequest_ok h
  obtain ⟨page, -, h⟩ := readStore_ok h
  obtain rfl := Except.ok.inj h
  intro r hr
  obtain ⟨torrent, -, rfl⟩ := List.mem_map.mp hr
  exact ⟨torrent.infoHash, rfl⟩

/-- In every state of the panels the cards for the results of the service are written. The browser
finds in the page the names, hashes and links of the results, and of the open panel the paths, the
filter and the error, each as it is; and its markup is that of the page without these values. -/
theorem cards_read_as_meant (hiso : ∀ n, literal (fmt.toIsoString n) = true)
    {u : Unicode} {ft : FullText} {encode : String → String} {connection : Connection}
    {params : SearchQuery} {response : SearchResponse}
    (hrun : Run DetailPanels.Step {} es s)
    (hsearch : (apiSearch u ft encode connection params).response = .ok response)
    (expandedHash : Option String) (statsTotal : Option Int) :
    ∃ page ts blank, renderResults fmt s expandedHash statsTotal response.results = some page ∧
      readPage (pageText page) = some ts ∧
      contentOf ts = resultsContent s expandedHash response.results ∧
      readPage (pageText (page.map Item.blank)) = some blank ∧
      ts.filterMap Token.markup = blank.filterMap Token.markup := by
  have hhashes : ∀ r ∈ response.results, literal r.infoHash = true := by
    intro r hr
    obtain ⟨hash, hhash⟩ := exists_hash_of_apiSearch hsearch r hr
    rw [hhash]
    exact literal_hexEncode hash
  obtain ⟨page, hpage, hformed, hcontent⟩ :=
    exists_renderResults hiso (run_showable hrun) expandedHash statsTotal hhashes
  exact ⟨page, tokens page, tokens (page.map Item.blank), hpage,
    readPage_eq hformed (toList_pageText page), hcontent,
    readPage_eq hformed.blank (toList_pageText _), markup_blank page⟩

end Pages

/-- Formats that write every time as the first one. -/
def Formats.epoch : Formats where
  formatSize size := size.repr ++ " B"
  formatNumber := Int.repr
  toIsoString _ := "1970-01-01T00:00:00.000Z"
  toLocaleString _ := "1/1/1970, 12:00:00 AM"
  formatRelativeTime _ := "now"

/-- A torrent whose name looks like markup. -/
def liveSets : Catalogue :=
  { Catalogue.migrated with
    torrents := AList.insert 7 ⟨some "R&B <live>", none, 3, 1, "dht", 0, 1, 0, true⟩ ∅
    files := [⟨7, "<b>\"x'\r\n", 3⟩] }

/-- The card is expanded, and its files are filtered. -/
def openedCard (text : String) : List PanelEvent :=
  [.loadDetail text false, .detailResponse 0 true "OK",
    .detailBody 0 ⟨text, some "R&B <live>", 3, 1, 0, 1, true, ""⟩, .filter text "\"x",
    .fileResponse 2 true "OK", .fileBody 2 ⟨[⟨"<b>\"x'\r\n", 3⟩], 100, 0, false⟩]

theorem liveSets_results : ∃ response,
    (apiSearch .ascii .byName percentEncode (.ok liveSets) {}).response = .ok response ∧
      response.results = [torrentToSearchResult percentEncode
        ⟨⟨some "R&B <live>", none, 3, 1, "dht", 0, 1, 0, true⟩, 7⟩] := by
  have haccepted : SearchAccepted .ascii {} :=
    ⟨⟨by simp, by simp, by simp⟩, by simp, .inl (by decide)⟩
  obtain ⟨terms, order, hterms, -, hresponse⟩ :=
    apiSearch_accepted .byName percentEncode (spaceFree_isAlphanum _) haccepted
  obtain rfl : "" = terms := Except.ok.inj hterms
  refine ⟨_, congrArg Handled.response (hresponse (.ok liveSets) 0), ?_⟩
  have hselected : selectedTorrents .byName "" (SearchQuery.filters {}) liveSets =
      [⟨⟨some "R&B <live>", none, 3, 1, "dht", 0, 1, 0, true⟩, 7⟩] := by decide
  simp only [searchResponse, orderedTorrents]
  rw [hselected, List.mergeSort_singleton]
  rfl

theorem cards_read_as_meant_opened :
    ∃ response s page ts, (apiSearch .ascii .byName percentEncode (.ok liveSets) {}).response =
        .ok response ∧ Run DetailPanels.Step {} (openedCard (hexEncode 7)) s ∧
      renderResults .epoch s (some (hexEncode 7)) none response.results = some page ∧
      readPage (pageText page) = some ts ∧ (contentOf ts).names = ["R&B <live>"] ∧
      (contentOf ts).paths = ["<b>\"x'\n"] ∧ (contentOf ts).queries = ["\"x"] := by
  obtain ⟨response, hsearch, hresults⟩ := liveSets_results
  obtain ⟨s, hplay⟩ : ∃ s, play DetailPanels.next (openedCard (hexEncode 7)) {} = some s :=
    Option.isSome_iff_exists.mp (by decide +kernel)
  have hpanel : ((play DetailPanels.next (openedCard (hexEncode 7)) {}).bind fun s =>
      (s.details.lookup (hexEncode 7)).bind s.objects.lookup).map
        (fun d => (d.loading, d.error, d.files, d.fileQuery)) =
      some (false, none, [⟨"<b>\"x'\r\n", 3⟩], "\"x") := by decide +kernel
  rw [hplay, Option.bind_some] at hpanel
  obtain ⟨d, hd, hfields⟩ := Option.map_eq_some_iff.mp hpanel
  simp only [Prod.mk.injEq] at hfields
  obtain ⟨hloading, herror, hfiles, hquery⟩ := hfields
  have hepoch : literal "1970-01-01T00:00:00.000Z" = true := by decide
  have hiso : ∀ n, literal (Formats.epoch.toIsoString n) = true := fun _ => hepoch
  obtain ⟨page, ts, -, hpage, hread, hcontent, -⟩ := cards_read_as_meant hiso (play_run hplay)
    hsearch (some (hexEncode 7)) none
  refine ⟨response, s, page, ts, hsearch, play_run hplay, hpage, hread, ?_⟩
  have hcontent' : panelContent (some d) =
      { paths := [shownText "<b>\"x'\r\n"], queries := [shownValue "\"x"]
        errors := d.filesError.toList.map shownText } := by
    simp [panelContent, hloading, herror, hfiles, hquery]
  rw [hcontent, hresults]
  simp only [resultsContent, openPanel, torrentToSearchResult, List.map_cons, List.map_nil,
    List.flatMap_cons, List.flatMap_nil, List.append_nil]
  rw [if_pos trivial, hd, hcontent']
  refine ⟨congrArg (fun name => [name]) ?_, congrArg (fun path => [path]) ?_,
    congrArg (fun query => [query]) ?_⟩
  all_goals decide

end Btfind
