import Btfind.Metadata.TorrentInfo

/-!
# The sizes of a torrent

The total is the exact sum of sizes that are not negative. The sum is checked after each file,
and it only grows, so a valid list is refused exactly when the whole sum is too large.
-/

namespace Btfind

/-- The sizes of accepted metadata. -/
structure SizesOk (info : TorrentInfo) : Prop where
  files : 1 ≤ info.files.length ∧ info.files.length ≤ maxFileCount
  fileCount : info.fileCount = info.files.length
  sizes : ∀ f ∈ info.files, 0 ≤ f.2
  totalSize : info.totalSize = (info.files.map Prod.snd).sum
  pieceLength : 1 ≤ info.pieceLength ∧ info.pieceLength ≤ maxPieceLength

/-- A dictionary whose file list is valid, whatever the sum of its sizes. `read` are the paths
and the sizes of its entries. -/
structure OtherwiseValid (dict : BencodeDict) (items : List BencodeValue)
    (read : List (String × Int)) : Prop where
  header : ∃ pieceLength, HeaderOk dict pieceLength
  files : dict.get "files" = some (.list items)
  count : items ≠ [] ∧ items.length ≤ maxFileCount
  entries : List.Forall₂ FileEntry items read

theorem InfoRead.sizesOk {dict : BencodeDict} {info : TorrentInfo} (h : InfoRead dict info) :
    SizesOk info := by
  obtain ⟨hsum, hsizes⟩ := h.totalOk
  refine ⟨?_, h.fileCount, hsizes, hsum, h.header.pieceLength⟩
  rcases parseContent_cases h.content with ⟨items, -, hne, hcount, hparse⟩ | ⟨-, length, -, -, hone⟩
  · obtain ⟨read, hread, hcontent⟩ := parseFiles_entries hparse
    have hfiles : info.files = read := congrArg Prod.snd hcontent
    have hpos := List.length_pos_iff.mpr hne
    rw [hfiles, ← hread.length_eq]
    exact ⟨hpos, hcount⟩
  · have hfiles : info.files = [(info.name, length)] := congrArg Prod.snd hone
    rw [hfiles, List.length_singleton]
    decide

/-! ## The checked sum -/

theorem entries_sum_nonneg {items : List BencodeValue} {read : List (String × Int)}
    (h : List.Forall₂ FileEntry items read) : 0 ≤ (read.map Prod.snd).sum := by
  induction h with
  | nil => exact Int.le_refl 0
  | cons hentry _ ih =>
    obtain ⟨_, -, -, hsign, -⟩ := hentry
    rw [List.map_cons, List.sum_cons]
    omega

theorem parseFiles_eq {items : List BencodeValue} {read : List (String × Int)}
    (h : List.Forall₂ FileEntry items read) {total : Int} (htotal : total ≤ i64Max)
    (files : List (String × Int)) :
    parseFiles items total files =
      if i64Max < total + (read.map Prod.snd).sum then .error "torrent total size overflow"
      else .ok (total + (read.map Prod.snd).sum, files ++ read) := by
  induction h generalizing total files with
  | nil =>
    rw [List.map_nil, List.sum_nil, Int.add_zero, if_neg (Int.not_lt.mpr htotal), List.append_nil]
    rfl
  | @cons item file rest read hentry hrest ih =>
    have hsum := entries_sum_nonneg hrest
    rw [parseFiles_step hentry, List.map_cons, List.sum_cons, ← Int.add_assoc]
    by_cases hover : i64Max < total + file.2
    · -- The sum does not come down again.
      rw [if_pos hover, if_pos (by omega)]
    · rw [if_neg hover, ih (Int.not_lt.mp hover), List.append_assoc]
      rfl

theorem parseInfoDict_rejects_iff {dict : BencodeDict} {items : List BencodeValue}
    {read : List (String × Int)} (h : OtherwiseValid dict items read) :
    (∃ e, parseInfoDict dict = .error e) ↔ i64Max < (read.map Prod.snd).sum := by
  obtain ⟨⟨pieceLength, hheader⟩, hfiles, ⟨hne, hcount⟩, hentries⟩ := h
  have hgate : ¬(items.isEmpty || maxFileCount < items.length) = true := by
    simp only [Bool.or_eq_true, List.isEmpty_iff, decide_eq_true_eq, not_or]
    exact ⟨hne, Nat.not_lt.mpr hcount⟩
  rw [parseInfoDict_of_header hheader, parseContent_list _ hfiles, if_neg hgate,
    parseFiles_eq hentries (by decide), Int.zero_add]
  by_cases hover : i64Max < (read.map Prod.snd).sum
  · rw [if_pos hover]
    exact iff_of_true ⟨_, rfl⟩ hover
  · rw [if_neg hover]
    refine iff_of_false ?_ hover
    rintro ⟨e, herror⟩
    cases herror

/-- A file list that is accepted is a valid one. -/
theorem InfoRead.otherwiseValid {dict : BencodeDict} {info : TorrentInfo} (h : InfoRead dict info)
    (hlist : hasFileList dict = true) : ∃ items, OtherwiseValid dict items info.files := by
  rcases parseContent_cases h.content with ⟨items, hfiles, hne, hcount, hparse⟩ | ⟨hnone, -⟩
  · obtain ⟨read, hread, hcontent⟩ := parseFiles_entries hparse
    have hpaths : info.files = read := congrArg Prod.snd hcontent
    rw [hpaths]
    exact ⟨items, ⟨_, h.header⟩, hfiles, ⟨hne, hcount⟩, hread⟩
  · rw [hnone] at hlist
    cases hlist

/-- Accepted sizes are exact, and a valid file list is refused exactly when its sum does not fit
an `i64`. -/
theorem torrent_sizes :
    (∀ (codecs : Codecs) data info, codecs.parseTorrentInfo data = .ok info → SizesOk info) ∧
    (∀ dict items read, OtherwiseValid dict items read →
      ((∃ e, parseInfoDict dict = .error e) ↔ i64Max < (read.map Prod.snd).sum)) ∧
    ∀ dict info, parseInfoDict dict = .ok info → hasFileList dict = true →
      ∃ items, OtherwiseValid dict items info.files := by
  refine ⟨?_, ?_, ?_⟩
  · intro codecs data info haccepted
    obtain ⟨dict, -, hread⟩ := parseTorrentInfo_read haccepted
    exact hread.sizesOk
  · exact fun dict items read hvalid => parseInfoDict_rejects_iff hvalid
  · exact fun dict info haccepted hlist => (parseInfoDict_read haccepted).otherwiseValid hlist

/-- Two files, whose sizes do not fit together. -/
def oversizedEntries : List BencodeValue :=
  [.dict [(asBytes "length", .int i64Max), (asBytes "path", .list [.bytes [97]])],
    .dict [(asBytes "length", .int 1), (asBytes "path", .list [.bytes [98]])]]

def oversizedInfo : BencodeDict :=
  [(asBytes "files", .list oversizedEntries), (asBytes "name", .bytes [120]),
    (asBytes "piece length", .int 16384)]

theorem oversizedInfo_valid :
    OtherwiseValid oversizedInfo oversizedEntries [("a", i64Max), ("b", 1)] where
  header := ⟨16384, by decide, rfl, by decide, by decide, by decide⟩
  files := rfl
  count := ⟨List.cons_ne_nil _ _, by decide⟩
  entries := .cons ⟨_, rfl, rfl, by decide, rfl⟩ (.cons ⟨_, rfl, rfl, by decide, rfl⟩ .nil)

theorem torrent_sizes_example :
    (∃ e, parseInfoDict oversizedInfo = .error e) ↔
      i64Max < ([("a", i64Max), ("b", 1)].map Prod.snd).sum :=
  torrent_sizes.2.1 _ _ _ oversizedInfo_valid

end Btfind
