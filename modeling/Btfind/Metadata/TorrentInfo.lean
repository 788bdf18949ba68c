import Mathlib.Data.List.Forall2
import Mathlib.Data.List.Infix
import Btfind.Bencode.Value

/-!
# Torrent metadata

`parse_torrent_info` on a decoded bencode value, with its limits and its messages. The
bencode decoder and SHA-1 are parameters.
-/

namespace Btfind

def getBencodeStr (dict : BencodeDict) (key : String) : Option String :=
  match dict.get key with
  | some (.bytes b) => some (fromUtf8Lossy b)
  | _ => none

def getBencodePreferredStr (dict : BencodeDict) (preferred fallback : String) :
    Option String :=
  (getBencodeStr dict preferred).or (getBencodeStr dict fallback)

def getBencodeInt (dict : BencodeDict) (key : String) : Option Int :=
  match dict.get key with
  | some (.int i) => some i
  | _ => none

structure TorrentInfo where
  name : String
  pieceLength : Int
  totalSize : Int
  fileCount : Int
  files : List (String × Int)

def maxFileCount : Nat := 100000

def maxPathComponents : Nat := 64

def maxPathComponentBytes : Nat := 1024

def maxNameBytes : Nat := 4096

def maxPieceLength : Int := 64 * 1024 * 1024

/-- The loop over the components of a path. -/
def parsePathParts : List BencodeValue → List String → Except String (List String)
  | [], parts => .ok parts
  | .bytes b :: rest, parts =>
    if b.isEmpty || maxPathComponentBytes < b.length then
      .error "invalid file path component length"
    else
      let component := fromUtf8Lossy b
      if component = "." || component = ".." || '/' ∈ component.toList then
        .error "invalid file path component"
      else parsePathParts rest (parts ++ [component])
  | _ :: _, _ => .error "invalid file path component"

def parseFilePath (dict : BencodeDict) : Except String String :=
  match (dict.get "path.utf-8").or (dict.get "path") with
  | some (.list parts) =>
    if parts.isEmpty || maxPathComponents < parts.length then
      .error "invalid file path component count"
    else (parsePathParts parts []).map (String.intercalate "/")
  | _ => .error "missing file path"

/-- The loop over the file list. -/
def parseFiles : List BencodeValue → Int → List (String × Int) →
    Except String (Int × List (String × Int))
  | [], total, files => .ok (total, files)
  | .dict d :: rest, total, files =>
    match getBencodeInt d "length" with
    | none => .error "missing file length"
    | some size =>
      if size < 0 then .error "negative file length"
      else if i64Max < total + size then .error "torrent total size overflow"
      else
        -- The sum is checked before the path is read.
        match parseFilePath d with
        | .error e => .error e
        | .ok path => parseFiles rest (total + size) (files ++ [(path, size)])
  | _ :: _, _, _ => .error "invalid file entry"

/-- The total size and the files of an info dictionary. -/
def parseContent (dict : BencodeDict) (name : String) :
    Except String (Int × List (String × Int)) :=
  match dict.get "files" with
  | some (.list fileList) =>
    if fileList.isEmpty || maxFileCount < fileList.length then .error "invalid file count"
    else parseFiles fileList 0 []
  -- A `files` entry that is no list is as good as none.
  | _ =>
    match getBencodeInt dict "length" with
    | some length =>
      if length < 0 then .error "negative torrent length"
      else .ok (length, [(name, length)])
    | none => .error "no files or length in info dict"

/-- `parse_torrent_info` after the value is decoded. -/
def parseInfoDict (dict : BencodeDict) : Except String TorrentInfo :=
  let name := (getBencodePreferredStr dict "name.utf-8" "name").getD "unknown"
  if maxNameBytes < name.utf8ByteSize then .error "torrent name exceeds limit"
  else
    match getBencodeInt dict "piece length" with
    | none => .error "missing piece length"
    | some pieceLength =>
      if pieceLength < 1 ∨ maxPieceLength < pieceLength then .error "invalid piece length"
      else
        -- A hybrid torrent has version 2 and the pieces of version 1.
        let version := getBencodeInt dict "meta version"
        if version.any (· ≠ 2) then .error "unsupported torrent meta version"
        else if version = some 2 ∧ (dict.get "pieces").isNone then
          .error "pure v2 torrents are unsupported"
        else
          (parseContent dict name).map fun content =>
            ⟨name, pieceLength, content.1, content.2.length, content.2⟩

/-- The code outside the repository that the metadata path uses. -/
structure Codecs where
  sha1 : Bytes → InfoHash
  decodeBencode : Bytes → Except String BencodeValue

def Codecs.verifyMetadataHash (codecs : Codecs) (infoHash : InfoHash) (data : Bytes) : Bool :=
  codecs.sha1 data = infoHash

def Codecs.parseTorrentInfo (codecs : Codecs) (data : Bytes) : Except String TorrentInfo :=
  match codecs.decodeBencode data with
  | .error e => .error s!"bencode error: {e}"
  | .ok (.dict d) => parseInfoDict d
  | .ok _ => .error "not a dict"

/-- `error.contains("unsupported")` -/
def isUnsupportedParse (error : String) : Bool :=
  decide ("unsupported".toList <:+: error.toList)

/-! ## What is accepted -/

/-- The sizes are non-negative and the total is their sum. -/
def TotalOk (content : Int × List (String × Int)) : Prop :=
  content.1 = (content.2.map Prod.snd).sum ∧ ∀ f ∈ content.2, 0 ≤ f.2

/-- An entry of a file list that is accepted as long as the total fits, and what is read from
it. -/
def FileEntry (item : BencodeValue) (file : String × Int) : Prop :=
  ∃ d, item = .dict d ∧ getBencodeInt d "length" = some file.2 ∧ 0 ≤ file.2 ∧
    parseFilePath d = .ok file.1

theorem parseFiles_step {item : BencodeValue} {file : String × Int} (h : FileEntry item file)
    (rest : List BencodeValue) (total : Int) (files : List (String × Int)) :
    parseFiles (item :: rest) total files =
      if i64Max < total + file.2 then .error "torrent total size overflow"
      else parseFiles rest (total + file.2) (files ++ [file]) := by
  obtain ⟨d, rfl, hsize, hsign, hpath⟩ := h
  rw [parseFiles, hsize]
  simp only [if_neg (Int.not_lt.mpr hsign), hpath]

theorem parseFiles_cons {item : BencodeValue} {rest : List BencodeValue} {total : Int}
    {files : List (String × Int)} {content : Int × List (String × Int)}
    (h : parseFiles (item :: rest) total files = .ok content) :
    ∃ file, FileEntry item file ∧ total + file.2 ≤ i64Max ∧
      parseFiles rest (total + file.2) (files ++ [file]) = .ok content := by
  cases item with
  | dict d =>
    rw [parseFiles] at h
    split at h
    · cases h
    · next size hsize =>
      split at h
      · cases h
      · next hsign =>
        split at h
        · cases h
        · next htotal =>
          split at h
          · cases h
          · next path hpath =>
            exact ⟨(path, size), ⟨d, rfl, hsize, Int.not_lt.mp hsign, hpath⟩,
              Int.not_lt.mp htotal, h⟩
  | _ => cases h

theorem parseFiles_entries {items : List BencodeValue} {total : Int}
    {files : List (String × Int)} {content : Int × List (String × Int)}
    (h : parseFiles items total files = .ok content) :
    ∃ read, List.Forall₂ FileEntry items read ∧
      content = (total + (read.map Prod.snd).sum, files ++ read) := by
  induction items generalizing total files with
  | nil =>
    cases h
    exact ⟨[], .nil, by simp⟩
  | cons item rest ih =>
    obtain ⟨file, hentry, -, hrest⟩ := parseFiles_cons h
    obtain ⟨read, hread, hcontent⟩ := ih hrest
    refine ⟨file :: read, .cons hentry hread, ?_⟩
    rw [hcontent, List.map_cons, List.sum_cons, Int.add_assoc, List.append_assoc]
    rfl

theorem entries_nonneg {items : List BencodeValue} {read : List (String × Int)}
    (h : List.Forall₂ FileEntry items read) : ∀ f ∈ read, 0 ≤ f.2 := by
  induction h with
  | nil => simp
  | cons hentry _ ih =>
    obtain ⟨_, -, -, hsign, -⟩ := hentry
    intro f hf
    rcases List.mem_cons.mp hf with rfl | hf
    · exact hsign
    · exact ih f hf

def hasFileList (dict : BencodeDict) : Bool := dict.get "files" matches some (.list _)

/-- The name that an info dictionary gives to the torrent. -/
def torrentName (dict : BencodeDict) : String :=
  (getBencodePreferredStr dict "name.utf-8" "name").getD "unknown"

theorem parseContent_list {dict : BencodeDict} {items : List BencodeValue} (name : String)
    (hfiles : dict.get "files" = some (.list items)) :
    parseContent dict name =
      if items.isEmpty || maxFileCount < items.length then .error "invalid file count"
      else parseFiles items 0 [] := by
  rw [parseContent, hfiles]

/-- The two forms of the content: a list of files, or one file under the name. -/
theorem parseContent_cases {dict : BencodeDict} {name : String}
    {content : Int × List (String × Int)} (h : parseContent dict name = .ok content) :
    (∃ items, dict.get "files" = some (.list items) ∧ items ≠ [] ∧ items.length ≤ maxFileCount ∧
      parseFiles items 0 [] = .ok content) ∨
    (hasFileList dict = false ∧ ∃ length, getBencodeInt dict "length" = some length ∧
      0 ≤ length ∧ content = (length, [(name, length)])) := by
  by_cases hlist : ∃ items, dict.get "files" = some (.list items)
  · obtain ⟨items, hfiles⟩ := hlist
    left
    rw [parseContent_list name hfiles] at h
    split at h
    · cases h
    · next hcount =>
      simp only [Bool.or_eq_true, List.isEmpty_iff, decide_eq_true_eq, not_or] at hcount
      exact ⟨items, hfiles, hcount.1, Nat.not_lt.mp hcount.2, h⟩
  · right
    rw [parseContent] at h
    split at h
    · next items hfiles => exact absurd ⟨items, hfiles⟩ hlist
    · next hother =>
      refine ⟨?_, ?_⟩
      · rw [hasFileList]
        split
        · next items hfiles => exact absurd hfiles (hother items)
        · rfl
      · split at h
        · next length hlength =>
          split at h
          · cases h
          · next hsign =>
            cases h
            exact ⟨length, hlength, Int.not_lt.mp hsign, rfl⟩
        · cases h

/-- The checks of a dictionary that are not about its files. -/
structure HeaderOk (dict : BencodeDict) (pieceLength : Int) : Prop where
  name : (torrentName dict).utf8ByteSize ≤ maxNameBytes
  read : getBencodeInt dict "piece length" = some pieceLength
  pieceLength : 1 ≤ pieceLength ∧ pieceLength ≤ maxPieceLength
  version : ¬(getBencodeInt dict "meta version").any (· ≠ 2) = true
  pieces : ¬(getBencodeInt dict "meta version" = some 2 ∧ (dict.get "pieces").isNone = true)

/-- What an accepted dictionary holds and what the record takes from it. -/
structure InfoRead (dict : BencodeDict) (info : TorrentInfo) : Prop where
  header : HeaderOk dict info.pieceLength
  name : info.name = torrentName dict
  fileCount : info.fileCount = info.files.length
  content : parseContent dict info.name = .ok (info.totalSize, info.files)

theorem parseInfoDict_of_header {dict : BencodeDict} {pieceLength : Int}
    (h : HeaderOk dict pieceLength) :
    parseInfoDict dict = (parseContent dict (torrentName dict)).map fun content =>
      ⟨torrentName dict, pieceLength, content.1, content.2.length, content.2⟩ := by
  obtain ⟨hname, hread, hpiece, hversion, hpieces⟩ := h
  rw [torrentName] at hname ⊢
  rw [parseInfoDict, hread]
  simp only [if_neg (Nat.not_lt.mpr hname), if_neg hversion, if_neg hpieces]
  rw [if_neg (by omega)]

theorem headerOk_of_parse {dict : BencodeDict} {info : TorrentInfo}
    (h : parseInfoDict dict = .ok info) : ∃ pieceLength, HeaderOk dict pieceLength := by
  rw [parseInfoDict] at h
  simp only at h
  split at h
  · cases h
  · next hname =>
    split at h
    · cases h
    · next pieceLength hread =>
      split at h
      · cases h
      · next hpiece =>
        split at h
        · cases h
        · next hversion =>
          split at h
          · cases h
          · next hpieces =>
            exact ⟨pieceLength, Nat.not_lt.mp hname, hread, by omega, hversion, hpieces⟩

theorem parseInfoDict_read {dict : BencodeDict} {info : TorrentInfo}
    (h : parseInfoDict dict = .ok info) : InfoRead dict info := by
  obtain ⟨pieceLength, hheader⟩ := headerOk_of_parse h
  rw [parseInfoDict_of_header hheader] at h
  cases hcontent : parseContent dict (torrentName dict) with
  | error e =>
    rw [hcontent] at h
    cases h
  | ok content =>
    rw [hcontent] at h
    cases h
    exact ⟨hheader, rfl, rfl, hcontent⟩

theorem parseTorrentInfo_read {codecs : Codecs} {data : Bytes} {info : TorrentInfo}
    (h : codecs.parseTorrentInfo data = .ok info) :
    ∃ dict, codecs.decodeBencode data = .ok (.dict dict) ∧ InfoRead dict info := by
  rw [Codecs.parseTorrentInfo] at h
  split at h
  · cases h
  · next dict hdecode => exact ⟨dict, hdecode, parseInfoDict_read h⟩
  · cases h

theorem parseContent_total {dict : BencodeDict} {name : String}
    {content : Int × List (String × Int)} (h : parseContent dict name = .ok content) :
    TotalOk content := by
  rcases parseContent_cases h with ⟨items, -, -, -, hparse⟩ | ⟨-, length, -, hsign, rfl⟩
  · obtain ⟨read, hread, rfl⟩ := parseFiles_entries hparse
    exact ⟨Int.zero_add _, entries_nonneg hread⟩
  · refine ⟨by simp, fun f hf => ?_⟩
    rw [List.mem_singleton.mp hf]
    exact hsign

theorem InfoRead.totalOk {dict : BencodeDict} {info : TorrentInfo} (h : InfoRead dict info) :
    TotalOk (info.totalSize, info.files) := parseContent_total h.content

/-- Accepted metadata has a positive piece length, non-negative sizes and a total
that is their sum. -/
theorem parseTorrentInfo_ok {codecs : Codecs} {data : Bytes} {info : TorrentInfo}
    (h : codecs.parseTorrentInfo data = .ok info) :
    0 < info.pieceLength ∧ info.fileCount = info.files.length ∧
      TotalOk (info.totalSize, info.files) := by
  obtain ⟨dict, -, hread⟩ := parseTorrentInfo_read h
  exact ⟨hread.header.pieceLength.1, hread.fileCount, hread.totalOk⟩

end Btfind
