import Mathlib.Algebra.Order.BigOperators.Group.List
import Btfind.Metadata.FilePaths
import Btfind.Metadata.Round

/-!
# Storable metadata

`parse_torrent_info` and the head of `commit_metadata` validate the same metadata.
They agree except on a single file that takes its path from an empty name.
-/

namespace Btfind

/-- The metadata passes the validation at the head of `commit_metadata`. -/
def TorrentMetadata.Valid (m : TorrentMetadata) : Prop :=
  m.rejected = false ∧ (m.files.length : Int) ≤ i64Max

/-- The info dictionary has a file list, or a name that is not empty. -/
def NamesFiles (dict : BencodeDict) : Prop :=
  (∃ items, dict.get "files" = some (.list items)) ∨
    getBencodePreferredStr dict "name.utf-8" "name" ≠ some ""

def FilesOk (files : List (String × Int)) : Prop := ∀ f ∈ files, f.1 ≠ ""

theorem SafePath.ne_empty {path : String} (h : SafePath path) : path ≠ "" := by
  rintro rfl
  exact absurd h (by decide)

/-- The content has no empty path exactly when the dictionary names its files. -/
theorem InfoRead.filesOk {dict : BencodeDict} {info : TorrentInfo} (h : InfoRead dict info) :
    (FilesOk info.files ↔ NamesFiles dict) ∧ info.files.length ≤ maxFileCount := by
  rcases parseContent_cases h.content with
    ⟨items, hfiles, -, hcount, hparse⟩ | ⟨hlist, length, -, -, hone⟩
  · obtain ⟨read, hread, hcontent⟩ := parseFiles_entries hparse
    have hpaths : info.files = read := congrArg Prod.snd hcontent
    rw [hpaths, ← hread.length_eq]
    refine ⟨iff_of_true (fun f hf => ?_) (.inl ⟨items, hfiles⟩), hcount⟩
    exact (entries_safe hread f hf).ne_empty
  · have hpaths : info.files = [(info.name, length)] := congrArg Prod.snd hone
    have hfiles : ¬ ∃ items, dict.get "files" = some (.list items) := by
      rintro ⟨items, hitems⟩
      rw [hasFileList, hitems] at hlist
      cases hlist
    rw [hpaths]
    refine ⟨?_, by simp [maxFileCount]⟩
    rw [h.name, torrentName]
    cases hname : getBencodePreferredStr dict "name.utf-8" "name" <;>
      simp [FilesOk, NamesFiles, hname, hfiles]

theorem rejected_iff {m : TorrentMetadata} (hsizes : ∀ f ∈ m.files, 0 ≤ f.2)
    (htotal : 0 ≤ m.totalSize) (hpiece : 0 ≤ m.pieceLength) :
    m.rejected = false ↔ FilesOk m.files := by
  have hsize : (m.totalSize < 0) = False := by simpa using htotal
  have hlength : (m.pieceLength < 0) = False := by simpa using hpiece
  rw [TorrentMetadata.rejected, FilesOk]
  simp only [hsize, hlength, decide_false, Bool.or_false, List.any_eq_false, Bool.or_eq_true,
    String.isEmpty_iff, decide_eq_true_eq, not_or]
  constructor
  · intro hall f hf
    exact (hall f hf).1
  · intro hall f hf
    exact ⟨hall f hf, by have := hsizes f hf; omega⟩

theorem TotalOk.nonneg {content : Int × List (String × Int)} (h : TotalOk content) :
    0 ≤ content.1 := by
  rw [h.1]
  refine List.sum_nonneg ?_
  intro size hsize
  obtain ⟨f, hf, rfl⟩ := List.mem_map.mp hsize
  exact h.2 f hf

/-- Metadata that the parser accepts can be stored exactly when its info dictionary
names the files. -/
theorem parseTorrentInfo_storable {codecs : Codecs} {data : Bytes} {dict : BencodeDict}
    {info : TorrentInfo} (hd : codecs.decodeBencode data = .ok (.dict dict))
    (h : codecs.parseTorrentInfo data = .ok info) :
    info.metadata.Valid ↔ NamesFiles dict := by
  obtain ⟨hpiece, -, htotal⟩ := parseTorrentInfo_ok h
  obtain ⟨other, hother, hread⟩ := parseTorrentInfo_read h
  cases hd.symm.trans hother
  obtain ⟨hfiles, hcount⟩ := hread.filesOk
  have hrejected := rejected_iff (m := info.metadata) htotal.2 htotal.nonneg (le_of_lt hpiece)
  have hfits : (info.metadata.files.length : Int) ≤ i64Max := by
    change info.files.length ≤ maxFileCount at hcount
    show (info.files.length : Int) ≤ i64Max
    rw [maxFileCount] at hcount
    rw [i64Max]
    omega
  rw [TorrentMetadata.Valid, hrejected, and_iff_left hfits]
  exact hfiles

/-! ## Torrents without a name -/

/-- Two files, and an empty name. -/
def unnamedFiles : Bytes :=
  asBytes "d5:filesld6:lengthi5e4:pathl1:aeed6:lengthi5e4:pathl1:beee4:name0:12:piece lengthi16384ee"

theorem unnamedFiles_accepted : plainCodecs.parseTorrentInfo unnamedFiles =
    .ok ⟨"", 16384, 10, 2, [("a", 5), ("b", 5)]⟩ := by
  rfl

theorem parseTorrentInfo_storable_files :
    ∃ info, plainCodecs.parseTorrentInfo unnamedFiles = .ok info ∧ info.metadata.Valid :=
  ⟨_, unnamedFiles_accepted,
    (parseTorrentInfo_storable rfl unnamedFiles_accepted).mpr (.inl ⟨_, rfl⟩)⟩

/-- A single file, and an empty name. -/
def unnamedFile : Bytes := asBytes "d6:lengthi5e4:name0:12:piece lengthi16384ee"

theorem unnamedFile_accepted : plainCodecs.parseTorrentInfo unnamedFile =
    .ok ⟨"", 16384, 5, 1, [("", 5)]⟩ := by
  rfl

/-- A single file with an empty name is accepted, but every commit of it fails, and
the round goes on to download it from the next peer. -/
theorem empty_name_not_storable :
    ∃ info, plainCodecs.parseTorrentInfo unnamedFile = .ok info ∧ ¬ info.metadata.Valid ∧
      ∀ u turns hash s, commitMetadata u turns hash info.metadata s =
        (.error (.invalid "invalid metadata file or size"), s) := by
  refine ⟨_, unnamedFile_accepted, ?_, fun _ _ _ _ => rfl⟩
  rintro ⟨hrejected, -⟩
  cases hrejected

end Btfind
