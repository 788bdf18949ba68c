import Btfind.Metadata.TorrentInfo

/-!
# The paths of the files

Each path of a file list is made of checked components. The path of a single file is the name of
the torrent, which is not checked.
-/

namespace Btfind

/-- `split('/')` -/
def pathComponents (path : String) : List String := (path.toList.splitOn '/').map String.ofList

def SafeComponent (c : String) : Prop := c ≠ "" ∧ c ≠ "." ∧ c ≠ ".."

instance (c : String) : Decidable (SafeComponent c) := inferInstanceAs (Decidable (_ ∧ _))

/-- A path that stays below the directory it is joined to. -/
def SafePath (path : String) : Prop :=
  1 ≤ (pathComponents path).length ∧ (pathComponents path).length ≤ maxPathComponents ∧
    ∀ c ∈ pathComponents path, SafeComponent c

instance (path : String) : Decidable (SafePath path) := inferInstanceAs (Decidable (_ ∧ _))

example : SafePath "dir/a.txt" ∧ ¬ SafePath "../a.txt" ∧ ¬ SafePath "" := by decide

/-! ## Joined components -/

theorem pathComponents_intercalate {parts : List String} (hne : parts ≠ [])
    (hslash : ∀ c ∈ parts, '/' ∉ c.toList) :
    pathComponents (String.intercalate "/" parts) = parts := by
  have hsep : "/".toList = ['/'] := rfl
  have hsplit : (['/'].intercalate (parts.map String.toList)).splitOn '/' =
      parts.map String.toList := by
    apply List.splitOn_intercalate
    · intro l hl
      obtain ⟨c, hc, rfl⟩ := List.mem_map.mp hl
      exact hslash c hc
    · exact mt List.map_eq_nil_iff.mp hne
  rw [pathComponents, String.toList_intercalate, hsep, hsplit, List.map_map]
  conv_rhs => rw [← List.map_id parts]
  exact List.map_congr_left fun c _ => String.ofList_toList

/-- A component that the loop accepts. -/
def CheckedComponent (c : String) : Prop := SafeComponent c ∧ '/' ∉ c.toList

theorem parsePathParts_checked {values : List BencodeValue} {parts out : List String}
    (h : parsePathParts values parts = .ok out) (hparts : ∀ c ∈ parts, CheckedComponent c) :
    out.length = parts.length + values.length ∧ ∀ c ∈ out, CheckedComponent c := by
  induction values generalizing parts with
  | nil =>
    cases h
    exact ⟨rfl, hparts⟩
  | cons value rest ih =>
    cases value with
    | bytes b =>
      rw [parsePathParts] at h
      split at h
      · cases h
      · next hlength =>
        simp only at h
        split at h
        · cases h
        · next hcomponent =>
          -- The checks are made on the text, so a replaced byte cannot get past them.
          have hne : b ≠ [] := by
            intro hb
            apply hlength
            rw [hb]
            rfl
          simp only [Bool.or_eq_true, decide_eq_true_eq, not_or] at hcomponent
          have hchecked : CheckedComponent (fromUtf8Lossy b) :=
            ⟨⟨fromUtf8Lossy_ne_empty hne, hcomponent.1.1, hcomponent.1.2⟩, hcomponent.2⟩
          obtain ⟨hcount, hout⟩ := ih h fun c hc => by
            rcases List.mem_append.mp hc with hc | hc
            · exact hparts c hc
            · rw [List.mem_singleton.mp hc]
              exact hchecked
          refine ⟨?_, hout⟩
          rw [hcount, List.length_append, List.length_singleton, List.length_cons]
          omega
    | _ => cases h

theorem parseFilePath_safe {dict : BencodeDict} {path : String}
    (h : parseFilePath dict = .ok path) : SafePath path := by
  rw [parseFilePath] at h
  split at h
  · next values _ =>
    split at h
    · cases h
    · next hcount =>
      simp only [Bool.or_eq_true, List.isEmpty_iff, decide_eq_true_eq, not_or] at hcount
      cases hparts : parsePathParts values [] with
      | error e =>
        rw [hparts] at h
        cases h
      | ok parts =>
        rw [hparts] at h
        cases h
        obtain ⟨hlength, hchecked⟩ := parsePathParts_checked hparts (by simp)
        have hpos := List.length_pos_iff.mpr hcount.1
        have hne : parts ≠ [] := by
          rw [← List.length_pos_iff]
          simp only [List.length_nil] at hlength
          omega
        rw [SafePath, pathComponents_intercalate hne fun c hc => (hchecked c hc).2]
        simp only [List.length_nil] at hlength
        exact ⟨by omega, by omega, fun c hc => (hchecked c hc).1⟩
  · cases h

theorem entries_safe {items : List BencodeValue} {read : List (String × Int)}
    (h : List.Forall₂ FileEntry items read) : ∀ f ∈ read, SafePath f.1 := by
  induction h with
  | nil => simp
  | cons hentry _ ih =>
    obtain ⟨_, -, -, -, hpath⟩ := hentry
    intro f hf
    rcases List.mem_cons.mp hf with rfl | hf
    · exact parseFilePath_safe hpath
    · exact ih f hf

/-! ## Accepted metadata -/

theorem InfoRead.paths {dict : BencodeDict} {info : TorrentInfo} (h : InfoRead dict info) :
    (∀ f ∈ info.files, SafePath f.1) ↔ hasFileList dict = true ∨ SafePath (torrentName dict) := by
  rcases parseContent_cases h.content with ⟨items, hfiles, -, -, hparse⟩ | ⟨hlist, length, -, -, hone⟩
  · obtain ⟨read, hread, hcontent⟩ := parseFiles_entries hparse
    have hpaths : info.files = read := congrArg Prod.snd hcontent
    rw [hpaths]
    refine iff_of_true (entries_safe hread) (.inl ?_)
    rw [hasFileList, hfiles]
  · rw [← h.name, hlist]
    have hpaths : info.files = [(info.name, length)] := congrArg Prod.snd hone
    simp [hpaths]

/-- The path that a stranger can choose freely is the name of a torrent without a file list. -/
theorem file_paths_safe_iff {codecs : Codecs} {data : Bytes} {info : TorrentInfo}
    (h : codecs.parseTorrentInfo data = .ok info) :
    (∀ f ∈ info.files, SafePath f.1) ↔
      ∃ dict, codecs.decodeBencode data = .ok (.dict dict) ∧
        (hasFileList dict = true ∨ SafePath (torrentName dict)) := by
  obtain ⟨dict, hdecode, hread⟩ := parseTorrentInfo_read h
  rw [hread.paths]
  constructor
  · exact fun hcondition => ⟨dict, hdecode, hcondition⟩
  · rintro ⟨other, hother, hcondition⟩
    cases hdecode.symm.trans hother
    exact hcondition

/-- One file, with a name that leads out of its directory. -/
def escapingInfo : Bytes := asBytes "d6:lengthi1e4:name4:../x12:piece lengthi1ee"

def plainCodecs : Codecs := ⟨fun _ => 0, BencodeValue.decode⟩

theorem escapingInfo_accepted :
    plainCodecs.parseTorrentInfo escapingInfo = .ok ⟨"../x", 1, 1, 1, [("../x", 1)]⟩ := by
  rfl

theorem file_paths_escape :
    ¬ ∀ data info, plainCodecs.parseTorrentInfo data = .ok info →
      ∀ f ∈ info.files, SafePath f.1 := by
  intro hclaim
  have hsafe : SafePath "../x" :=
    hclaim escapingInfo _ escapingInfo_accepted ("../x", 1) List.mem_cons_self
  exact absurd hsafe (by decide)

theorem file_paths_safe_iff_example :
    (∀ f ∈ [("../x", (1 : Int))], SafePath f.1) ↔
      ∃ dict, plainCodecs.decodeBencode escapingInfo = .ok (.dict dict) ∧
        (hasFileList dict = true ∨ SafePath (torrentName dict)) :=
  file_paths_safe_iff escapingInfo_accepted

end Btfind
