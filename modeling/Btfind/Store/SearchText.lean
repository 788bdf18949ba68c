import Btfind.Library.Runs
import Btfind.Store.Search

/-!
# Complete search documents

The document of a torrent is the joined runs of its name and of its paths, exactly, or there is
none. The loop that builds it stops at the first character that does not fit, and the text only
grows, so it stops exactly when the whole text does not fit.
-/

namespace Btfind

open Runs

/-! ## Terms -/

/-- The maximal alphanumeric runs of the NFKC form. -/
def searchTerms (u : Unicode) (s : String) : List (List Char) := runs u.isAlphanumeric (u.nfkc s)

/-- The terms with single spaces between them. -/
def joinTerms (terms : List (List Char)) : String := String.ofList (join ' ' terms)

/-- `normalize_search` -/
def normalizeSearch (u : Unicode) (s : String) : String :=
  String.intercalate " " ((((u.nfkc s).splitOnP fun c => !u.isAlphanumeric c).filter
    fun term => !term.isEmpty).map String.ofList)

theorem normalizeSearch_eq (u : Unicode) (s : String) :
    normalizeSearch u s = joinTerms (searchTerms u s) := by
  have hspace : " ".toList = [' '] := rfl
  have hmap : ∀ terms : List (List Char), (terms.map String.ofList).map String.toList = terms := by
    intro terms
    rw [List.map_map]
    conv_rhs => rw [← List.map_id terms]
    exact List.map_congr_left fun term _ => String.toList_ofList
  rw [← String.toList_inj, normalizeSearch, joinTerms, String.toList_intercalate, hspace, hmap,
    String.toList_ofList]
  rfl

theorem ne_nil_of_mem_searchTerms {u : Unicode} {s : String} :
    ∀ term ∈ searchTerms u s, term ≠ [] := fun _ => ne_nil_of_mem_runs

/-! ## The loop -/

section Loop

variable {isAlphanumeric : Char → Bool} {budget : Nat} {cs : List Char} {separator : Bool}
  {output : String}

/-- One character, and the separator before it. -/
def appendChar (separator : Bool) (output : String) (c : Char) : String :=
  (if separator then output.push ' ' else output).push c

theorem size_push (output : String) (c : Char) :
    (output.push c).utf8ByteSize = output.utf8ByteSize + c.utf8Size := by
  rw [String.push_eq_append, String.utf8ByteSize_append, String.utf8ByteSize_singleton]

theorem size_appendChar (separator : Bool) (output : String) (c : Char) :
    (appendChar separator output c).utf8ByteSize =
      output.utf8ByteSize + (c.utf8Size + if separator then 1 else 0) := by
  have hspace : (' ' : Char).utf8Size = 1 := rfl
  cases separator with
  | false =>
    rw [appendChar, size_push]
    rfl
  | true =>
    rw [appendChar, size_push, if_pos rfl, size_push, if_pos rfl, hspace]
    omega

theorem toList_appendChar (separator : Bool) (output : String) (c : Char) :
    (appendChar separator output c).toList =
      (if separator = true then output.toList ++ [' '] else output.toList) ++ [c] := by
  cases separator <;> simp [appendChar]

/-- Whatever the loop writes stays within the budget, also when it stops early. -/
theorem appendSearchLoop_output :
    (appendSearchLoop isAlphanumeric budget cs separator output).2 = output ∨
      (appendSearchLoop isAlphanumeric budget cs separator output).2.utf8ByteSize ≤ budget := by
  induction cs generalizing separator output with
  | nil => exact .inl rfl
  | cons c cs ih =>
    rw [appendSearchLoop]
    by_cases hc : isAlphanumeric c = false
    · rw [if_pos hc]
      exact ih
    · rw [if_neg hc]
      simp only
      by_cases hover : budget < output.utf8ByteSize + (c.utf8Size + if separator then 1 else 0)
      · rw [if_pos hover]
        exact .inl rfl
      · rw [if_neg hover]
        right
        rw [← size_appendChar] at hover
        change (appendSearchLoop isAlphanumeric budget cs false
          (appendChar separator output c)).2.utf8ByteSize ≤ budget
        rcases ih with heq | hle
        · rw [heq]
          exact Nat.not_lt.mp hover
        · exact hle

theorem appendSearchLoop_size_le (hfit : output.utf8ByteSize ≤ budget) :
    (appendSearchLoop isAlphanumeric budget cs separator output).2.utf8ByteSize ≤ budget := by
  rcases appendSearchLoop_output with heq | hle
  · rw [heq]
    exact hfit
  · exact hle

theorem isEmpty_eq (output : String) : output.isEmpty = output.toList.isEmpty := by
  rw [Bool.eq_iff_iff, String.isEmpty_iff, List.isEmpty_iff, String.toList_eq_nil_iff]

theorem size_le_of_prefix (h : output.toList <+: cs) :
    output.utf8ByteSize ≤ (String.ofList cs).utf8ByteSize := by
  obtain ⟨rest, rfl⟩ := h
  rw [String.ofList_append, String.ofList_toList, String.utf8ByteSize_append]
  exact Nat.le_add_right _ _

/-- The loop gives the whole text when it fits. -/
theorem appendSearchLoop_build (hfit : output.utf8ByteSize ≤ budget) :
    appendedText (appendSearchLoop isAlphanumeric budget cs separator output) =
      if (String.ofList (build isAlphanumeric ' ' cs separator output.toList)).utf8ByteSize ≤ budget
      then some (String.ofList (build isAlphanumeric ' ' cs separator output.toList))
      else none := by
  induction cs generalizing separator output with
  | nil =>
    rw [appendSearchLoop, build, String.ofList_toList, if_pos hfit]
    rfl
  | cons c cs ih =>
    rw [appendSearchLoop, build]
    by_cases hc : isAlphanumeric c = false
    · rw [if_pos hc, if_pos hc, ih hfit, isEmpty_eq]
    · rw [if_neg hc, if_neg hc, ← toList_appendChar]
      simp only
      rw [← size_appendChar]
      by_cases hover : budget < (appendChar separator output c).utf8ByteSize
      · -- What follows only makes the text longer.
        have hlonger := size_le_of_prefix
          (prefix_build isAlphanumeric ' ' cs false (appendChar separator output c).toList)
        rw [if_pos hover, if_neg (by omega)]
        rfl
      · rw [if_neg hover]
        exact ih (Nat.not_lt.mp hover)

end Loop

/-! ## Names and paths -/

section Document

variable {u : Unicode} {budget : Nat} {words : List (List Char)}

theorem size_joinTerms_le (words more : List (List Char)) :
    (joinTerms words).utf8ByteSize ≤ (joinTerms (words ++ more)).utf8ByteSize := by
  refine size_le_of_prefix ?_
  rw [joinTerms, String.toList_ofList]
  exact prefix_join_append words more

/-- The calls give the joined runs of what has been appended, when they fit. -/
theorem appendSearchText_eq (hne : ∀ word ∈ words, word ≠ []) (input : String)
    (hfit : (joinTerms words).utf8ByteSize ≤ budget) :
    appendSearchText u (joinTerms words) input budget =
      if (joinTerms (words ++ searchTerms u input)).utf8ByteSize ≤ budget then
        some (joinTerms (words ++ searchTerms u input))
      else none := by
  have htext : (joinTerms words).toList = join ' ' words := String.toList_ofList
  have hbuild : build u.isAlphanumeric ' ' (u.nfkc input) (!(joinTerms words).isEmpty)
      (joinTerms words).toList = join ' ' (words ++ searchTerms u input) := by
    rw [isEmpty_eq, htext]
    exact build_eq _ _ _ hne
  rw [appendSearchText, appendSearchLoop_build hfit, hbuild]
  rfl

/-- The terms of the paths, in the order of the file rows. -/
def pathTerms (u : Unicode) (paths : List String) : List (List Char) :=
  paths.flatMap (searchTerms u)

/-- The loop over the paths gives the joined runs of all paths, when each path and the text fit. -/
theorem appendSearchPaths_eq {pathBudget : Nat} {paths : List String}
    (hne : ∀ word ∈ words, word ≠ []) (hfit : (joinTerms words).utf8ByteSize ≤ pathBudget) :
    appendSearchPaths u budget pathBudget paths (joinTerms words) =
      if (∀ path ∈ paths, path.utf8ByteSize ≤ budget) ∧
          (joinTerms (words ++ pathTerms u paths)).utf8ByteSize ≤ pathBudget then
        some (joinTerms (words ++ pathTerms u paths))
      else none := by
  induction paths generalizing words with
  | nil =>
    rw [appendSearchPaths, pathTerms, List.flatMap_nil, List.append_nil, if_pos]
    exact ⟨List.forall_mem_nil _, hfit⟩
  | cons path paths ih =>
    have hterms : words ++ pathTerms u (path :: paths) =
        (words ++ searchTerms u path) ++ pathTerms u paths := by
      rw [List.append_assoc]
      rfl
    rw [appendSearchPaths, hterms]
    by_cases hpath : budget < path.utf8ByteSize
    · rw [if_pos hpath, if_neg]
      rintro ⟨hall, -⟩
      exact absurd (hall path List.mem_cons_self) (Nat.not_le.mpr hpath)
    · rw [if_neg hpath, appendSearchText_eq hne path hfit]
      by_cases hnext : (joinTerms (words ++ searchTerms u path)).utf8ByteSize ≤ pathBudget
      · have hmore : ∀ word ∈ words ++ searchTerms u path, word ≠ [] :=
          List.forall_mem_append.mpr ⟨hne, ne_nil_of_mem_searchTerms⟩
        rw [if_pos hnext]
        simp only [ih hmore hnext, List.forall_mem_cons, Nat.not_lt.mp hpath, true_and]
      · -- The paths that follow only make the text longer.
        rw [if_neg hnext, if_neg]
        rintro ⟨-, htotal⟩
        exact hnext ((size_joinTerms_le _ _).trans htotal)

end Document

/-! ## Documents -/

section Complete

variable {u : Unicode} {hash : InfoHash} {budget : Nat} {row : TorrentRow} {paths : List String}

/-- The name that the torrent row is indexed under: none while its metadata is incomplete. -/
def indexedName (row : TorrentRow) : Option String :=
  if row.metadataComplete then row.name else none

/-- The text of the name. -/
def documentName (u : Unicode) (row : TorrentRow) : String :=
  normalizeSearch u ((indexedName row).getD "")

/-- The text of the paths. -/
def documentPaths (u : Unicode) (paths : List String) : String := joinTerms (pathTerms u paths)

/-- The raw fields and the whole document fit. -/
structure DocumentFits (u : Unicode) (hash : InfoHash) (budget : Nat) (row : TorrentRow)
    (paths : List String) : Prop where
  rawName : ((indexedName row).getD "").utf8ByteSize ≤ budget
  rawPaths : ∀ path ∈ paths, path.utf8ByteSize ≤ budget
  total : (hexEncode hash).utf8ByteSize + 128 + (documentName u row).utf8ByteSize +
    (documentPaths u paths).utf8ByteSize ≤ budget

/-- The document of a torrent with a name or with files. -/
def completeDocument (u : Unicode) (row : TorrentRow) (paths : List String) :
    Option SearchDocumentRow :=
  if (indexedName row).isSome || !paths.isEmpty then
    some ⟨documentName u row, documentPaths u paths⟩
  else none

theorem rawBytes_eq (row : TorrentRow) :
    (if row.metadataComplete then row.name.map String.utf8ByteSize else some 0).getD 0 =
      ((indexedName row).getD "").utf8ByteSize := by
  rw [indexedName]
  cases row.metadataComplete with
  | false => rfl
  | true => cases row.name <;> rfl

theorem rawName_eq (h : ((indexedName row).getD "").utf8ByteSize ≤ budget) :
    (if row.metadataComplete then row.name.filter fun n => n.utf8ByteSize ≤ budget else none) =
      indexedName row := by
  rw [indexedName] at h ⊢
  cases hcomplete : row.metadataComplete with
  | false => rfl
  | true =>
    rw [hcomplete] at h
    cases hname : row.name with
    | none => rfl
    | some name =>
      rw [hname] at h
      exact if_pos (decide_eq_true h)

theorem joinTerms_nil_size (limit : Nat) : (joinTerms []).utf8ByteSize ≤ limit := Nat.zero_le _

/-- The text of a name from an empty output. -/
theorem appendSearchText_empty (u : Unicode) (input : String) (budget : Nat) :
    appendSearchText u "" input budget =
      if (normalizeSearch u input).utf8ByteSize ≤ budget then some (normalizeSearch u input)
      else none := by
  rw [normalizeSearch_eq]
  exact appendSearchText_eq (List.forall_mem_nil _) input (joinTerms_nil_size budget)

/-- The text of the paths from an empty output. -/
theorem appendSearchPaths_empty (u : Unicode) (budget pathBudget : Nat) (paths : List String) :
    appendSearchPaths u budget pathBudget paths "" =
      if (∀ path ∈ paths, path.utf8ByteSize ≤ budget) ∧
          (documentPaths u paths).utf8ByteSize ≤ pathBudget then
        some (documentPaths u paths)
      else none :=
  appendSearchPaths_eq (List.forall_mem_nil _) (joinTerms_nil_size pathBudget)

example : appendSearchPaths .ascii 9 7 ["-ab/cd", "e "] "" = some "ab cd e" := by decide

/-- A document that fits is built, whole. -/
theorem searchDocumentOf_of_fits (h : DocumentFits u hash budget row paths) :
    searchDocumentOf u hash budget row paths = .ok (completeDocument u row paths) := by
  have htotal := h.total
  have hname :
      (documentName u row).utf8ByteSize ≤ budget - ((hexEncode hash).utf8ByteSize + 128) := by
    omega
  have hpaths : (documentPaths u paths).utf8ByteSize ≤
      budget - ((hexEncode hash).utf8ByteSize + 128) - (documentName u row).utf8ByteSize := by
    omega
  rw [searchDocumentOf]
  simp only [rawBytes_eq, rawName_eq h.rawName]
  rw [if_neg (Nat.not_lt.mpr h.rawName), if_neg (by omega)]
  rw [appendSearchText_empty, ← documentName, if_pos hname]
  simp only
  rw [appendSearchPaths_empty, if_pos ⟨h.rawPaths, hpaths⟩]
  simp only
  rw [completeDocument]
  split <;> rfl

/-- A document that does not fit is refused. -/
theorem searchDocumentOf_of_not_fits (h : ¬ DocumentFits u hash budget row paths) :
    searchDocumentOf u hash budget row paths = .error (.documentTooLarge hash budget) := by
  rw [searchDocumentOf]
  simp only [rawBytes_eq]
  by_cases hraw : budget < ((indexedName row).getD "").utf8ByteSize
  · rw [if_pos hraw]
  · have hraw := Nat.not_lt.mp hraw
    rw [if_neg (Nat.not_lt.mpr hraw), rawName_eq hraw]
    by_cases hreserved : budget < (hexEncode hash).utf8ByteSize + 128
    · rw [if_pos hreserved]
    · rw [if_neg hreserved, appendSearchText_empty, ← documentName]
      by_cases hname : (documentName u row).utf8ByteSize ≤
          budget - ((hexEncode hash).utf8ByteSize + 128)
      · rw [if_pos hname]
        simp only
        rw [appendSearchPaths_empty, if_neg]
        rintro ⟨hall, hpaths⟩
        exact h ⟨hraw, hall, by omega⟩
      · rw [if_neg hname]

theorem searchDocumentOf_eq_ok_iff {found : Option SearchDocumentRow} :
    searchDocumentOf u hash budget row paths = .ok found ↔
      DocumentFits u hash budget row paths ∧ found = completeDocument u row paths := by
  by_cases hfits : DocumentFits u hash budget row paths
  · rw [searchDocumentOf_of_fits hfits, Except.ok.injEq, eq_comm]
    exact (and_iff_right hfits).symm
  · rw [searchDocumentOf_of_not_fits hfits]
    refine iff_of_false (fun h => ?_) fun h => hfits h.1
    cases h

/-- The only error of a document is its size. -/
theorem searchDocumentOf_error {e : StoreError}
    (h : searchDocumentOf u hash budget row paths = .error e) :
    e = .documentTooLarge hash budget := by
  by_cases hfits : DocumentFits u hash budget row paths
  · rw [searchDocumentOf_of_fits hfits] at h
    cases h
  · rw [searchDocumentOf_of_not_fits hfits] at h
    cases h
    rfl

/-- A search document is complete or refused. -/
theorem search_document_complete (u : Unicode) (hash : InfoHash) (budget : Nat) (row : TorrentRow)
    (paths : List String) :
    (DocumentFits u hash budget row paths →
      searchDocumentOf u hash budget row paths = .ok (completeDocument u row paths)) ∧
    (¬ DocumentFits u hash budget row paths →
      searchDocumentOf u hash budget row paths = .error (.documentTooLarge hash budget)) ∧
    (∀ input output limit, output.utf8ByteSize ≤ limit →
      (appendSearchLoop u.isAlphanumeric limit (u.nfkc input) (!output.isEmpty)
        output).2.utf8ByteSize ≤ limit) ∧
    ∀ input limit name, appendSearchText u "" input limit = some name →
      name.utf8ByteSize ≤ limit := by
  refine ⟨searchDocumentOf_of_fits, searchDocumentOf_of_not_fits, ?_, ?_⟩
  · intro input output limit hfit
    exact appendSearchLoop_size_le hfit
  · intro input limit name hname
    rw [appendSearchText_empty] at hname
    split at hname
    · next hle =>
      cases hname
      exact hle
    · cases hname

end Complete

end Btfind
