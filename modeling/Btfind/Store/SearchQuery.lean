import Btfind.Store.SearchText
import Mathlib.Data.List.DropRight

/-!
# Search queries

A query in the boolean mode of the database: every alphanumeric run of the user's text as a quoted
term that must occur. No other operator reaches the query, and the terms are the ones that the text
is indexed under.
-/

namespace Btfind

open Runs

/-- `char::is_whitespace`: the characters with the property `White_Space`. -/
def isWhitespace (c : Char) : Bool :=
  (9 ≤ c.toNat && c.toNat ≤ 13) || c.toNat == 0x20 || c.toNat == 0x85 || c.toNat == 0xA0 ||
    c.toNat == 0x1680 || (0x2000 ≤ c.toNat && c.toNat ≤ 0x200A) || c.toNat == 0x2028 ||
    c.toNat == 0x2029 || c.toNat == 0x202F || c.toNat == 0x205F || c.toNat == 0x3000

/-- `str::trim` -/
def trim (s : String) : String :=
  String.ofList ((s.toList.dropWhile isWhitespace).rdropWhile isWhitespace)

/-- `str::split_whitespace` -/
def splitWhitespace (s : String) : List String :=
  (runs (fun c => !isWhitespace c) s.toList).map String.ofList

/-- A term that must occur, as a phrase. -/
def quoteTerm (term : String) : String := "+\"" ++ term ++ "\""

def queryTooLong : String := "search query is too long (maximum 1024 bytes)"

def queryTermsTooShort : String :=
  "use at least two letters or characters in each search term"

/-- `search_query` -/
def searchQuery (u : Unicode) (s : String) : Except String String :=
  if (trim s).isEmpty then .ok ""
  else if 1024 < s.utf8ByteSize then .error queryTooLong
  else
    let terms := splitWhitespace (normalizeSearch u s)
    if terms.isEmpty || terms.any fun term => decide (term.length < 2) then
      .error queryTermsTooShort
    else .ok (String.intercalate " " (terms.map quoteTerm))

/-! ## Quoted terms -/

section Query

variable {u : Unicode} {s : String} {terms : List (List Char)}

/-- The characters of a quoted term. -/
def quoted (term : List Char) : List Char := '+' :: '"' :: (term ++ ['"'])

/-- The terms, quoted, with single spaces between them. -/
def queryOf (terms : List (List Char)) : String := String.ofList (join ' ' (terms.map quoted))

theorem toList_quoteTerm (term : List Char) :
    (quoteTerm (String.ofList term)).toList = quoted term := by
  have hopen : "+\"".toList = ['+', '"'] := rfl
  have hclose : "\"".toList = ['"'] := rfl
  rw [quoteTerm, String.toList_append, String.toList_append, hopen, hclose, String.toList_ofList]
  rfl

theorem intercalate_quoteTerm (terms : List (List Char)) :
    String.intercalate " " ((terms.map String.ofList).map quoteTerm) = queryOf terms := by
  have hspace : " ".toList = [' '] := rfl
  rw [← String.toList_inj, String.toList_intercalate, hspace, List.map_map, List.map_map, queryOf,
    String.toList_ofList, join]
  exact congrArg _ (List.map_congr_left fun term _ => toList_quoteTerm term)

theorem queryOf_ne_empty (h : terms ≠ []) : queryOf terms ≠ "" := by
  have hne : ∀ word ∈ terms.map quoted, word ≠ [] := by
    intro word hword
    obtain ⟨term, -, rfl⟩ := List.mem_map.mp hword
    exact List.cons_ne_nil _ _
  intro heq
  have hempty : (join ' ' (terms.map quoted)).isEmpty = (terms.map quoted).isEmpty :=
    isEmpty_join hne
  rw [← String.toList_inj, queryOf, String.toList_ofList] at heq
  rw [heq] at hempty
  exact h (List.map_eq_nil_iff.mp (List.isEmpty_iff.mp hempty.symm))

/-- No character is both alphanumeric and whitespace. -/
def SpaceFree (u : Unicode) : Prop := ∀ c, u.isAlphanumeric c = true → isWhitespace c = false

/-- Splitting at whitespace gives back the terms of the normalized text. -/
theorem splitWhitespace_normalizeSearch (hspace : SpaceFree u) (s : String) :
    splitWhitespace (normalizeSearch u s) = (searchTerms u s).map String.ofList := by
  have hall : ∀ term ∈ searchTerms u s, ∀ c ∈ term, (!isWhitespace c) = true := by
    intro term hterm c hc
    rw [hspace c (accepted_of_mem_runs hterm c hc)]
    rfl
  rw [splitWhitespace, normalizeSearch_eq, joinTerms, String.toList_ofList,
    runs_join rfl ne_nil_of_mem_searchTerms hall]

/-- The test on the terms, read on the terms of the text. -/
theorem shortTerm_iff (terms : List (List Char)) :
    ((terms.map String.ofList).isEmpty || (terms.map String.ofList).any fun term =>
      decide (term.length < 2)) = true ↔ ¬ (terms ≠ [] ∧ ∀ term ∈ terms, 2 ≤ term.length) := by
  have hlength : ∀ term : List Char, (String.ofList term).length = term.length :=
    fun _ => String.length_ofList
  rw [Bool.or_eq_true, List.isEmpty_iff, List.map_eq_nil_iff, List.any_map, List.any_eq_true,
    not_and_or, not_not]
  refine or_congr Iff.rfl ?_
  simp only [Function.comp_apply, hlength, decide_eq_true_eq, not_forall, Nat.not_le, exists_prop]

/-! ## The queries that are accepted -/

/-- At most 1024 bytes with at least one term, each of two characters or more. -/
structure QueryAccepted (u : Unicode) (s : String) : Prop where
  size : s.utf8ByteSize ≤ 1024
  terms : searchTerms u s ≠ []
  length : ∀ term ∈ searchTerms u s, 2 ≤ term.length

theorem searchQuery_of_blank (h : trim s = "") : searchQuery u s = .ok "" :=
  if_pos (String.isEmpty_iff.mpr h)

theorem searchQuery_of_accepted (hspace : SpaceFree u) (h : trim s ≠ "")
    (hacc : QueryAccepted u s) : searchQuery u s = .ok (queryOf (searchTerms u s)) := by
  have hshort := mt (shortTerm_iff (searchTerms u s)).mp (not_not.mpr ⟨hacc.terms, hacc.length⟩)
  rw [searchQuery, if_neg (mt String.isEmpty_iff.mp h), if_neg (Nat.not_lt.mpr hacc.size)]
  simp only
  rw [splitWhitespace_normalizeSearch hspace, if_neg hshort, intercalate_quoteTerm]

theorem searchQuery_of_not_accepted (hspace : SpaceFree u) (h : trim s ≠ "")
    (hacc : ¬ QueryAccepted u s) :
    searchQuery u s = .error queryTooLong ∨ searchQuery u s = .error queryTermsTooShort := by
  rw [searchQuery, if_neg (mt String.isEmpty_iff.mp h)]
  by_cases hsize : 1024 < s.utf8ByteSize
  · rw [if_pos hsize]
    exact .inl rfl
  · have hshort := (shortTerm_iff (searchTerms u s)).mpr fun hterms =>
      hacc ⟨Nat.not_lt.mp hsize, hterms.1, hterms.2⟩
    rw [if_neg hsize]
    simp only
    rw [splitWhitespace_normalizeSearch hspace, if_pos hshort]
    exact .inr rfl

/-! ## Operators -/

/-- The operators of the boolean mode that a user could write. -/
def isOperator (c : Char) : Bool :=
  c == '"' || c == '+' || c == '-' || c == '*' || c == '(' || c == ')'

theorem filter_isOperator_quoted {term : List Char} (h : ∀ c ∈ term, isOperator c = false) :
    (quoted term).filter isOperator = ['+', '"', '"'] := by
  have hterm : term.filter isOperator = [] :=
    List.filter_eq_nil_iff.mpr fun c hc => by rw [h c hc]; exact Bool.false_ne_true
  have hopen : isOperator '+' = true := rfl
  have hquote : isOperator '"' = true := rfl
  rw [quoted, List.filter_cons_of_pos hopen, List.filter_cons_of_pos hquote, List.filter_append,
    hterm, List.nil_append, List.filter_cons_of_pos hquote, List.filter_nil]

/-- The operators of a query are the ones around its terms. -/
theorem filter_isOperator_queryOf (h : ∀ term ∈ terms, ∀ c ∈ term, isOperator c = false) :
    (queryOf terms).toList.filter isOperator = terms.flatMap fun _ => ['+', '"', '"'] := by
  rw [queryOf, String.toList_ofList]
  -- Term by term; the spaces between them are no operators.
  induction terms with
  | nil => rfl
  | cons term terms ih =>
    have hterm := filter_isOperator_quoted (h term List.mem_cons_self)
    have hrest := ih fun next hnext => h next (List.mem_cons_of_mem _ hnext)
    have hsep : isOperator ' ' = false := rfl
    cases terms with
    | nil =>
      rw [List.map_singleton, join, List.intercalate_singleton, hterm]
      rfl
    | cons next terms =>
      rw [List.map_cons, List.map_cons, join, List.intercalate_cons_cons, List.filter_append,
        List.filter_append, hterm, List.filter_cons_of_neg (by rw [hsep]; exact Bool.false_ne_true),
        List.filter_nil, List.append_nil, List.flatMap_cons]
      exact congrArg _ hrest

/-! ## The query of a text -/

/-- The three outcomes, in the order of the checks. -/
theorem searchQuery_cases (hspace : SpaceFree u) (s : String) :
    (trim s = "" ∧ searchQuery u s = .ok "") ∨
    (trim s ≠ "" ∧ QueryAccepted u s ∧ searchQuery u s = .ok (queryOf (searchTerms u s))) ∨
    trim s ≠ "" ∧ ¬ QueryAccepted u s ∧ ∃ message, searchQuery u s = .error message := by
  by_cases hblank : trim s = ""
  · exact .inl ⟨hblank, searchQuery_of_blank hblank⟩
  · by_cases hacc : QueryAccepted u s
    · exact .inr (.inl ⟨hblank, hacc, searchQuery_of_accepted hspace hblank hacc⟩)
    · right
      right
      rcases searchQuery_of_not_accepted hspace hblank hacc with herror | herror
      · exact ⟨hblank, hacc, _, herror⟩
      · exact ⟨hblank, hacc, _, herror⟩

theorem searchQuery_empty_iff (hspace : SpaceFree u) (s : String) :
    searchQuery u s = .ok "" ↔ trim s = "" := by
  rcases searchQuery_cases hspace s with ⟨hblank, heq⟩ | ⟨hblank, hacc, heq⟩ |
    ⟨hblank, -, message, heq⟩
  · exact iff_of_true heq hblank
  · refine iff_of_false (fun h => ?_) hblank
    rw [heq] at h
    exact queryOf_ne_empty hacc.terms (Except.ok.inj h)
  · refine iff_of_false (fun h => ?_) hblank
    rw [heq] at h
    cases h

theorem searchQuery_ok_iff (hspace : SpaceFree u) (s : String) :
    (∃ q, q ≠ "" ∧ searchQuery u s = .ok q) ↔ trim s ≠ "" ∧ QueryAccepted u s := by
  rcases searchQuery_cases hspace s with ⟨hblank, heq⟩ | ⟨hblank, hacc, heq⟩ |
    ⟨-, hacc, message, heq⟩
  · refine iff_of_false ?_ fun h => h.1 hblank
    rintro ⟨q, hq, h⟩
    rw [heq] at h
    exact hq (Except.ok.inj h).symm
  · exact iff_of_true ⟨_, queryOf_ne_empty hacc.terms, heq⟩ ⟨hblank, hacc⟩
  · refine iff_of_false ?_ fun h => hacc h.2
    rintro ⟨q, -, h⟩
    rw [heq] at h
    cases h

theorem searchQuery_query {q : String} (hspace : SpaceFree u) (hq : q ≠ "")
    (h : searchQuery u s = .ok q) : q = queryOf (searchTerms u s) := by
  obtain ⟨hblank, hacc⟩ := (searchQuery_ok_iff hspace s).mp ⟨q, hq, h⟩
  rw [searchQuery_of_accepted hspace hblank hacc] at h
  exact (Except.ok.inj h).symm

/-- A term has no operator in it when no operator is alphanumeric. -/
theorem isOperator_searchTerms (hoperator : ∀ c, isOperator c = true → u.isAlphanumeric c = false)
    (s : String) : ∀ term ∈ searchTerms u s, ∀ c ∈ term, isOperator c = false := by
  intro term hterm c hc
  by_contra hop
  have hletter := accepted_of_mem_runs hterm c hc
  rw [hoperator c (Bool.eq_true_of_not_eq_false hop)] at hletter
  cases hletter

/-- The query of a text holds its terms, each quoted, and no other operator. -/
theorem search_query_terms (hspace : SpaceFree u) (s : String) :
    (searchQuery u s = .ok "" ↔ trim s = "") ∧
    ((∃ q, q ≠ "" ∧ searchQuery u s = .ok q) ↔ trim s ≠ "" ∧ QueryAccepted u s) ∧
    (∀ q, q ≠ "" → searchQuery u s = .ok q → q = queryOf (searchTerms u s) ∧
      ((∀ c, isOperator c = true → u.isAlphanumeric c = false) →
        q.toList.filter isOperator = (searchTerms u s).flatMap fun _ => ['+', '"', '"'])) ∧
    normalizeSearch u s = joinTerms (searchTerms u s) ∧
    splitWhitespace (normalizeSearch u s) = (searchTerms u s).map String.ofList := by
  refine ⟨searchQuery_empty_iff hspace s, searchQuery_ok_iff hspace s, ?_, normalizeSearch_eq u s,
    splitWhitespace_normalizeSearch hspace s⟩
  intro q hq h
  rw [searchQuery_query hspace hq h]
  exact ⟨rfl, fun hoperator => filter_isOperator_queryOf (isOperator_searchTerms hoperator s)⟩

end Query

/-- An ASCII letter or digit is none of the whitespace characters. -/
theorem spaceFree_isAlphanum (nfkc : String → List Char) : SpaceFree ⟨nfkc, Char.isAlphanum⟩ := by
  intro c h
  have hrange : (48 ≤ c.toNat ∧ c.toNat ≤ 57) ∨ (65 ≤ c.toNat ∧ c.toNat ≤ 90) ∨
      (97 ≤ c.toNat ∧ c.toNat ≤ 122) := by
    have hbounds : ∀ lo hi : UInt32, lo ≤ c.val → c.val ≤ hi →
        lo.toNat ≤ c.toNat ∧ c.toNat ≤ hi.toNat := fun lo hi hlo hhi =>
      ⟨UInt32.le_iff_toNat_le.mp hlo, UInt32.le_iff_toNat_le.mp hhi⟩
    rcases (Bool.or_eq_true c.isAlpha c.isDigit).mp h with halpha | hdigit
    · rcases (Bool.or_eq_true c.isUpper c.isLower).mp halpha with hupper | hlower
      · obtain ⟨hlo, hhi⟩ := of_decide_eq_true hupper
        exact .inr (.inl (hbounds _ _ hlo hhi))
      · obtain ⟨hlo, hhi⟩ := (Bool.and_eq_true _ _).mp hlower
        exact .inr (.inr (hbounds _ _ (of_decide_eq_true hlo) (of_decide_eq_true hhi)))
    · obtain ⟨hlo, hhi⟩ := (Bool.and_eq_true _ _).mp hdigit
      exact .inl (hbounds _ _ (of_decide_eq_true hlo) (of_decide_eq_true hhi))
  rw [Bool.eq_false_iff]
  simp only [isWhitespace, ne_eq, Bool.or_eq_true, Bool.and_eq_true, decide_eq_true_eq,
    beq_iff_eq]
  omega

theorem search_query_terms_example :
    (∃ q, q ≠ "" ∧ searchQuery .ascii "+ubuntu*" = .ok q) ∧
      searchQuery .ascii "+ubuntu*" = .ok "+\"ubuntu\"" :=
  ⟨(search_query_terms (spaceFree_isAlphanum _) "+ubuntu*").2.1.mpr
    ⟨by decide, by decide, by decide, by decide⟩, by decide⟩

/-- Tables under which a space is normalized to two letters. -/
def spaceLetters : Unicode := ⟨fun s => if s = " " then ['a', 'b'] else s.toList, Char.isAlphanum⟩

/-- The text is trimmed before it is normalized, so a space has no query whatever it is
normalized to. -/
theorem searchQuery_space : SpaceFree spaceLetters ∧ QueryAccepted spaceLetters " " ∧
    ¬ ∃ q, q ≠ "" ∧ searchQuery spaceLetters " " = .ok q := by
  refine ⟨spaceFree_isAlphanum _, ⟨by decide, by decide, by decide⟩, ?_⟩
  rintro ⟨q, hq, h⟩
  rw [searchQuery_of_blank (by decide)] at h
  exact hq (Except.ok.inj h).symm

end Btfind
