import Mathlib.Data.List.Sort
import Mathlib.Order.Basic

/-!
# Keyset pages

Lists of keys in ascending order of a rank. A page holds the first keys after the last key of
the page before it, and a page of a union can be put together from the pages of its parts.
-/

namespace Paging

variable {K O : Type*} [LinearOrder O] {rank : K → O}

/-- The keys ascend, each once. -/
def Ascending (rank : K → O) (keys : List K) : Prop :=
  keys.Pairwise fun a b => rank a < rank b

/-- The keys in ascending order. -/
def inOrder (rank : K → O) (keys : List K) : List K :=
  keys.insertionSort fun a b => rank a ≤ rank b

/-- The key comes after the last key of the pages so far. -/
def isAfter (rank : K → O) (after : Option K) (key : K) : Bool :=
  after.all fun last => rank last < rank key

variable {keys xs ys done rest : List K} {k : K} {n : Nat}

theorem mem_inOrder : k ∈ inOrder rank keys ↔ k ∈ keys :=
  List.mem_insertionSort _

theorem ascending_inOrder_of_distinct (hinj : ∀ a ∈ keys, ∀ b ∈ keys, rank a = rank b → a = b)
    (hnodup : keys.Nodup) : Ascending rank (inOrder rank keys) := by
  have hsorted : (inOrder rank keys).Pairwise fun a b => rank a ≤ rank b :=
    List.pairwise_insertionSort _ keys
  have hdistinct : (inOrder rank keys).Nodup :=
    (List.perm_insertionSort _ keys).nodup_iff.mpr hnodup
  refine List.Pairwise.imp_of_mem ?_ (hsorted.and hdistinct)
  rintro a b ha hb ⟨hle, hne⟩
  exact lt_of_le_of_ne hle fun heq =>
    hne (hinj a (mem_inOrder.mp ha) b (mem_inOrder.mp hb) heq)

theorem ascending_inOrder (hinj : Function.Injective rank) (hnodup : keys.Nodup) :
    Ascending rank (inOrder rank keys) :=
  ascending_inOrder_of_distinct (fun _ _ _ _ heq => hinj heq) hnodup

omit [LinearOrder O] in
/-- A limit before a filter still fills what the filtered keys leave of it, when few keys are
filtered out. -/
theorem take_filter_take {p : K → Bool} {limit few : Nat}
    (hfew : (keys.filter fun a => !p a).length ≤ few) :
    ((keys.take limit).filter p).take (limit - few) = (keys.filter p).take (limit - few) := by
  have hsplit : (keys.take limit).filter p ++ (keys.drop limit).filter p = keys.filter p := by
    rw [← List.filter_append, List.take_append_drop]
  by_cases hall : keys.length ≤ limit
  · rw [List.take_of_length_le hall]
  · -- The first keys are `limit` many, and at most `few` of them are filtered out.
    have hout : ((keys.take limit).filter fun a => !p a).length ≤ few := by
      have hsub := ((List.take_sublist limit keys).filter fun a => !p a).length_le
      omega
    have hlen := List.length_eq_length_filter_add p (l := keys.take limit)
    rw [List.length_take_of_le (by omega)] at hlen
    rw [← hsplit, List.take_append_of_le_length (by omega)]

namespace Ascending

theorem nodup (h : Ascending rank keys) : keys.Nodup := by
  refine List.Pairwise.imp ?_ h
  rintro a b hlt rfl
  exact lt_irrefl _ hlt

theorem take (h : Ascending rank keys) : Ascending rank (keys.take n) :=
  List.Pairwise.sublist (List.take_sublist n keys) h

theorem filter {p : K → Bool} (h : Ascending rank keys) : Ascending rank (keys.filter p) :=
  List.Pairwise.filter p h

/-- An ascending list is known by its members. -/
theorem ext (hx : Ascending rank xs) (hy : Ascending rank ys) (h : ∀ k, k ∈ xs ↔ k ∈ ys) :
    xs = ys := by
  refine List.Perm.eq_of_pairwise ?_ hx hy
    ((List.perm_ext_iff_of_nodup hx.nodup hy.nodup).mpr h)
  intro a b _ _ hab hba
  exact absurd hba (lt_asymm hab)

/-- The first keys come before all others. -/
theorem rank_lt_of_mem_take {a : K} (h : Ascending rank keys) (ha : a ∈ keys.take n) (hk : k ∈ keys)
    (hout : k ∉ keys.take n) : rank a < rank k := by
  have hsplit : Ascending rank (keys.take n ++ keys.drop n) := by
    rw [List.take_append_drop]
    exact h
  rw [← List.take_append_drop n keys] at hk
  exact (List.pairwise_append.mp hsplit).2.2 a ha k ((List.mem_append.mp hk).resolve_left hout)

/-- The first keys are those with few keys before them. -/
theorem mem_take_iff (h : Ascending rank keys) :
    k ∈ keys.take n ↔ k ∈ keys ∧ keys.countP (fun a => rank a < rank k) < n := by
  induction keys generalizing n with
  | nil => simp
  | cons a keys ih =>
    obtain ⟨hfirst, hrest⟩ := List.pairwise_cons.mp h
    cases n with
    | zero => simp
    | succ n =>
      rw [List.take_succ_cons, List.mem_cons, List.mem_cons, ih hrest, List.countP_cons]
      by_cases hk : k = a
      · subst hk
        have hzero : keys.countP (fun b => rank b < rank k) = 0 := by
          rw [List.countP_eq_zero]
          intro b hb
          simpa using (hfirst b hb).le
        simp [hzero]
      · constructor
        · rintro (heq | ⟨hmem, hcount⟩)
          · exact absurd heq hk
          · refine ⟨Or.inr hmem, ?_⟩
            split <;> omega
        · rintro ⟨heq | hmem, hcount⟩
          · exact absurd heq hk
          · rw [if_pos (by simpa using hfirst k hmem)] at hcount
            exact Or.inr ⟨hmem, by omega⟩

/-- Fewer keys, fewer of them before a key. -/
theorem countP_le (hx : Ascending rank xs) (h : xs ⊆ ys) (p : K → Bool) :
    xs.countP p ≤ ys.countP p :=
  (List.subperm_of_subset hx.nodup h).countP_le p

/-- The first keys of a list can be read off a part that has them. -/
theorem take_eq (hx : Ascending rank xs) (hy : Ascending rank ys) (hsub : xs ⊆ ys)
    (hfirst : ys.take n ⊆ xs) : xs.take n = ys.take n := by
  refine hx.take.ext hy.take ?_
  intro k
  constructor
  · intro hk
    obtain ⟨hmem, hcount⟩ := hx.mem_take_iff.mp hk
    refine hy.mem_take_iff.mpr ⟨hsub hmem, ?_⟩
    by_contra hmany
    -- the first keys all come before `k`, and the part has them
    have hbefore : ∀ a ∈ ys.take n, rank a < rank k := by
      intro a ha
      by_contra hle
      obtain ⟨-, hfew⟩ := hy.mem_take_iff.mp ha
      have hmono : ys.countP (fun b => rank b < rank k) ≤ ys.countP fun b => rank b < rank a := by
        refine List.countP_mono_left ?_
        intro b _ hb
        rw [decide_eq_true_eq] at hb ⊢
        exact hb.trans_le (not_lt.mp hle)
      omega
    have hall : (ys.take n).countP (fun a => rank a < rank k) = (ys.take n).length := by
      rw [List.countP_eq_length]
      intro a ha
      exact decide_eq_true (hbefore a ha)
    have hlength := List.countP_le_length (p := fun a => decide (rank a < rank k)) (l := ys)
    have hpart := hy.take.countP_le hfirst fun a => rank a < rank k
    rw [hall, List.length_take] at hpart
    omega
  · intro hk
    obtain ⟨-, hcount⟩ := hy.mem_take_iff.mp hk
    exact hx.mem_take_iff.mpr ⟨hfirst hk, (hx.countP_le hsub _).trans_lt hcount⟩

/-- The first keys of a union are among the first keys of its parts. -/
theorem take_union {all first : List K} (hx : Ascending rank xs) (hy : Ascending rank ys)
    (hall : Ascending rank all) (hfirst : Ascending rank first)
    (hmem : ∀ k, k ∈ all ↔ k ∈ xs ∨ k ∈ ys)
    (hparts : ∀ k, k ∈ first ↔ k ∈ xs.take n ∨ k ∈ ys.take n) : first.take n = all.take n := by
  refine hfirst.take_eq hall ?_ ?_
  · intro k hk
    exact (hmem k).mpr (((hparts k).mp hk).imp List.mem_of_mem_take List.mem_of_mem_take)
  · intro k hk
    obtain ⟨hk, hcount⟩ := hall.mem_take_iff.mp hk
    have hxs : xs ⊆ all := fun a ha => (hmem a).mpr (Or.inl ha)
    have hys : ys ⊆ all := fun a ha => (hmem a).mpr (Or.inr ha)
    obtain hin | hin := (hmem k).mp hk
    · exact (hparts k).mpr
        (Or.inl (hx.mem_take_iff.mpr ⟨hin, (hx.countP_le hxs _).trans_lt hcount⟩))
    · exact (hparts k).mpr
        (Or.inr (hy.mem_take_iff.mpr ⟨hin, (hy.countP_le hys _).trans_lt hcount⟩))

/-- After the last key of the pages so far comes what they have not held. -/
theorem filter_isAfter (h : Ascending rank (done ++ rest)) :
    (done ++ rest).filter (isAfter rank done.getLast?) = rest := by
  obtain ⟨hdone, hrest, hcross⟩ := List.pairwise_append.mp h
  rw [List.filter_append]
  cases hlast : done.getLast? with
  | none =>
    rw [List.getLast?_eq_none_iff.mp hlast]
    simp [isAfter]
  | some last =>
    have hmem : last ∈ done := List.mem_of_getLast? hlast
    have hnone : done.filter (isAfter rank (some last)) = [] := by
      obtain ⟨before, rfl⟩ := List.getLast?_eq_some_iff.mp hlast
      rw [List.filter_eq_nil_iff]
      intro a ha
      simp only [isAfter, Option.all_some, decide_eq_true_eq, not_lt]
      obtain hbefore | heq := List.mem_append.mp ha
      · exact ((List.pairwise_append.mp hdone).2.2 a hbefore last (List.mem_singleton_self _)).le
      · rw [List.mem_singleton.mp heq]
    have hevery : rest.filter (isAfter rank (some last)) = rest := by
      rw [List.filter_eq_self]
      intro a ha
      exact decide_eq_true (hcross last hmem a ha)
    rw [hnone, hevery, List.nil_append]

end Ascending

end Paging
