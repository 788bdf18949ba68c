import Mathlib.Data.List.Perm.Basic
import Mathlib.Data.List.Nodup
import Mathlib.Order.Lattice

/-!
# Maps as sorted lists

Association lists in the order of a rank of their keys. A map that is built entry by
entry has one such list, whatever the order in which the entries come.
-/

namespace SortedMap

variable {K V O : Type*} [LinearOrder O] {rank : K → O}

/-- The keys are distinct, and in order. -/
def Sorted (rank : K → O) (m : List (K × V)) : Prop :=
  m.Pairwise fun e e' => rank e.1 < rank e'.1

instance (rank : K → O) (m : List (K × V)) : Decidable (Sorted rank m) :=
  inferInstanceAs (Decidable (m.Pairwise fun e e' => rank e.1 < rank e'.1))

/-- Insert an entry, in place of the one that has the key. -/
def insert (rank : K → O) (k : K) (v : V) : List (K × V) → List (K × V)
  | [] => [(k, v)]
  | e :: m =>
    if rank k < rank e.1 then (k, v) :: e :: m
    else if rank e.1 < rank k then e :: insert rank k v m
    else (k, v) :: m

/-- Insert entries from left to right. -/
def insertAll (rank : K → O) (m : List (K × V)) (entries : List (K × V)) : List (K × V) :=
  entries.foldl (fun m e => insert rank e.1 e.2 m) m

variable {k : K} {v : V} {m m' entries entries' : List (K × V)} {e : K × V}

theorem mem_insert (h : e ∈ insert rank k v m) : e = (k, v) ∨ e ∈ m := by
  induction m with
  | nil => exact Or.inl (List.mem_singleton.mp h)
  | cons e' m ih =>
    rw [insert] at h
    split at h
    · exact List.mem_cons.mp h
    · split at h
      · obtain rfl | h := List.mem_cons.mp h
        · exact Or.inr List.mem_cons_self
        · exact (ih h).imp_right (List.mem_cons_of_mem _)
      · exact (List.mem_cons.mp h).imp_right (List.mem_cons_of_mem _)

theorem sorted_insert (h : Sorted rank m) : Sorted rank (insert rank k v m) := by
  induction m with
  | nil => exact List.pairwise_singleton _ _
  | cons e m ih =>
    obtain ⟨hhead, htail⟩ := List.pairwise_cons.mp h
    rw [insert]
    split
    · next hlt =>
      refine List.pairwise_cons.mpr ⟨?_, h⟩
      intro e' he'
      obtain rfl | he' := List.mem_cons.mp he'
      · exact hlt
      · exact hlt.trans (hhead e' he')
    · next hge =>
      split
      · next hgt =>
        refine List.pairwise_cons.mpr ⟨?_, ih htail⟩
        intro e' he'
        obtain rfl | he' := mem_insert he'
        · exact hgt
        · exact hhead e' he'
      · next hle =>
        have heq : rank k = rank e.1 := le_antisymm (not_lt.mp hle) (not_lt.mp hge)
        refine List.pairwise_cons.mpr ⟨?_, htail⟩
        intro e' he'
        exact heq ▸ hhead e' he'

theorem insert_perm (h : ∀ e ∈ m, rank e.1 ≠ rank k) :
    (insert rank k v m).Perm ((k, v) :: m) := by
  induction m with
  | nil => exact List.Perm.refl _
  | cons e m ih =>
    have hne := h e List.mem_cons_self
    rw [insert]
    split
    · exact List.Perm.refl _
    · next hge =>
      rw [if_pos (lt_of_le_of_ne (not_lt.mp hge) hne)]
      exact ((ih fun e he => h e (List.mem_cons_of_mem _ he)).cons e).trans (List.Perm.swap _ _ _)

theorem sorted_insertAll (h : Sorted rank m) : Sorted rank (insertAll rank m entries) := by
  induction entries generalizing m with
  | nil => exact h
  | cons e entries ih => exact ih (sorted_insert h)

theorem mem_insertAll (h : e ∈ insertAll rank m entries) : e ∈ m ∨ e ∈ entries := by
  induction entries generalizing m with
  | nil => exact Or.inl h
  | cons e' entries ih =>
    obtain h | h := ih h
    · exact (mem_insert h).elim (fun heq => Or.inr (heq ▸ List.mem_cons_self)) Or.inl
    · exact Or.inr (List.mem_cons_of_mem _ h)

/-- Entries with distinct new keys are all there afterwards. -/
theorem insertAll_perm (h : ((m ++ entries).map fun e => rank e.1).Nodup) :
    (insertAll rank m entries).Perm (m ++ entries) := by
  induction entries generalizing m with
  | nil =>
    rw [List.append_nil]
    exact List.Perm.refl _
  | cons e entries ih =>
    have hmiddle : (m ++ e :: entries).Perm (e :: m ++ entries) := List.perm_middle
    have hnodup := (hmiddle.map fun e => rank e.1).nodup_iff.mp h
    have hinsert : (insert rank e.1 e.2 m).Perm (e :: m) := by
      refine insert_perm fun e' he' heq => ?_
      rw [List.cons_append, List.map_cons, List.nodup_cons] at hnodup
      refine hnodup.1 ?_
      rw [← heq]
      exact List.mem_map_of_mem (List.mem_append_left _ he')
    have happend := hinsert.append_right entries
    refine (ih ?_).trans (happend.trans hmiddle.symm)
    exact (happend.map fun e : K × V => rank e.1).nodup_iff.mpr hnodup

theorem Sorted.nodup (h : Sorted rank m) : (m.map fun e => rank e.1).Nodup := by
  rw [List.Nodup, List.pairwise_map]
  exact h.imp fun hlt => ne_of_lt hlt

/-- Sorted lists of the same entries are equal. -/
theorem Sorted.eq_of_perm (h : Sorted rank m) (h' : Sorted rank m') (hperm : m.Perm m') :
    m = m' :=
  hperm.eq_of_pairwise (fun _ _ _ _ hlt hgt => absurd hgt (lt_asymm hlt)) h h'

/-- A sorted map is rebuilt from its entries, in any order. -/
theorem insertAll_eq (h : Sorted rank m) (hperm : entries.Perm m) :
    insertAll rank [] entries = m := by
  have hnodup : (([] ++ entries).map fun e : K × V => rank e.1).Nodup :=
    (hperm.map fun e : K × V => rank e.1).nodup_iff.mpr h.nodup
  have hsorted : Sorted rank (insertAll rank [] entries) := sorted_insertAll List.Pairwise.nil
  exact hsorted.eq_of_perm h ((insertAll_perm hnodup).trans hperm)

/-- The order in which distinct keys come is lost. -/
theorem insertAll_eq_of_perm (h : (entries.map fun e => rank e.1).Nodup)
    (hperm : entries'.Perm entries) : insertAll rank [] entries' = insertAll rank [] entries := by
  have hall : (insertAll rank [] entries).Perm entries := insertAll_perm h
  exact insertAll_eq (sorted_insertAll List.Pairwise.nil) (hperm.trans hall.symm)

section Lookup

variable [BEq K] [LawfulBEq K] [DecidableEq K] {k' : K}

theorem lookup_cons_eq :
    List.lookup k' (e :: m) = if k' = e.1 then some e.2 else m.lookup k' := by
  rw [List.lookup_cons]
  by_cases h : k' = e.1
  · simp [h]
  · simp [h, beq_eq_false_iff_ne.mpr h]

/-- Reading a key after an insertion. -/
theorem lookup_insert (hrank : Function.Injective rank) :
    (insert rank k v m).lookup k' = if k' = k then some v else m.lookup k' := by
  induction m with
  | nil => exact lookup_cons_eq
  | cons e m ih =>
    rw [insert]
    split
    · exact lookup_cons_eq
    · next hge =>
      split
      · next hgt =>
        rw [lookup_cons_eq, ih, lookup_cons_eq]
        by_cases h : k' = k
        · have hother : ¬k' = e.1 := fun heq => (ne_of_lt hgt) (by rw [← heq, h])
          rw [if_neg hother, if_pos h, if_pos h]
        · rw [if_neg h, if_neg h]
      · next hle =>
        -- The entry that has the key is replaced.
        have hsame : k = e.1 := hrank (le_antisymm (not_lt.mp hle) (not_lt.mp hge))
        rw [lookup_cons_eq, lookup_cons_eq, ← hsame]
        by_cases h : k' = k
        · rw [if_pos h, if_pos h]
        · rw [if_neg h, if_neg h, if_neg h]

end Lookup

end SortedMap
