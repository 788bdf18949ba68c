import Mathlib.Data.List.AList
import Mathlib.Algebra.BigOperators.Group.List.Basic
import Mathlib.Tactic.Ring

/-!
# Keyed tables

Association lists with distinct keys read as tables with a primary key: point
updates, upserts, deletion by predicate, and integer totals over the rows. The
lookup lemmas are the simp set; the total lemmas give the exact change that one
row operation makes to a total.
-/

/-- A table with primary key `K` and rows `V`. -/
abbrev KeyedTable (K V : Type*) := AList (fun _ : K => V)

namespace AList

variable {K V : Type*} [DecidableEq K]

/-- Change the row of a key, when there is one. -/
def adjust (k : K) (f : V → V) (t : KeyedTable K V) : KeyedTable K V :=
  match t.lookup k with
  | some v => t.insert k (f v)
  | none => t

/-- Insert a row, or change the row that already has the key. -/
def upsert (k : K) (new : V) (f : V → V) (t : KeyedTable K V) : KeyedTable K V :=
  match t.lookup k with
  | some v => t.insert k (f v)
  | none => t.insert k new

omit [DecidableEq K] in
theorem nodupKeys_filter (p : (Σ _ : K, V) → Bool) (t : KeyedTable K V) :
    (t.entries.filter p).NodupKeys :=
  t.nodupKeys.sublist List.filter_sublist

/-- Keep the rows that satisfy a predicate on key and row. -/
def keep (p : K → V → Bool) (t : KeyedTable K V) : KeyedTable K V :=
  ⟨t.entries.filter fun e => p e.1 e.2, nodupKeys_filter _ t⟩

/-- Change every row. -/
def mapRows (f : V → V) (t : KeyedTable K V) : KeyedTable K V :=
  ⟨t.entries.map (.map id fun _ => f), t.nodupKeys.map₂ _ _⟩

/-- The number of rows. -/
def count (t : KeyedTable K V) : Nat := t.entries.length

/-- The sum of a weight over the rows. -/
def total (w : K → V → Int) (t : KeyedTable K V) : Int :=
  (t.entries.map fun e => w e.1 e.2).sum

/-- The weight of the row of one key; an absent row weighs nothing. -/
def weight (w : K → V → Int) (k : K) : Option V → Int
  | some v => w k v
  | none => 0

section Lookup

variable {k k' : K} {v new : V} {f : V → V} {p : K → V → Bool} {t : KeyedTable K V}

theorem lookup_insert_eq :
    (t.insert k v).lookup k' = if k' = k then some v else t.lookup k' := by
  by_cases h : k' = k
  · subst h
    simp
  · simp [h, lookup_insert_ne]

theorem lookup_erase_eq :
    (t.erase k).lookup k' = if k' = k then none else t.lookup k' := by
  by_cases h : k' = k
  · subst h
    simp
  · simp [h, lookup_erase_ne]

/-- Deleting the row just written leaves the table without it. -/
theorem erase_insert_self : (t.insert k v).erase k = t.erase k := by
  apply AList.ext
  show List.kerase k (t.insert k v).entries = List.kerase k t.entries
  rw [entries_insert]
  exact List.kerase_cons_eq rfl

theorem lookup_adjust :
    (t.adjust k f).lookup k' = if k' = k then (t.lookup k).map f else t.lookup k' := by
  rw [adjust]
  cases hk : t.lookup k with
  | some v => simp [lookup_insert_eq]
  | none =>
    by_cases h : k' = k
    · subst h
      simp [hk]
    · simp [h]

theorem lookup_upsert :
    (t.upsert k new f).lookup k' =
      if k' = k then some (((t.lookup k).map f).getD new) else t.lookup k' := by
  rw [upsert]
  cases hk : t.lookup k <;> simp [lookup_insert_eq]

theorem lookup_upsert_const :
    (t.upsert k v fun _ => v).lookup k' = if k' = k then some v else t.lookup k' := by
  rw [lookup_upsert]
  cases t.lookup k <;> rfl

theorem lookup_eq_some_iff : t.lookup k = some v ↔ (⟨k, v⟩ : Σ _ : K, V) ∈ t.entries := by
  rw [← Option.mem_def]
  exact mem_lookup_iff

theorem lookup_keep : (t.keep p).lookup k = (t.lookup k).filter (p k) := by
  apply Option.ext
  intro v
  rw [lookup_eq_some_iff, Option.filter_eq_some_iff, lookup_eq_some_iff]
  simp [keep]

omit [DecidableEq K] in
theorem keep_eq_self (h : ∀ e ∈ t.entries, p e.1 e.2 = true) : t.keep p = t := by
  apply AList.ext
  show t.entries.filter (fun e => p e.1 e.2) = t.entries
  exact List.filter_eq_self.mpr h

omit [DecidableEq K] in
theorem keep_keep {q : K → V → Bool} :
    (t.keep p).keep q = t.keep fun k v => p k v && q k v := by
  apply AList.ext
  show (t.entries.filter fun e => p e.1 e.2).filter (fun e => q e.1 e.2) =
    t.entries.filter fun e => p e.1 e.2 && q e.1 e.2
  rw [List.filter_filter]
  simp only [Bool.and_comm]

omit [DecidableEq K] in
theorem count_keep_le : (t.keep p).count ≤ t.count := List.length_filter_le _ _

theorem lookup_mapRows : (t.mapRows f).lookup k = (t.lookup k).map f := List.dlookup_map₂ k

end Lookup

section Totals

variable {k : K} {v new : V} {f : V → V} {p : K → V → Bool} {w : K → V → Int}

omit [DecidableEq K] in
theorem count_eq_total (t : KeyedTable K V) : (t.count : Int) = t.total fun _ _ => 1 := by
  simp [count, total]

theorem sum_kerase (l : List (Σ _ : K, V)) (k : K) :
    ((l.kerase k).map fun e => w e.1 e.2).sum =
      (l.map fun e => w e.1 e.2).sum - weight w k (l.dlookup k) := by
  induction l with
  | nil => simp [weight]
  | cons e l ih =>
    obtain ⟨a, b⟩ := e
    by_cases h : k = a
    · subst h
      have hl : List.kerase k ((⟨k, b⟩ : Σ _ : K, V) :: l) = l := List.kerase_cons_eq rfl
      simp [hl, weight]
    · have hl : List.kerase k ((⟨a, b⟩ : Σ _ : K, V) :: l) = ⟨a, b⟩ :: l.kerase k :=
        List.kerase_cons_ne h
      have hd : List.dlookup k ((⟨a, b⟩ : Σ _ : K, V) :: l) = l.dlookup k :=
        List.dlookup_cons_ne l ⟨a, b⟩ h
      simp only [hl, hd, List.map_cons, List.sum_cons, ih]
      ring

theorem total_erase (t : KeyedTable K V) :
    (t.erase k).total w = t.total w - weight w k (t.lookup k) :=
  sum_kerase t.entries k

theorem total_insert (t : KeyedTable K V) :
    (t.insert k v).total w = t.total w - weight w k (t.lookup k) + w k v := by
  unfold total
  rw [entries_insert, List.map_cons, List.sum_cons, sum_kerase t.entries k]
  show _ = _ - weight w k (t.entries.dlookup k) + _
  ring

theorem total_upsert (t : KeyedTable K V) :
    (t.upsert k new f).total w =
      t.total w - weight w k (t.lookup k) + w k (((t.lookup k).map f).getD new) := by
  rw [upsert]
  cases hk : t.lookup k <;> simp [total_insert, hk, weight]

theorem count_insert_of_some {t : KeyedTable K V} {u : V} (h : t.lookup k = some u) :
    (t.insert k v).count = t.count := by
  have ht := total_insert (k := k) (v := v) (w := fun _ _ => 1) t
  rw [h, ← count_eq_total, ← count_eq_total] at ht
  simp only [weight] at ht
  omega

theorem count_insert_of_none {t : KeyedTable K V} (h : t.lookup k = none) :
    (t.insert k v).count = t.count + 1 := by
  have ht := total_insert (k := k) (v := v) (w := fun _ _ => 1) t
  rw [h, ← count_eq_total, ← count_eq_total] at ht
  simp only [weight] at ht
  omega

omit [DecidableEq K] in
theorem count_eq_zero_of_keys {t : KeyedTable K V} (h : t.keys = []) : t.count = 0 := by
  have hentries : t.entries = [] := List.map_eq_nil_iff.mp h
  rw [count, hentries]
  rfl

theorem count_erase_le (t : KeyedTable K V) (k : K) : (t.erase k).count ≤ t.count :=
  (List.kerase_sublist k t.entries).length_le

theorem count_erase_of_some {t : KeyedTable K V} (h : t.lookup k = some v) :
    (t.erase k).count + 1 = t.count := by
  have ht := total_erase (k := k) (w := fun _ _ => 1) t
  rw [h, ← count_eq_total, ← count_eq_total] at ht
  simp only [weight] at ht
  omega

omit [DecidableEq K] in
theorem countP_eq_total (t : KeyedTable K V) (p : V → Bool) :
    ((t.entries.countP fun e => p e.2 : Nat) : Int) = t.total fun _ v => if p v then 1 else 0 := by
  rw [total]
  induction t.entries with
  | nil => rfl
  | cons e l ih =>
    rw [List.countP_cons, List.map_cons, List.sum_cons, ← ih]
    cases p e.2
    · simp
    · simp [Int.add_comm]

end Totals

end AList
