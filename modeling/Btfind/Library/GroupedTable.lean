import Btfind.Library.KeyedTable

/-!
# Grouped tables

A table with one row for each group of a list, where the row is a summary of the group: how it
follows the list as items are added, and how totals over the rows are totals over the items.
-/

namespace GroupedTable

variable {α K V : Type*} [DecidableEq K]

/-- The items of one key, in their order. -/
def group (key : α → K) (k : K) (xs : List α) : List α := xs.filter fun x => key x = k

/-- The rows are the summaries of the groups that have items. -/
def Grouped (key : α → K) (summary : List α → V) (xs : List α) (t : KeyedTable K V) : Prop :=
  ∀ k, t.lookup k = if group key k xs = [] then none else some (summary (group key k xs))

variable {key : α → K} {summary : List α → V} {xs : List α} {x : α} {t : KeyedTable K V} {k : K}
  {v new : V} {add : V → V}

theorem group_concat_self : group key (key x) (xs ++ [x]) = group key (key x) xs ++ [x] := by
  simp [group]

theorem group_concat_of_ne (h : k ≠ key x) : group key k (xs ++ [x]) = group key k xs := by
  simp [group, Ne.symm h]

theorem grouped_nil : Grouped key summary [] (∅ : KeyedTable K V) := fun _ => rfl

/-- An item changes the row of its group, or it opens the group. -/
theorem Grouped.concat (h : Grouped key summary xs t) (hnew : new = summary [x])
    (hadd : group key (key x) xs ≠ [] →
      add (summary (group key (key x) xs)) = summary (group key (key x) xs ++ [x])) :
    Grouped key summary (xs ++ [x]) (t.upsert (key x) new add) := by
  intro k
  rw [AList.lookup_upsert]
  by_cases hk : k = key x
  · subst hk
    rw [if_pos rfl, group_concat_self, if_neg (by simp), h (key x)]
    by_cases hempty : group key (key x) xs = []
    · simp [hempty, hnew]
    · simp [hempty, hadd hempty]
  · rw [if_neg hk, group_concat_of_ne hk, h k]

theorem Grouped.mem_entries (h : Grouped key summary xs t) :
    (⟨k, v⟩ : Σ _ : K, V) ∈ t.entries ↔
      group key k xs ≠ [] ∧ v = summary (group key k xs) := by
  rw [← AList.lookup_eq_some_iff, h k]
  by_cases hempty : group key k xs = []
  · simp [hempty]
  · simp [hempty, eq_comm]

theorem sum_ite_of_mem {ks : List K} {n : Nat} (hks : ks.Nodup) (hk : k ∈ ks) :
    (ks.map fun k' => if k = k' then n else 0).sum = n := by
  induction ks with
  | nil => cases hk
  | cons k' ks ih =>
    obtain ⟨hout, hks⟩ := List.nodup_cons.mp hks
    rw [List.map_cons, List.sum_cons]
    by_cases heq : k = k'
    · subst heq
      have hzero : (ks.map fun k' => if k = k' then n else 0).sum = 0 := by
        rw [List.sum_eq_zero]
        intro m hm
        obtain ⟨k', hk', rfl⟩ := List.mem_map.mp hm
        rw [if_neg]
        rintro rfl
        exact hout hk'
      rw [if_pos rfl, hzero, Nat.add_zero]
    · rw [if_neg heq, ih hks ((List.mem_cons.mp hk).resolve_left heq), Nat.zero_add]

/-- The groups of distinct keys that cover a list have its items. -/
theorem sum_groups {ks : List K} (g : α → Nat) (hks : ks.Nodup) (hcover : ∀ x ∈ xs, key x ∈ ks) :
    (ks.map fun k => ((group key k xs).map g).sum).sum = (xs.map g).sum := by
  induction xs with
  | nil => simp [group]
  | cons x xs ih =>
    have hstep : ∀ k, ((group key k (x :: xs)).map g).sum =
        (if key x = k then g x else 0) + ((group key k xs).map g).sum := by
      intro k
      by_cases hk : key x = k
      · simp [group, hk]
      · simp [group, hk]
    simp only [hstep]
    rw [List.sum_map_add, sum_ite_of_mem hks (hcover x List.mem_cons_self),
      ih fun y hy => hcover y (List.mem_cons_of_mem _ hy), List.map_cons, List.sum_cons]

/-- A total over the rows is the total over the items. -/
theorem Grouped.sum_eq (h : Grouped key summary xs t) {f : V → Nat} {g : α → Nat}
    (hf : ∀ ys, f (summary ys) = (ys.map g).sum) :
    (t.entries.map fun e => f e.2).sum = (xs.map g).sum := by
  have hrows : t.entries.map (fun e => f e.2) =
      t.keys.map fun k => ((group key k xs).map g).sum := by
    rw [AList.keys, List.keys, List.map_map]
    refine List.map_congr_left fun e he => ?_
    obtain ⟨-, hrow⟩ := h.mem_entries.mp he
    rw [hrow, hf]
    rfl
  rw [hrows, sum_groups g t.keys_nodup]
  intro x hx
  rw [← AList.mem_keys, ← AList.lookup_isSome, h (key x), if_neg]
  · rfl
  · exact List.ne_nil_of_mem (List.mem_filter.mpr ⟨hx, decide_eq_true rfl⟩)

end GroupedTable
