import Btfind.Library.Paging

/-!
# Retention

Rows with distinct keys, each with a stamp. Some keys are stamped anew, and then the first rows
of an order stay. What is left does not depend on the order in which a table lists its rows.
-/

namespace Retention

open Paging

variable {κ τ : Type*} [DecidableEq κ] {stamp : κ → τ} {keys : List κ} {rows rows' : List (κ × τ)}

/-- The rows after some keys have been stamped. -/
def overlay (stamp : κ → τ) (keys : List κ) (rows : List (κ × τ)) : List (κ × τ) :=
  (rows.filter fun row => row.1 ∉ keys) ++ keys.map fun key => (key, stamp key)

theorem mem_overlay {key : κ} {t : τ} : (key, t) ∈ overlay stamp keys rows ↔
    if key ∈ keys then t = stamp key else (key, t) ∈ rows := by
  rw [overlay, List.mem_append, List.mem_filter, List.mem_map]
  by_cases hkey : key ∈ keys
  · rw [if_pos hkey]
    constructor
    · rintro (⟨-, hout⟩ | ⟨other, -, heq⟩)
      · exact absurd hkey (of_decide_eq_true hout)
      · cases heq
        rfl
    · rintro rfl
      exact Or.inr ⟨key, hkey, rfl⟩
  · rw [if_neg hkey]
    constructor
    · rintro (⟨hrow, -⟩ | ⟨other, hother, heq⟩)
      · exact hrow
      · cases heq
        exact absurd hother hkey
    · intro hrow
      exact Or.inl ⟨hrow, decide_eq_true hkey⟩

theorem nodup_keys_overlay (hrows : (rows.map Prod.fst).Nodup) (hkeys : keys.Nodup) :
    ((overlay stamp keys rows).map Prod.fst).Nodup := by
  have hnew : (keys.map fun key => (key, stamp key)).map Prod.fst = keys := by
    rw [List.map_map]
    exact List.map_id' keys
  rw [overlay, List.map_append, hnew, List.nodup_append']
  refine ⟨hrows.sublist (List.filter_sublist.map _), hkeys, ?_⟩
  intro key hold hkey
  obtain ⟨row, hrow, rfl⟩ := List.mem_map.mp hold
  exact of_decide_eq_true (List.mem_filter.mp hrow).2 hkey

theorem overlay_perm {keys' : List κ} (hperm : keys.Perm keys') :
    (overlay stamp keys rows).Perm (overlay stamp keys' rows) := by
  refine List.Perm.append ?_ (hperm.map _)
  have hsame : ∀ row ∈ rows, decide (row.1 ∉ keys) = decide (row.1 ∉ keys') :=
    fun row _ => decide_eq_decide.mpr (not_congr hperm.mem_iff)
  rw [List.filter_congr hsame]

/-- Every key that is stamped has a row; those that had one before are not counted twice. -/
theorem length_overlay : (overlay stamp keys rows).length +
    (rows.filter fun row => row.1 ∈ keys).length = rows.length + keys.length := by
  have hsplit := List.length_eq_length_filter_add (fun row => decide (row.1 ∈ keys)) (l := rows)
  simp only [← decide_not] at hsplit
  rw [overlay, List.length_append, List.length_map]
  omega

/-- Deleting by key takes out exactly the rows that have the keys. -/
theorem filter_keys_append (hkeys : ((rows ++ rows').map Prod.fst).Nodup) :
    ((rows ++ rows').filter fun row => row.1 ∉ rows'.map Prod.fst) = rows := by
  rw [List.map_append, List.nodup_append'] at hkeys
  have hstay : (rows.filter fun row => row.1 ∉ rows'.map Prod.fst) = rows := by
    rw [List.filter_eq_self]
    intro row hrow
    exact decide_eq_true fun hout => hkeys.2.2 (List.mem_map_of_mem hrow) hout
  have hgone : (rows'.filter fun row => row.1 ∉ rows'.map Prod.fst) = [] := by
    rw [List.filter_eq_nil_iff]
    intro row hrow hout
    exact of_decide_eq_true hout (List.mem_map_of_mem hrow)
  rw [List.filter_append, hstay, hgone, List.append_nil]

section Order

variable {O : Type*} [LinearOrder O] {rank : κ × τ → O} {limit : Nat}

omit [DecidableEq κ] in
/-- The rows of an order are the same however a table lists them. -/
theorem inOrder_perm (hrank : Function.Injective rank) (hrows : rows.Nodup)
    (hperm : rows.Perm rows') : inOrder rank rows = inOrder rank rows' := by
  refine (ascending_inOrder hrank hrows).ext
    (ascending_inOrder hrank (hperm.nodup_iff.mp hrows)) fun row => ?_
  rw [mem_inOrder, mem_inOrder]
  exact hperm.mem_iff

/-- Deleting the rows under the last keys leaves the first rows. -/
theorem filter_dropped_perm (hrows : (rows.map Prod.fst).Nodup) :
    (rows.filter fun row => row.1 ∉ ((inOrder rank rows).map Prod.fst).drop limit).Perm
      ((inOrder rank rows).take limit) := by
  have hsorted : (inOrder rank rows).Perm rows := List.perm_insertionSort _ _
  have hkeys : ((inOrder rank rows).map Prod.fst).Nodup := (hsorted.map _).nodup_iff.mpr hrows
  refine (hsorted.symm.filter _).trans ?_
  -- The ordered rows are the first ones and then the dropped ones.
  generalize inOrder rank rows = ordered at hkeys
  rw [← List.map_drop]
  have hkept : ((ordered.take limit ++ ordered.drop limit).filter fun row =>
      row.1 ∉ (ordered.drop limit).map Prod.fst) = ordered.take limit :=
    filter_keys_append (by rwa [List.take_append_drop])
  rw [List.take_append_drop] at hkept
  rw [hkept]

end Order

end Retention
