import Mathlib.Data.List.Basic
import Mathlib.Tactic.Common

/-!
# Offset pages

A list that is read in pages of a limit at an offset. A page fetches one row more than it holds,
which tells whether there is a next one. A reader that follows the pages reads every row once.
-/

namespace OffsetPages

variable {α β : Type*}

structure Page (α : Type*) where
  rows : List α
  hasNext : Bool
  deriving DecidableEq

/-- `LIMIT fetched OFFSET offset`, cut to the limit. -/
def pageOf (fetched limit offset : Nat) (rows : List α) : Page α :=
  let results := (rows.drop offset).take fetched
  ⟨results.take limit, decide (limit < results.length)⟩

variable {rows : List α} {fetched limit offset : Nat}

theorem pageOf_rows (h : limit < fetched) :
    (pageOf fetched limit offset rows).rows = (rows.drop offset).take limit := by
  rw [pageOf, List.take_take, Nat.min_eq_left (Nat.le_of_lt h)]

theorem pageOf_hasNext (h : limit < fetched) :
    (pageOf fetched limit offset rows).hasNext = true ↔ offset + limit < rows.length := by
  rw [pageOf, decide_eq_true_iff, List.length_take, List.length_drop]
  omega

theorem pageOf_hasNext_eq (h : limit < fetched) :
    (pageOf fetched limit offset rows).hasNext = decide (offset + limit < rows.length) := by
  rw [Bool.eq_iff_iff, pageOf_hasNext h, decide_eq_true_iff]

/-! ## Following the pages -/

/-- The pages from an offset on, one request after the other, as long as there is a next one. The
server may hold less on a page than it is asked for, so the next offset is the one after the page
that it reports. -/
inductive Follows (ask : Nat → Option (Nat × Page α)) : Nat → List (Page α) → Prop
  | last {offset limit : Nat} {p : Page α} :
      ask offset = some (limit, p) → p.hasNext = false → Follows ask offset [p]
  | next {offset limit : Nat} {p : Page α} {ps : List (Page α)} :
      ask offset = some (limit, p) → p.hasNext = true → Follows ask (offset + limit) ps →
        Follows ask offset (p :: ps)

variable {ask : Nat → Option (Nat × Page α)} {ps : List (Page α)}

/-- The server answers each offset within the rows with the page of a fixed limit there. -/
def Serves (ask : Nat → Option (Nat × Page α)) (limit : Nat) (rows : List α) : Prop :=
  ∀ offset ≤ rows.length, ∃ p, ask offset = some (limit, p) ∧
    p.rows = (rows.drop offset).take limit ∧
    (p.hasNext = true ↔ offset + limit < rows.length)

theorem Serves.page {shown : Nat} {p : Page α} (hserves : Serves ask limit rows)
    (hoffset : offset ≤ rows.length) (hask : ask offset = some (shown, p)) :
    limit = shown ∧ p.rows = (rows.drop offset).take limit ∧
      (p.hasNext = true ↔ offset + limit < rows.length) := by
  obtain ⟨q, hq, hrows, hmore⟩ := hserves offset hoffset
  obtain ⟨hlimit, rfl⟩ := Prod.mk.inj (Option.some.inj (hq.symm.trans hask))
  exact ⟨hlimit, hrows, hmore⟩

/-- Whoever follows the pages has read every row from the first offset on. -/
theorem Follows.rows_eq (hserves : Serves ask limit rows) (h : Follows ask offset ps)
    (hoffset : offset ≤ rows.length) : ps.flatMap Page.rows = rows.drop offset := by
  induction h with
  | @last offset _ p hask hnext =>
    obtain ⟨rfl, hrows, hmore⟩ := hserves.page hoffset hask
    have hend : rows.length ≤ offset + limit := by simpa [hnext] using hmore
    rw [List.flatMap_singleton, hrows, List.take_of_length_le]
    rw [List.length_drop]
    omega
  | @next offset _ p ps hask hnext _ ih =>
    obtain ⟨rfl, hrows, hmore⟩ := hserves.page hoffset hask
    rw [List.flatMap_cons, ih (Nat.le_of_lt (hmore.mp hnext)), hrows, ← List.drop_drop,
      List.take_append_drop]

/-- As many pages as the rows fill, and at least one. -/
theorem Follows.length_eq (hserves : Serves ask limit rows) (hlimit : 0 < limit)
    (h : Follows ask offset ps) (hoffset : offset ≤ rows.length) :
    ps.length = max 1 ((rows.length - offset + limit - 1) / limit) := by
  induction h with
  | @last offset _ p hask hnext =>
    obtain ⟨rfl, -, hmore⟩ := hserves.page hoffset hask
    have hend : rows.length ≤ offset + limit := by simpa [hnext] using hmore
    have hone : (rows.length - offset + limit - 1) / limit < 2 := by
      rw [Nat.div_lt_iff_lt_mul hlimit]
      omega
    rw [List.length_singleton]
    omega
  | @next offset _ p ps hask hnext _ ih =>
    obtain ⟨rfl, -, hmore⟩ := hserves.page hoffset hask
    have hin := hmore.mp hnext
    have hsplit : rows.length - offset + limit - 1 =
        (rows.length - (offset + limit) + limit - 1) + limit := by omega
    have hpos : 0 < (rows.length - (offset + limit) + limit - 1) / limit := by
      apply Nat.div_pos _ hlimit
      omega
    rw [List.length_cons, ih (Nat.le_of_lt hin), hsplit, Nat.add_div_right _ hlimit]
    omega

/-- Following the pages comes to an end. -/
theorem exists_follows (hserves : Serves ask limit rows) (hlimit : 0 < limit)
    (hoffset : offset ≤ rows.length) : ∃ ps, Follows ask offset ps := by
  -- Every page before the last one brings the offset closer to the end of the rows.
  induction hleft : rows.length - offset using Nat.strongRecOn generalizing offset with
  | ind left ih =>
    obtain ⟨p, hask, -, hmore⟩ := hserves offset hoffset
    cases hnext : p.hasNext with
    | false => exact ⟨[p], .last hask hnext⟩
    | true =>
      have hin := hmore.mp hnext
      obtain ⟨ps, hps⟩ := ih (rows.length - (offset + limit)) (by omega) (Nat.le_of_lt hin) rfl
      exact ⟨p :: ps, .next hask hnext hps⟩

/-- A list read by its pages from the start. -/
theorem Follows.flatten (hserves : Serves ask limit rows) (h : Follows ask 0 ps) :
    ps.flatMap Page.rows = rows := by
  rw [h.rows_eq hserves (Nat.zero_le _), List.drop_zero]

/-- A server that cuts every page out of one list. -/
theorem serves_pageOf (hfetched : limit < fetched)
    (h : ∀ offset ≤ rows.length, ask offset = some (limit, pageOf fetched limit offset rows)) :
    Serves ask limit rows :=
  fun offset hoffset =>
    ⟨_, h offset hoffset, pageOf_rows hfetched, pageOf_hasNext hfetched⟩

end OffsetPages
