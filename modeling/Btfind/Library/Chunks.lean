import Mathlib.Data.List.Defs
import Mathlib.Data.List.Basic

/-!
# Lists in chunks

A list cut into chunks is the list again when the chunks are joined, so a fold
over the chunks that folds over each chunk is the fold over the list.
-/

namespace List

variable {α β : Type*}

/-- A way to cut lists into chunks. -/
structure Cut (α : Type*) where
  chunks : List α → List (List α)
  flatten_chunks : ∀ xs, (chunks xs).flatten = xs

theorem toChunks_go_flatten (n : Nat) (xs : List α) (acc : Array α) (done : Array (List α)) :
    (toChunks.go n xs acc done).flatten = done.toList.flatten ++ acc.toList ++ xs := by
  induction xs generalizing acc done with
  | nil => simp [toChunks.go]
  | cons x xs ih =>
    rw [toChunks.go]
    split <;> simp [ih]

theorem toChunks_flatten (n : Nat) (xs : List α) : (xs.toChunks n).flatten = xs := by
  match n, xs with
  | _, [] => simp [toChunks]
  | 0, x :: xs => simp [toChunks]
  | n + 1, x :: xs => simp [toChunks, toChunks_go_flatten]

/-- Chunks of `n`; the last one may be shorter. -/
def Cut.every (n : Nat) : Cut α := ⟨toChunks n, toChunks_flatten n⟩

/-- A fold whose step joins two chunks into one is a single step on the whole list. The step may
need something of the list that its parts inherit. -/
theorem foldl_chunks {step : β → List α → β} (good : List α → Prop)
    (hnil : ∀ b, step b [] = b)
    (happend : ∀ b xs ys, good (xs ++ ys) → step (step b xs) ys = step b (xs ++ ys))
    (hright : ∀ xs ys, good (xs ++ ys) → good ys) {chunks : List (List α)}
    (h : good chunks.flatten) (b : β) : chunks.foldl step b = step b chunks.flatten := by
  induction chunks generalizing b with
  | nil => exact (hnil b).symm
  | cons chunk chunks ih =>
    rw [foldl_cons, ih (hright _ _ h), flatten_cons]
    exact happend b chunk chunks.flatten h

end List
