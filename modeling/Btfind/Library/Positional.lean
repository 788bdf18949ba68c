import Mathlib.Data.List.Induction
import Mathlib.Tactic.Ring

/-!
# Positional notation

Numbers written with a fixed number of digits, the most significant first.
-/

namespace Positional

/-- The number that the digits stand for. -/
def value (b : Nat) (ds : List Nat) : Nat := ds.foldl (fun acc d => acc * b + d) 0

/-- The last `k` digits of a number. -/
def digits (b k n : Nat) : List Nat := (List.range k).map fun i => n / b ^ (k - 1 - i) % b

variable {b k n d : Nat} {ds : List Nat}

@[simp] theorem length_digits : (digits b k n).length = k := by
  rw [digits, List.length_map, List.length_range]

theorem digit_lt (hb : 0 < b) (h : d ∈ digits b k n) : d < b := by
  obtain ⟨i, -, rfl⟩ := List.mem_map.mp h
  exact Nat.mod_lt _ hb

theorem value_concat : value b (ds ++ [d]) = value b ds * b + d := by
  rw [value, value, List.foldl_append, List.foldl_cons, List.foldl_nil]

theorem digits_succ : digits b (k + 1) n = digits b k (n / b) ++ [n % b] := by
  rw [digits, List.range_succ, List.map_append, List.map_singleton, digits]
  have hlast : n / b ^ (k + 1 - 1 - k) % b = n % b := by simp
  rw [hlast]
  refine congrArg (· ++ [n % b]) (List.map_congr_left fun i hi => ?_)
  have hexp : k + 1 - 1 - i = (k - 1 - i) + 1 := by
    have := List.mem_range.mp hi
    omega
  rw [hexp, Nat.pow_succ', Nat.div_div_eq_div_mul]

theorem value_digits : value b (digits b k n) = n % b ^ k := by
  induction k generalizing n with
  | zero => simp [digits, value, Nat.mod_one]
  | succ k ih => rw [digits_succ, value_concat, ih, Nat.pow_succ', Nat.mod_mul]; ring

theorem value_lt (h : ∀ d ∈ ds, d < b) : value b ds < b ^ ds.length := by
  induction ds using List.reverseRecOn with
  | nil => simp [value]
  | append_singleton ds d ih =>
    have hd := h d (by simp)
    have hds := ih fun e he => h e (by simp [he])
    rw [value_concat, List.length_append, List.length_singleton, Nat.pow_succ]
    calc value b ds * b + d < value b ds * b + b := by omega
      _ = (value b ds + 1) * b := by ring
      _ ≤ b ^ ds.length * b := Nat.mul_le_mul_right b hds

/-- A number is written with the digits that it was read from. -/
theorem digits_value (h : ∀ d ∈ ds, d < b) : digits b ds.length (value b ds) = ds := by
  induction ds using List.reverseRecOn with
  | nil => rfl
  | append_singleton ds d ih =>
    have hd := h d (by simp)
    have hquot : (value b ds * b + d) / b = value b ds := by
      rw [Nat.mul_comm, Nat.mul_add_div (by omega), Nat.div_eq_of_lt hd, Nat.add_zero]
    have hrem : (value b ds * b + d) % b = d := by
      rw [Nat.mul_comm, Nat.mul_add_mod, Nat.mod_eq_of_lt hd]
    rw [List.length_append, List.length_singleton, digits_succ, value_concat, hquot, hrem,
      ih fun e he => h e (by simp [he])]

end Positional
