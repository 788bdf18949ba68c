import Mathlib.Data.List.Induction
import Mathlib.Data.List.Nodup

/-!
# Newcomers

The elements of a list that are seen for the first time: their key is not among some known keys
and no earlier element has it. An element added at the end of the list changes them at the end
only.
-/

namespace Newcomers

variable {α κ : Type*} [DecidableEq κ] {key : α → κ} {known : List κ} {l l' : List α} {a : α}

/-- The elements whose key is neither known nor earlier in the list, in the order of the list. -/
def newcomers (key : α → κ) (known : List κ) (l : List α) : List α :=
  (l.zipIdx.filter fun e => key e.1 ∉ known ∧ key e.1 ∉ (l.take e.2).map key).map Prod.fst

/-- Which elements of a list are new does not depend on what follows them. -/
theorem newcomers_snoc : newcomers key known (l ++ [a]) =
    newcomers key known l ++ if key a ∈ known ∨ key a ∈ l.map key then [] else [a] := by
  have hold : ∀ e ∈ l.zipIdx, (l ++ [a]).take e.2 = l.take e.2 := by
    intro e he
    have hlt := List.snd_lt_of_mem_zipIdx he
    exact List.take_append_of_le_length (by omega)
  rw [newcomers]
  rw [List.zipIdx_append, List.filter_append, List.map_append]
  congr 1
  · congr 1
    apply List.filter_congr
    intro e he
    rw [hold e he]
  · have hlast : (l ++ [a]).take l.length = l := List.take_left
    simp only [List.zipIdx_singleton, Nat.zero_add, List.filter_singleton, hlast]
    by_cases h : key a ∈ known ∨ key a ∈ l.map key
    · rw [if_pos h, decide_eq_false (by tauto)]
      rfl
    · rw [if_neg h, decide_eq_true (by tauto)]
      rfl

theorem newcomers_snoc_of_seen (h : key a ∈ known ∨ key a ∈ l.map key) :
    newcomers key known (l ++ [a]) = newcomers key known l := by
  rw [newcomers_snoc, if_pos h, List.append_nil]

theorem newcomers_snoc_of_new (h : ¬(key a ∈ known ∨ key a ∈ l.map key)) :
    newcomers key known (l ++ [a]) = newcomers key known l ++ [a] := by
  rw [newcomers_snoc, if_neg h]

theorem newcomers_prefix : newcomers key known l <+: newcomers key known (l ++ l') := by
  induction l' using List.reverseRecOn with
  | nil => exact ⟨[], by rw [List.append_nil, List.append_nil]⟩
  | append_singleton l' a ih =>
    rw [← List.append_assoc, newcomers_snoc]
    exact ih.trans (List.prefix_append _ _)

end Newcomers
