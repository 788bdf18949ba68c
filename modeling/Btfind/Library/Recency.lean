import Mathlib.Data.List.Nodup

/-!
# Recency lists

A short list of items under distinct keys, each with the time at which it expires. An item
that is remembered goes to the end, in place of the one with its key; when there is no room
the front is dropped. As every item lives equally long, the list stays in the order of expiry.
-/

namespace Recency

variable {α κ : Type*} [DecidableEq κ] {key : α → κ} {expiry : α → Nat} {limit bound bound' : Nat}
  {l l' : List α} {a b : α}

omit [DecidableEq κ] in
/-- Few items under distinct keys, in the order of their expiry, none of which is far. -/
structure Ordered (key : α → κ) (expiry : α → Nat) (limit bound : Nat) (l : List α) : Prop where
  few : l.length ≤ limit
  distinct : l.Pairwise fun a b => key a ≠ key b
  ordered : l.Pairwise fun a b => expiry a ≤ expiry b
  bounded : ∀ a ∈ l, expiry a ≤ bound

/-- The items under other keys, without the front if there would be no room. -/
def others (key : α → κ) (limit : Nat) (a : α) (l : List α) : List α :=
  let rest := l.filter fun b => key b ≠ key a
  if limit ≤ rest.length then rest.tail else rest

def remember (key : α → κ) (limit : Nat) (a : α) (l : List α) : List α :=
  others key limit a l ++ [a]

omit [DecidableEq κ] in
theorem ordered_nil : Ordered key expiry limit bound [] := ⟨Nat.zero_le _, .nil, .nil, nofun⟩

omit [DecidableEq κ] in
theorem Ordered.mono (h : Ordered key expiry limit bound l) (hbound : bound ≤ bound') :
    Ordered key expiry limit bound' l :=
  ⟨h.few, h.distinct, h.ordered, fun a ha => Nat.le_trans (h.bounded a ha) hbound⟩

omit [DecidableEq κ] in
theorem Ordered.sublist (h : Ordered key expiry limit bound l) (hsub : l'.Sublist l) :
    Ordered key expiry limit bound l' :=
  ⟨Nat.le_trans hsub.length_le h.few, h.distinct.sublist hsub, h.ordered.sublist hsub,
    fun a ha => h.bounded a (hsub.subset ha)⟩

theorem others_sublist (key : α → κ) (limit : Nat) (a : α) (l : List α) :
    (others key limit a l).Sublist (l.filter fun b => key b ≠ key a) := by
  rw [others]
  split
  · exact List.tail_sublist _
  · exact List.Sublist.refl _

theorem key_ne_of_mem_others (h : b ∈ others key limit a l) : key b ≠ key a :=
  of_decide_eq_true (List.mem_filter.mp ((others_sublist key limit a l).subset h)).2

/-- There is room for one more. -/
theorem length_others (hlimit : 0 < limit) (hfew : l.length ≤ limit) :
    (others key limit a l).length < limit := by
  have hrest : (l.filter fun b => key b ≠ key a).length ≤ limit :=
    Nat.le_trans (List.length_filter_le _ _) hfew
  rw [others]
  split
  · rw [List.length_tail]
    omega
  · next hroom => exact Nat.not_le.mp hroom

theorem mem_remember (h : b ∈ remember key limit a l) : b ∈ l ∨ b = a := by
  obtain h | h := List.mem_append.mp h
  · exact Or.inl (List.mem_of_mem_filter ((others_sublist key limit a l).subset h))
  · exact Or.inr (List.mem_singleton.mp h)

theorem remember_ne_nil : remember key limit a l ≠ [] :=
  List.append_ne_nil_of_right_ne_nil _ (List.cons_ne_nil a [])

/-- What is remembered last expires last. -/
theorem Ordered.remember (h : Ordered key expiry limit bound l) (hlimit : 0 < limit)
    (hbound : bound ≤ expiry a) :
    Ordered key expiry limit (expiry a) (remember key limit a l) := by
  have hothers := (h.sublist ((others_sublist key limit a l).trans List.filter_sublist)).mono hbound
  refine ⟨?_, ?_, ?_, ?_⟩
  · rw [Recency.remember, List.length_append, List.length_singleton]
    exact length_others hlimit h.few
  · refine List.pairwise_append.mpr ⟨hothers.distinct, List.pairwise_singleton _ _, ?_⟩
    intro b hb c hc
    rw [List.mem_singleton.mp hc]
    exact key_ne_of_mem_others hb
  · refine List.pairwise_append.mpr ⟨hothers.ordered, List.pairwise_singleton _ _, ?_⟩
    intro b hb c hc
    rw [List.mem_singleton.mp hc]
    exact hothers.bounded b hb
  · intro b hb
    obtain hb | hb := List.mem_append.mp hb
    · exact hothers.bounded b hb
    · cases List.mem_singleton.mp hb
      exact Nat.le_refl _

end Recency
