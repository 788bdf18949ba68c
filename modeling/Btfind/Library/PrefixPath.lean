import Mathlib.Data.List.Count
import Mathlib.Data.List.Range
import Mathlib.Data.List.Perm.Basic

/-!
# Bit prefixes and the partitions of a split path

A prefix stands for the words that start with it. Starting from the empty prefix
and splitting, again and again, the part that contains a fixed word gives a
partition of all words, in which every part is on the path of that word or next
to it.
-/

namespace PrefixPath

variable {w : Nat}

/-- The words whose first `len` bits are those of `bits`. -/
structure Prefix (w : Nat) where
  bits : BitVec w
  len : Nat
  deriving DecidableEq

namespace Prefix

def contains (p : Prefix w) (x : BitVec w) : Bool :=
  (List.range p.len).all fun bit => p.bits.getMsbD bit == x.getMsbD bit

/-- The prefix followed by a zero. -/
def left (p : Prefix w) : Prefix w := ⟨p.bits, p.len + 1⟩

/-- The prefix followed by a one. -/
def right (p : Prefix w) : Prefix w := ⟨p.bits ||| BitVec.twoPow w (w - 1 - p.len), p.len + 1⟩

/-- The bits after the prefix are zero. -/
def Padded (p : Prefix w) : Prop := ∀ bit, p.len ≤ bit → p.bits.getMsbD bit = false

variable {p : Prefix w} {x : BitVec w}

theorem contains_iff : p.contains x = true ↔
    ∀ bit, bit < p.len → p.bits.getMsbD bit = x.getMsbD bit := by
  simp [contains]

theorem right_getMsbD (hlen : p.len < w) (bit : Nat) :
    p.right.bits.getMsbD bit = (p.bits.getMsbD bit || decide (bit = p.len)) := by
  rw [right, BitVec.getMsbD_or, BitVec.getMsbD_twoPow]
  congr 1
  rw [← Bool.decide_and, decide_eq_decide]
  omega

theorem Padded.left (hp : p.Padded) : p.left.Padded :=
  fun bit hbit => hp bit (Nat.le_of_succ_le hbit)

theorem Padded.right (hp : p.Padded) (hlen : p.len < w) : p.right.Padded := by
  intro bit hbit
  have hlt : p.len < bit := hbit
  rw [right_getMsbD hlen, hp bit (le_of_lt hlt)]
  simp
  omega

theorem left_contains (hp : p.Padded) :
    p.left.contains x = (p.contains x && !x.getMsbD p.len) := by
  simp only [contains, left, List.range_succ, List.all_append, List.all_cons, List.all_nil,
    Bool.and_true, hp p.len (le_refl _), Bool.false_beq]

theorem right_contains (hlen : p.len < w) :
    p.right.contains x = (p.contains x && x.getMsbD p.len) := by
  rw [Bool.eq_iff_iff, Bool.and_eq_true, contains_iff, contains_iff]
  have hbit : ∀ bit, bit < p.len → p.right.bits.getMsbD bit = p.bits.getMsbD bit := by
    intro bit hbit
    rw [right_getMsbD hlen]
    simp
    omega
  have hlast : p.right.bits.getMsbD p.len = true := by simp [right_getMsbD hlen]
  constructor
  · intro h
    refine ⟨fun bit hb => ?_, ?_⟩
    · rw [← hbit bit hb]
      exact h bit (Nat.lt_succ_of_lt hb)
    · rw [← h p.len (Nat.lt_succ_self _), hlast]
  · rintro ⟨h, hx⟩ bit hb
    obtain hb | rfl := Nat.lt_succ_iff_lt_or_eq.mp hb
    · rw [hbit bit hb]
      exact h bit hb
    · rw [hlast, hx]

/-- Each word of a prefix is in one of its halves. -/
theorem halves (hp : p.Padded) (hlen : p.len < w) (x : BitVec w) :
    (if p.left.contains x then 1 else 0) + (if p.right.contains x then 1 else 0) =
      if p.contains x then 1 else 0 := by
  rw [left_contains hp, right_contains hlen]
  cases p.contains x <;> cases x.getMsbD p.len <;> rfl

end Prefix

open Prefix

/-- The partitions that `depth` splits along the path of `x` can give. -/
inductive SplitPath (x : BitVec w) : Nat → List (Prefix w) → Prop
  | root : SplitPath x 0 [⟨0, 0⟩]
  | split {depth : Nat} {before after : List (Prefix w)} {p : Prefix w}
      (h : SplitPath x depth (before ++ p :: after)) (hx : p.contains x = true)
      (hlen : p.len < w) :
      SplitPath x (depth + 1) (before ++ p.left :: p.right :: after)

/-- The lengths of the parts after `depth` splits. -/
def pathLengths : Nat → List Nat
  | 0 => [0]
  | depth + 1 => (depth + 1) :: List.range' 1 (depth + 1)

namespace SplitPath

variable {x y : BitVec w} {depth : Nat} {ps : List (Prefix w)}

theorem padded (h : SplitPath x depth ps) : ∀ p ∈ ps, p.Padded := by
  induction h with
  | root =>
    intro p hp
    rw [List.mem_singleton.mp hp]
    intro bit _
    exact BitVec.getMsbD_zero
  | @split depth before after q _ _ hlen ih =>
    intro p hp
    have hq : q.Padded := ih q (by simp)
    simp only [List.mem_append, List.mem_cons] at hp
    obtain hp | rfl | rfl | hp := hp
    · exact ih p (by simp [hp])
    · exact hq.left
    · exact hq.right hlen
    · exact ih p (by simp [hp])

/-- Every word is in exactly one part. -/
theorem count_eq_one (h : SplitPath x depth ps) (y : BitVec w) :
    ps.countP (fun p => p.contains y) = 1 := by
  induction h with
  | root => simp [contains]
  | @split depth before after q hprev _ hlen ih =>
    have hsum := halves (hprev.padded q (by simp)) hlen y
    rw [List.countP_append, List.countP_cons] at ih
    rw [List.countP_append, List.countP_cons, List.countP_cons]
    omega

theorem length_eq (h : SplitPath x depth ps) : ps.length = depth + 1 := by
  induction h with
  | root => rfl
  | split _ _ _ ih =>
    simp only [List.length_append, List.length_cons] at ih ⊢
    omega

/-- The part of a word is found at one position only. -/
theorem unique {before after : List (Prefix w)} {p q : Prefix w}
    (h : SplitPath x depth (before ++ p :: after)) (hp : p.contains y = true)
    (hq : q ∈ before ∨ q ∈ after) : q.contains y = false := by
  have hcount := h.count_eq_one y
  rw [List.countP_append, List.countP_cons, if_pos hp] at hcount
  have hzero : before.countP (fun p => p.contains y) = 0 ∧
      after.countP (fun p => p.contains y) = 0 := by omega
  rw [List.countP_eq_zero, List.countP_eq_zero] at hzero
  rw [← Bool.not_eq_true]
  exact hq.elim (hzero.1 q) (hzero.2 q)

theorem exists_part (h : SplitPath x depth ps) (y : BitVec w) :
    ∃ p ∈ ps, p.contains y = true := by
  have hcount := h.count_eq_one y
  have hpos : 0 < ps.countP (fun p => p.contains y) := by omega
  simpa using List.countP_pos_iff.mp hpos

/-- The part of the fixed word has been split at every step. -/
theorem own_len (h : SplitPath x depth ps) : ∀ p ∈ ps, p.contains x = true → p.len = depth := by
  induction h with
  | root =>
    intro p hp _
    rw [List.mem_singleton.mp hp]
  | @split depth before after q hprev hx hlen ih =>
    intro p hp hpx
    have hq : q.len = depth := ih q (by simp) hx
    simp only [List.mem_append, List.mem_cons] at hp
    obtain hp | rfl | rfl | hp := hp
    · rw [hprev.unique hx (Or.inl hp)] at hpx
      cases hpx
    · exact congrArg (· + 1) hq
    · exact congrArg (· + 1) hq
    · rw [hprev.unique hx (Or.inr hp)] at hpx
      cases hpx

theorem depth_le (h : SplitPath x depth ps) : depth ≤ w := by
  cases h with
  | root => exact Nat.zero_le _
  | @split depth before after q hprev hx hlen =>
    have hq := hprev.own_len q (by simp) hx
    omega

/-- After `depth ≥ 1` splits there are one part of each length below `depth` and two
of length `depth`. -/
theorem lengths_perm (h : SplitPath x depth ps) : (ps.map Prefix.len).Perm (pathLengths depth) := by
  induction h with
  | root => rfl
  | @split depth before after q hprev hx hlen ih =>
    have hq := hprev.own_len q (by simp) hx
    simp only [List.map_append, List.map_cons, left, right, hq] at ih ⊢
    have hrest : ((before ++ after).map Prefix.len).Perm (List.range' 1 depth) := by
      have hcons := (List.perm_middle.symm.trans ih)
      rw [← List.map_append] at hcons
      cases depth with
      | zero => exact (List.perm_cons 0).mp hcons
      | succ depth => exact (List.perm_cons (depth + 1)).mp hcons
    rw [pathLengths, List.range'_concat, Nat.one_mul, Nat.add_comm 1 depth]
    refine (List.perm_middle.trans ?_)
    refine (List.Perm.cons (depth + 1) (List.perm_middle.trans ?_))
    rw [← List.map_append]
    exact (hrest.cons (depth + 1)).trans (List.perm_append_singleton _ _).symm

theorem countP_len (h : SplitPath x depth ps) (len : Nat) :
    ps.countP (fun p => p.len = len) = (pathLengths depth).count len := by
  rw [← h.lengths_perm.count_eq len, List.count, List.countP_map]
  refine List.countP_congr fun p _ => ?_
  simp

/-- Between the root and the last split there is one part of each length. -/
theorem countP_inner (h : SplitPath x depth ps) {len : Nat} (hpos : 1 ≤ len) (hlt : len < depth) :
    ps.countP (fun p => p.len = len) = 1 := by
  rw [h.countP_len]
  cases depth with
  | zero => omega
  | succ depth =>
    rw [pathLengths, List.count_cons_of_ne (by omega), List.Nodup.count List.nodup_range',
      if_pos (List.mem_range'_1.mpr (by omega))]

theorem countP_last (h : SplitPath x depth ps) (hpos : 1 ≤ depth) :
    ps.countP (fun p => p.len = depth) = 2 := by
  rw [h.countP_len]
  cases depth with
  | zero => omega
  | succ depth =>
    rw [pathLengths, List.count_cons_self, List.Nodup.count List.nodup_range',
      if_pos (List.mem_range'_1.mpr (by omega))]

theorem len_le (h : SplitPath x depth ps) : ∀ p ∈ ps, p.len ≤ w := by
  intro p hp
  have hmem : p.len ∈ pathLengths depth := h.lengths_perm.mem_iff.mp (List.mem_map_of_mem hp)
  have hle := h.depth_le
  cases depth with
  | zero =>
    rw [pathLengths, List.mem_singleton] at hmem
    omega
  | succ depth =>
    rw [pathLengths, List.mem_cons, List.mem_range'_1] at hmem
    omega

/-- Every part is on the path of the fixed word, or next to it. -/
theorem near_path (h : SplitPath x depth ps) :
    ∀ p ∈ ps, ∀ bit, bit + 1 < p.len → p.bits.getMsbD bit = x.getMsbD bit := by
  induction h with
  | root =>
    intro p hp bit hbit
    rw [List.mem_singleton.mp hp] at hbit
    exact absurd hbit (Nat.not_lt_zero _)
  | @split depth before after q hprev hx hlen ih =>
    intro p hp bit hbit
    simp only [List.mem_append, List.mem_cons] at hp
    obtain hp | rfl | rfl | hp := hp
    · exact ih p (by simp [hp]) bit hbit
    · exact contains_iff.mp hx bit (Nat.lt_of_succ_lt_succ hbit)
    · have hlt : bit < q.len := Nat.lt_of_succ_lt_succ hbit
      rw [right_getMsbD hlen, contains_iff.mp hx bit hlt]
      simp
      omega
    · exact ih p (by simp [hp]) bit hbit

end SplitPath

end PrefixPath
