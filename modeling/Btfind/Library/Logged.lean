import Mathlib.Algebra.BigOperators.Group.List.Basic
import Mathlib.Algebra.Ring.Nat

/-!
# Runs with a log

A computation that can fail and that keeps a log of what it has done, also when it fails. The
rules say what a log holds, and what its entries may cost, from what holds of the parts.
-/

universe u

/-- A result or an error, and the log up to there. -/
structure Logged (ε κ : Type*) (α : Type u) where
  result : Except ε α
  log : List κ

namespace Logged

variable {ε κ : Type*} {α β : Type u}

instance : Monad (Logged ε κ) where
  pure a := ⟨.ok a, []⟩
  bind x f :=
    match x.result with
    | .ok a => ⟨(f a).result, x.log ++ (f a).log⟩
    | .error e => ⟨.error e, x.log⟩

def raise (e : ε) : Logged ε κ α := ⟨.error e, []⟩

/-- A computation without a log. -/
def lift (r : Except ε α) : Logged ε κ α := ⟨r, []⟩

/-- One more entry, made from the result. -/
def note (entry : Except ε α → κ) (x : Logged ε κ α) : Logged ε κ α :=
  ⟨x.result, x.log ++ [entry x.result]⟩

variable {x : Logged ε κ α} {f : α → Logged ε κ β} {a : α} {b : β} {e : ε}
  {entry : Except ε α → κ}

@[simp] theorem lift_ok_bind : (lift (.ok a) : Logged ε κ α) >>= f = f a := rfl

theorem bind_of_ok (h : x.result = .ok a) :
    x >>= f = ⟨(f a).result, x.log ++ (f a).log⟩ := by
  show (match x.result with
    | .ok a => (⟨(f a).result, x.log ++ (f a).log⟩ : Logged ε κ β)
    | .error e => ⟨.error e, x.log⟩) = _
  rw [h]

theorem bind_of_error (h : x.result = .error e) : x >>= f = ⟨.error e, x.log⟩ := by
  show (match x.result with
    | .ok a => (⟨(f a).result, x.log ++ (f a).log⟩ : Logged ε κ β)
    | .error e => ⟨.error e, x.log⟩) = _
  rw [h]

/-! ## What every entry has -/

/-- Every entry of the log has a property. -/
def All (P : κ → Prop) (x : Logged ε κ α) : Prop := ∀ k ∈ x.log, P k

variable {P : κ → Prop}

theorem All.of_empty (h : x.log = []) : All P x := by
  rw [All, h]
  exact List.forall_mem_nil P

theorem All.bind (hx : All P x) (hf : ∀ a, x.result = .ok a → All P (f a)) :
    All P (x >>= f) := by
  cases h : x.result with
  | error e =>
    rw [bind_of_error h]
    exact hx
  | ok a =>
    rw [bind_of_ok h]
    exact List.forall_mem_append.mpr ⟨hx, hf a h⟩

theorem All.note (hx : All P x) (hentry : P (entry x.result)) : All P (x.note entry) :=
  List.forall_mem_append.mpr ⟨hx, List.forall_mem_singleton.mpr hentry⟩

/-! ## What the entries cost -/

def total (cost : κ → Nat) (x : Logged ε κ α) : Nat := (x.log.map cost).sum

/-- Entries that cost one or nothing are counted. -/
theorem total_ite (p : κ → Prop) [DecidablePred p] (x : Logged ε κ α) :
    total (fun k => if p k then 1 else 0) x = x.log.countP p := by
  rw [total]
  induction x.log with
  | nil => rfl
  | cons k log ih =>
    rw [List.map_cons, List.sum_cons, List.countP_cons, ih, Nat.add_comm]
    simp only [decide_eq_true_eq]

/-- The entries are paid for by a meter that stands at `start` before the run. However the run
ends, they cost no more than the meter can still go; when it succeeds, no more than the meter has
gone. -/
structure Metered (cost : κ → Nat) (meter : α → Nat) (limit start : Nat) (x : Logged ε κ α) :
    Prop where
  within : total cost x + start ≤ limit
  paid : ∀ a, x.result = .ok a → total cost x + start ≤ meter a ∧ meter a ≤ limit

variable {cost : κ → Nat} {meter : α → Nat} {meter' : β → Nat} {limit start : Nat}

theorem Metered.pure (h : start ≤ meter a) (hlimit : meter a ≤ limit) :
    Metered cost meter limit start (pure a : Logged ε κ α) where
  within := by
    rw [total]
    exact (Nat.zero_add start).trans_le (Nat.le_trans h hlimit)
  paid := by
    intro b hb
    cases hb
    exact ⟨(Nat.zero_add start).trans_le h, hlimit⟩

theorem Metered.of_error (hlog : x.log = []) (hr : x.result = .error e) (h : start ≤ limit) :
    Metered cost meter limit start x where
  within := by
    rw [total, hlog]
    exact (Nat.zero_add start).trans_le h
  paid := by
    intro b hb
    rw [hr] at hb
    cases hb

/-- The second part starts where the meter stands after the first. -/
theorem Metered.bind (hx : Metered cost meter limit start x)
    (hf : ∀ a, x.result = .ok a → meter a ≤ limit →
      Metered cost meter' limit (meter a) (f a)) :
    Metered cost meter' limit start (x >>= f) := by
  cases h : x.result with
  | error e =>
    rw [bind_of_error h]
    refine ⟨hx.within, ?_⟩
    intro b hb
    cases hb
  | ok a =>
    obtain ⟨hpaid, hlimit⟩ := hx.paid a h
    have hrest := hf a h hlimit
    have htotal : total cost (x >>= f) = total cost x + total cost (f a) := by
      rw [bind_of_ok h, total, total, total, List.map_append, List.sum_append]
    have hwithin := hrest.within
    refine ⟨by omega, ?_⟩
    intro b hb
    rw [bind_of_ok h] at hb
    have hend := hrest.paid b hb
    exact ⟨by omega, hend.2⟩

/-- An entry is paid for when the run leaves room for its cost. -/
theorem Metered.note (h : Metered cost meter limit (start + cost (entry x.result)) x) :
    Metered cost meter limit start (x.note entry) := by
  have htotal : total cost (x.note entry) = total cost x + cost (entry x.result) := by
    rw [Logged.note, total, total, List.map_append, List.sum_append]
    rfl
  have hwithin := h.within
  refine ⟨by omega, ?_⟩
  intro a ha
  have hend := h.paid a ha
  exact ⟨by omega, hend.2⟩

end Logged
