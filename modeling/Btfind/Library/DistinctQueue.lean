import Mathlib.Data.List.Nodup

/-!
# A queue without repetitions

A queue that refuses what is waiting already, and everything once it is full. It remembers
what was taken from it, so that what ever entered is what was taken and then what waits.
-/

/-- `taken` has the oldest element first. -/
structure DistinctQueue (α : Type*) (limit : Nat) where
  waiting : List α
  taken : List α
  distinct : waiting.Nodup
  few : waiting.length ≤ limit

namespace DistinctQueue

variable {α : Type*} {limit : Nat} {q : DistinctQueue α limit} {a b : α}

def empty : DistinctQueue α limit := ⟨[], [], .nil, Nat.zero_le _⟩

/-- What ever entered the queue, in order. -/
def entered (q : DistinctQueue α limit) : List α := q.taken ++ q.waiting

/-- An element that is let in. -/
def Admits (q : DistinctQueue α limit) (a : α) : Prop := a ∉ q.waiting ∧ q.waiting.length < limit

instance [DecidableEq α] (q : DistinctQueue α limit) (a : α) : Decidable (q.Admits a) :=
  inferInstanceAs (Decidable (_ ∧ _))

def enter (q : DistinctQueue α limit) (a : α) (h : q.Admits a) : DistinctQueue α limit where
  waiting := q.waiting ++ [a]
  taken := q.taken
  distinct := by
    rw [← List.concat_eq_append]
    exact q.distinct.concat h.1
  few := by
    rw [List.length_append, List.length_singleton]
    exact h.2

/-- Take the front. -/
def take (q : DistinctQueue α limit) : DistinctQueue α limit where
  waiting := q.waiting.tail
  taken := q.taken ++ q.waiting.head?.toList
  distinct := q.distinct.tail
  few := Nat.le_trans (List.tail_sublist _).length_le q.few

/-- Taking moves no element out of the order in which they entered. -/
theorem entered_take (q : DistinctQueue α limit) : q.take.entered = q.entered := by
  show (q.taken ++ q.waiting.head?.toList) ++ q.waiting.tail = q.taken ++ q.waiting
  rw [List.append_assoc]
  congr 1
  cases q.waiting <;> rfl

theorem length_entered (q : DistinctQueue α limit) :
    q.entered.length = q.taken.length + q.waiting.length := List.length_append

/-- The front that was taken may come back: it waits no more, and has left its place. -/
theorem admits_front (h : q.waiting.head? = some a) : q.take.Admits a := by
  obtain ⟨rest, hwaiting⟩ := List.head?_eq_some_iff.mp h
  have hdistinct := q.distinct
  have hfew := q.few
  rw [hwaiting] at hdistinct hfew
  refine ⟨?_, ?_⟩
  · show a ∉ q.waiting.tail
    rw [hwaiting]
    exact (List.nodup_cons.mp hdistinct).1
  · show q.waiting.tail.length < limit
    rw [hwaiting]
    exact hfew

end DistinctQueue
