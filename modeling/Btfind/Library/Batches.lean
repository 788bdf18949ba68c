import Mathlib.Data.List.Basic

/-!
# Batches

Items are added to an open batch, which is closed by a rule on the item that comes next or by a
rule on the batch itself. No item is lost, doubled or moved, and what the rules keep true of the
open batch is true of every closed one.
-/

/-- The closed batches and the open one. -/
structure Batches (α : Type*) where
  closed : List (List α)
  current : List α

namespace Batches

variable {α : Type*} {before : List α → α → Bool} {after : List α → Bool} {P : List α → Prop}
  {b : Batches α} {x : α} {xs : List α}

def empty : Batches α := ⟨[], []⟩

/-- All items, in the order in which they came. -/
def items (b : Batches α) : List α := b.closed.flatten ++ b.current

def close (b : Batches α) : Batches α := ⟨b.closed ++ [b.current], []⟩

/-- A batch that is not empty is closed before an item that does not fit. -/
def makeRoom (before : List α → α → Bool) (x : α) (b : Batches α) : Batches α :=
  if b.current ≠ [] ∧ before b.current x = true then b.close else b

/-- The item joins the open batch, which may be full then. -/
def put (after : List α → Bool) (x : α) (b : Batches α) : Batches α :=
  if after (b.current ++ [x]) = true then ⟨b.closed ++ [b.current ++ [x]], []⟩
  else ⟨b.closed, b.current ++ [x]⟩

def add (before : List α → α → Bool) (after : List α → Bool) (b : Batches α) (x : α) :
    Batches α :=
  (b.makeRoom before x).put after x

def addAll (before : List α → α → Bool) (after : List α → Bool) (xs : List α) (b : Batches α) :
    Batches α :=
  xs.foldl (add before after) b

/-- What is left over at the end is a batch, unless it is empty. -/
def finish (b : Batches α) : Batches α := if b.current = [] then b else b.close

theorem addAll_cons : b.addAll before after (x :: xs) =
    (b.add before after x).addAll before after xs := rfl

@[simp] theorem items_close : b.close.items = b.items := by
  rw [items, items, close]
  simp

@[simp] theorem items_makeRoom : (b.makeRoom before x).items = b.items := by
  rw [makeRoom]
  split
  · exact items_close
  · rfl

@[simp] theorem items_put : (b.put after x).items = b.items ++ [x] := by
  rw [put]
  split
  · simp [items]
  · simp [items]

@[simp] theorem items_add : (b.add before after x).items = b.items ++ [x] := by
  rw [add, items_put, items_makeRoom]

@[simp] theorem items_addAll : (b.addAll before after xs).items = b.items ++ xs := by
  induction xs generalizing b with
  | nil => exact (List.append_nil _).symm
  | cons x xs ih =>
    rw [addAll_cons, ih, items_add, List.append_assoc, List.singleton_append]

@[simp] theorem items_finish : b.finish.items = b.items := by
  rw [finish]
  split
  · rfl
  · exact items_close

/-- Every closed batch satisfies `P`, and so does the open one once it has an item. -/
structure Ok (P : List α → Prop) (b : Batches α) : Prop where
  closed : ∀ batch ∈ b.closed, batch ≠ [] ∧ P batch
  current : b.current ≠ [] → P b.current

theorem ok_empty : Ok P empty := ⟨List.forall_mem_nil _, fun h => absurd rfl h⟩

theorem Ok.close (h : Ok P b) (hne : b.current ≠ []) : Ok P b.close where
  closed := by
    rintro batch hb
    obtain hold | hnew := List.mem_append.mp hb
    · exact h.closed batch hold
    · rw [List.mem_singleton.mp hnew]
      exact ⟨hne, h.current hne⟩
  current := fun hempty => absurd rfl hempty

theorem Ok.makeRoom (h : Ok P b) : Ok P (b.makeRoom before x) := by
  rw [Batches.makeRoom]
  split
  · next hfull => exact h.close hfull.1
  · exact h

/-- Adding keeps `P` if it holds of single items and of a batch with an item that fits. -/
theorem Ok.add (h : Ok P b) (hsingle : P [x])
    (hfits : ∀ batch, batch ≠ [] → P batch → before batch x = false → P (batch ++ [x])) :
    Ok P (b.add before after x) := by
  have hroom : Ok P (b.makeRoom before x) := h.makeRoom
  have hjoined : P ((b.makeRoom before x).current ++ [x]) := by
    by_cases hempty : (b.makeRoom before x).current = []
    · rw [hempty]
      exact hsingle
    · refine hfits _ hempty (hroom.current hempty) ?_
      rw [Batches.makeRoom] at hempty ⊢
      split
      · next hfull =>
        rw [if_pos hfull] at hempty
        exact absurd rfl hempty
      · next hroomy =>
        rw [if_neg hroomy] at hempty
        simpa [hempty] using hroomy
  rw [Batches.add, put]
  split
  · refine ⟨?_, fun hne => absurd rfl hne⟩
    intro batch hb
    obtain hold | hnew := List.mem_append.mp hb
    · exact hroom.closed batch hold
    · rw [List.mem_singleton.mp hnew]
      exact ⟨by simp, hjoined⟩
  · exact ⟨hroom.closed, fun _ => hjoined⟩

theorem Ok.addAll (h : Ok P b) (hsingle : ∀ x ∈ xs, P [x])
    (hfits : ∀ x ∈ xs, ∀ batch, batch ≠ [] → P batch → before batch x = false →
      P (batch ++ [x])) : Ok P (b.addAll before after xs) := by
  induction xs generalizing b with
  | nil => exact h
  | cons x xs ih =>
    obtain ⟨hfirst, hsingle⟩ := List.forall_mem_cons.mp hsingle
    obtain ⟨hjoin, hfits⟩ := List.forall_mem_cons.mp hfits
    exact ih (h.add hfirst hjoin) hsingle hfits

theorem Ok.finish (h : Ok P b) : Ok P b.finish := by
  rw [Batches.finish]
  split
  · exact h
  · next hne => exact h.close hne

theorem current_sublist : b.current.Sublist b.items := List.sublist_append_right _ _

/-- A closed batch has no more items than there are. -/
theorem length_le_of_mem {batch : List α} (h : batch ∈ b.closed) :
    batch.length ≤ b.items.length := by
  rw [items, List.length_append]
  exact Nat.le_trans (List.sublist_flatten_of_mem h).length_le (Nat.le_add_right _ _)

theorem finish_current : b.finish.current = [] := by
  rw [finish]
  split
  · next h => exact h
  · rfl

/-! ## Starting again

Batches that only the item to come closes. -/

section Restart

/-- No batch is full before the next item comes. -/
def never (_ : List α) : Bool := false

theorem add_never_of_full (hne : b.current ≠ []) (hfull : before b.current x = true) :
    b.add before never x = ⟨b.closed ++ [b.current], [x]⟩ := by
  have hroom : b.makeRoom before x = b.close := if_pos ⟨hne, hfull⟩
  rw [add, hroom]
  rfl

theorem add_never_of_fits (hfits : ¬(b.current ≠ [] ∧ before b.current x = true)) :
    b.add before never x = ⟨b.closed, b.current ++ [x]⟩ := by
  have hroom : b.makeRoom before x = b := if_neg hfits
  rw [add, hroom]
  rfl

/-- An open batch that has an item does not lose it. -/
theorem current_addAll_ne_nil (hne : b.current ≠ []) :
    (b.addAll before never xs).current ≠ [] := by
  induction xs generalizing b with
  | nil => exact hne
  | cons x xs ih =>
    rw [addAll_cons]
    apply ih
    by_cases hfull : b.current ≠ [] ∧ before b.current x = true
    · rw [add_never_of_full hfull.1 hfull.2]
      exact List.cons_ne_nil _ _
    · rw [add_never_of_fits hfull]
      exact List.append_ne_nil_of_right_ne_nil _ (List.cons_ne_nil _ _)

/-- The batches that are closed already play no part. -/
theorem addAll_closed (closed : List (List α)) (current : List α) :
    addAll before never xs ⟨closed, current⟩ =
      ⟨closed ++ (addAll before never xs ⟨[], current⟩).closed,
        (addAll before never xs ⟨[], current⟩).current⟩ := by
  induction xs generalizing closed current with
  | nil => exact congrArg (Batches.mk · current) (List.append_nil closed).symm
  | cons x xs ih =>
    rw [addAll_cons, addAll_cons]
    by_cases hfull : current ≠ [] ∧ before current x = true
    · have hleft : add before never ⟨closed, current⟩ x = ⟨closed ++ [current], [x]⟩ :=
        add_never_of_full hfull.1 hfull.2
      have hright : add before never ⟨[], current⟩ x = ⟨[current], [x]⟩ :=
        add_never_of_full hfull.1 hfull.2
      rw [hleft, hright, ih, ih [current], List.append_assoc]
    · have hleft : add before never ⟨closed, current⟩ x = ⟨closed, current ++ [x]⟩ :=
        add_never_of_fits hfull
      have hright : add before never ⟨[], current⟩ x = ⟨[], current ++ [x]⟩ :=
        add_never_of_fits hfull
      rw [hleft, hright, ih]

/-- The items after a closed batch fall into the batches that followed it. -/
theorem addAll_restart {current batch : List α} {done later : List (List α)}
    (h : (addAll before never xs ⟨[], current⟩).closed = done ++ batch :: later) :
    ∃ taken rest, xs = taken ++ rest ∧ current ++ taken = done.flatten ++ batch ∧
      addAll before never rest empty =
        ⟨later, (addAll before never xs ⟨[], current⟩).current⟩ := by
  induction xs generalizing current done with
  | nil =>
    have hnil : [] = done ++ batch :: later := h
    exact absurd hnil.symm (List.append_ne_nil_of_right_ne_nil _ (List.cons_ne_nil _ _))
  | cons x xs ih =>
    rw [addAll_cons] at h ⊢
    by_cases hfull : current ≠ [] ∧ before current x = true
    · have hadd : add before never ⟨[], current⟩ x = ⟨[current], [x]⟩ :=
        add_never_of_full hfull.1 hfull.2
      rw [hadd, addAll_closed] at h ⊢
      cases done with
      | nil =>
        -- The batch is the one that `x` closes.
        obtain ⟨rfl, rfl⟩ := List.cons.inj h
        refine ⟨[], x :: xs, rfl, by rw [List.append_nil]; rfl, ?_⟩
        have hempty : add before never empty x = ⟨[], [x]⟩ :=
          add_never_of_fits fun hne => absurd rfl hne.1
        rw [addAll_cons, hempty]
        rfl
      | cons first done =>
        obtain ⟨rfl, hrest⟩ := List.cons.inj h
        obtain ⟨taken, rest, hxs, htaken, hlater⟩ := ih hrest
        refine ⟨x :: taken, rest, congrArg (x :: ·) hxs, ?_, hlater⟩
        rw [List.flatten_cons, List.append_assoc, ← htaken]
        rfl
    · have hadd : add before never ⟨[], current⟩ x = ⟨[], current ++ [x]⟩ :=
        add_never_of_fits hfull
      rw [hadd] at h ⊢
      obtain ⟨taken, rest, hxs, htaken, hlater⟩ := ih h
      refine ⟨x :: taken, rest, congrArg (x :: ·) hxs, ?_, hlater⟩
      rw [← htaken, List.append_assoc]
      rfl

end Restart

/-! ## Items in another form -/

section Map

variable {β : Type*} {f : α → β} {before' : List β → β → Bool}

def map (f : α → β) (b : Batches α) : Batches β := ⟨b.closed.map (List.map f), b.current.map f⟩

end Map

end Batches
