import Mathlib.Data.List.Basic
import Mathlib.Data.List.TakeWhile

/-!
# Maximal runs

The maximal runs of the elements of a list that a predicate accepts, and the runs of a list joined
by a separator: split, filtered and joined, or built element by element with a separator that is
only written before the next run.
-/

namespace Runs

variable {α : Type*}

/-- The maximal runs of the elements that `p` accepts. -/
def runs (p : α → Bool) (xs : List α) : List (List α) :=
  (xs.splitOnP fun x => !p x).filter fun run => !run.isEmpty

/-- One separator between two runs. -/
def join (sep : α) (words : List (List α)) : List α := [sep].intercalate words

variable {p : α → Bool} {sep x : α} {xs run : List α} {words more : List (List α)}

@[simp] theorem runs_nil : runs p [] = [] := by
  rw [runs, List.splitOnP_nil]
  rfl

theorem runs_cons_of_neg (h : p x = false) : runs p (x :: xs) = runs p xs := by
  rw [runs, List.splitOnP_cons_eq_if_modifyHead, h]
  rfl

theorem runs_of_all (h : ∀ x ∈ run, p x = true) (hne : run ≠ []) : runs p run = [run] := by
  rw [runs, List.splitOnP_eq_singleton fun x hx => by rw [h x hx]; rfl]
  cases run with
  | nil => exact absurd rfl hne
  | cons x run => rfl

/-- A run ends at the first element that is not accepted. -/
theorem runs_append (h : ∀ x ∈ run, p x = true) (hne : run ≠ []) (hx : p x = false) :
    runs p (run ++ x :: xs) = run :: runs p xs := by
  have hsplit := List.splitOnP_append_cons (p := fun x => !p x) run xs (by rw [hx]; rfl)
  have hrun := runs_of_all h hne
  rw [runs] at hrun
  rw [runs, hsplit, List.filter_append, hrun]
  rfl

theorem runs_append_dropWhile (h : ∀ x ∈ run, p x = true) (hne : run ≠ []) :
    runs p (run ++ xs) = (run ++ xs.takeWhile p) :: runs p (xs.dropWhile p) := by
  have hhead : ∀ x ∈ run ++ xs.takeWhile p, p x = true :=
    List.forall_mem_append.mpr ⟨h, fun x hx => List.mem_takeWhile_imp hx⟩
  have hhead_ne : run ++ xs.takeWhile p ≠ [] := fun heq => hne (List.append_eq_nil_iff.mp heq).1
  have hsplit : run ++ xs = (run ++ xs.takeWhile p) ++ xs.dropWhile p := by
    rw [List.append_assoc, List.takeWhile_append_dropWhile]
  cases hrest : xs.dropWhile p with
  | nil => rw [hsplit, hrest, List.append_nil, runs_of_all hhead hhead_ne, runs_nil]
  | cons y ys =>
    have hy : p y = false := by
      have hne : xs.dropWhile p ≠ [] := by
        rw [hrest]
        exact List.cons_ne_nil y ys
      have hfirst := List.head_dropWhile_not p hne
      simpa [hrest] using hfirst
    rw [hsplit, hrest, runs_append hhead hhead_ne hy, runs_cons_of_neg hy]

/-- Induction from run to run. -/
theorem induction {P : List α → Prop} (p : α → Bool) (nil : P [])
    (skip : ∀ x xs, p x = false → P xs → P (x :: xs))
    (run : ∀ x xs, p x = true → P (xs.dropWhile p) → P (x :: xs)) : ∀ xs, P xs
  | [] => nil
  | x :: xs => by
    cases hx : p x with
    | false => exact skip x xs hx (induction p nil skip run xs)
    | true => exact run x xs hx (induction p nil skip run (xs.dropWhile p))
termination_by xs => xs.length
decreasing_by
  · exact Nat.lt_succ_self _
  · exact Nat.lt_succ_of_le (List.dropWhile_sublist p).length_le

theorem runs_cons_of_pos (h : p x = true) :
    runs p (x :: xs) = (x :: xs.takeWhile p) :: runs p (xs.dropWhile p) := by
  have hall : ∀ y ∈ [x], p y = true := by simpa using h
  exact runs_append_dropWhile hall (List.cons_ne_nil x [])

theorem ne_nil_of_mem_runs (h : run ∈ runs p xs) : run ≠ [] := by
  intro heq
  have hmem := (List.mem_filter.mp h).2
  rw [heq] at hmem
  cases hmem

theorem accepted_of_mem_runs (h : run ∈ runs p xs) : ∀ x ∈ run, p x = true := by
  induction xs using Runs.induction p with
  | nil =>
    rw [runs_nil] at h
    cases h
  | skip x xs hx ih =>
    rw [runs_cons_of_neg hx] at h
    exact ih h
  | run x xs hx ih =>
    rw [runs_cons_of_pos hx] at h
    rcases List.mem_cons.mp h with rfl | h
    · intro y hy
      rcases List.mem_cons.mp hy with rfl | hy
      · exact hx
      · exact List.mem_takeWhile_imp hy
    · exact ih h

/-! ## Joined runs -/

theorem join_snoc_of_ne_nil (h : words ≠ []) (run : List α) :
    join sep (words ++ [run]) = join sep words ++ sep :: run := by
  induction words with
  | nil => exact absurd rfl h
  | cons word words ih =>
    cases words with
    | nil => simp [join]
    | cons next words =>
      have hrest := ih (List.cons_ne_nil next words)
      unfold join at hrest ⊢
      rw [List.cons_append, List.cons_append, List.intercalate_cons_cons,
        List.intercalate_cons_cons, ← List.cons_append, hrest]
      simp only [List.append_assoc]

theorem join_snoc (sep : α) (words : List (List α)) (run : List α) :
    join sep (words ++ [run]) =
      join sep words ++ (if words.isEmpty then run else sep :: run) := by
  cases words with
  | nil => exact List.intercalate_singleton
  | cons word words => exact join_snoc_of_ne_nil (List.cons_ne_nil word words) run

theorem prefix_join_append (words more : List (List α)) :
    join sep words <+: join sep (words ++ more) := by
  induction more generalizing words with
  | nil => simp
  | cons run more ih =>
    have hrun : join sep words <+: join sep (words ++ [run]) := by
      rw [join_snoc]
      exact List.prefix_append _ _
    have hmore := ih (words ++ [run])
    rw [List.append_assoc, List.singleton_append] at hmore
    exact hrun.trans hmore

/-- The runs of joined runs are the runs, when the separator is not accepted. -/
theorem runs_join (hsep : p sep = false) (hne : ∀ run ∈ words, run ≠ [])
    (hall : ∀ run ∈ words, ∀ x ∈ run, p x = true) : runs p (join sep words) = words := by
  induction words with
  | nil => exact runs_nil
  | cons word words ih =>
    have hword := hall word List.mem_cons_self
    have hword_ne := hne word List.mem_cons_self
    have hrest := ih (fun run hrun => hne run (List.mem_cons_of_mem _ hrun))
      fun run hrun => hall run (List.mem_cons_of_mem _ hrun)
    cases words with
    | nil =>
      rw [join, List.intercalate_singleton]
      exact runs_of_all hword hword_ne
    | cons next words =>
      rw [join, List.intercalate_cons_cons, List.append_assoc, List.singleton_append]
      rw [runs_append hword hword_ne hsep]
      exact congrArg (word :: ·) hrest

/-! ## The runs of a list, joined element by element -/

/-- The loop that writes a separator before the first element of the next run. -/
def build (p : α → Bool) (sep : α) : List α → Bool → List α → List α
  | [], _, output => output
  | x :: xs, separator, output =>
    if p x = false then build p sep xs (!output.isEmpty) output
    else build p sep xs false ((if separator then output ++ [sep] else output) ++ [x])

theorem prefix_build (p : α → Bool) (sep : α) (xs : List α) (separator : Bool) (output : List α) :
    output <+: build p sep xs separator output := by
  induction xs generalizing separator output with
  | nil => exact List.prefix_refl _
  | cons x xs ih =>
    rw [build]
    split
    · exact ih _ _
    · refine List.IsPrefix.trans ?_ (ih _ _)
      split
      · exact (List.prefix_append _ _).trans (List.prefix_append _ _)
      · exact List.prefix_append _ _

theorem isEmpty_join (hne : ∀ run ∈ words, run ≠ []) :
    (join sep words).isEmpty = words.isEmpty := by
  cases words with
  | nil => rfl
  | cons word words =>
    obtain ⟨x, rest, rfl⟩ := List.exists_cons_of_ne_nil (hne word List.mem_cons_self)
    rw [join, List.intercalate_cons_cons_left]
    rfl

theorem join_snoc_append (words : List (List α)) (run more : List α) :
    join sep (words ++ [run]) ++ more = join sep (words ++ [run ++ more]) := by
  rw [join_snoc, join_snoc, List.append_assoc]
  split
  · rfl
  · rw [List.cons_append]

/-- Between two runs the loop is at the end of `words`; inside a run it has written the first
part of it. -/
theorem build_eq_aux (p : α → Bool) (sep : α) (xs : List α) :
    (∀ words : List (List α), (∀ run ∈ words, run ≠ []) →
      build p sep xs (!(join sep words).isEmpty) (join sep words) =
        join sep (words ++ runs p xs)) ∧
    ∀ (words : List (List α)) (run : List α), (∀ run ∈ words, run ≠ []) → run ≠ [] →
      (∀ x ∈ run, p x = true) →
      build p sep xs false (join sep (words ++ [run])) =
        join sep (words ++ runs p (run ++ xs)) := by
  -- Each statement needs the other one: a run begins between runs and ends inside one.
  induction xs with
  | nil =>
    constructor
    · intro words hne
      rw [build, runs_nil, List.append_nil]
    · intro words run hne hrun hall
      rw [build, List.append_nil, runs_of_all hall hrun]
  | cons x xs ih =>
    obtain ⟨hbetween, hinside⟩ := ih
    constructor
    · intro words hne
      rw [build]
      by_cases hx : p x = false
      · rw [if_pos hx, runs_cons_of_neg hx]
        exact hbetween words hne
      · rw [if_neg hx]
        have haccepted : ∀ y ∈ [x], p y = true := by simpa using hx
        have hfirst : (if (!(join sep words).isEmpty) = true then join sep words ++ [sep]
            else join sep words) ++ [x] = join sep (words ++ [[x]]) := by
          rw [join_snoc, isEmpty_join hne]
          cases words.isEmpty <;> simp
        rw [hfirst, hinside words [x] hne (List.cons_ne_nil x []) haccepted]
        rfl
    · intro words run hne hrun hall
      rw [build]
      by_cases hx : p x = false
      · rw [if_pos hx, runs_append hall hrun hx]
        have hmore : ∀ r ∈ words ++ [run], r ≠ [] :=
          List.forall_mem_append.mpr ⟨hne, List.forall_mem_singleton.mpr hrun⟩
        have hnext := hbetween (words ++ [run]) hmore
        rw [List.append_assoc] at hnext
        exact hnext
      · rw [if_neg hx, if_neg Bool.false_ne_true, join_snoc_append]
        have hmore : ∀ y ∈ run ++ [x], p y = true :=
          List.forall_mem_append.mpr ⟨hall, by simpa using hx⟩
        have hnext := hinside words (run ++ [x]) hne (by simp) hmore
        rw [List.append_assoc] at hnext
        exact hnext

/-- The loop adds the runs of a list to what has been joined before. -/
theorem build_eq (p : α → Bool) (sep : α) (xs : List α) (hne : ∀ run ∈ words, run ≠ []) :
    build p sep xs (!(join sep words).isEmpty) (join sep words) = join sep (words ++ runs p xs) :=
  (build_eq_aux p sep xs).1 words hne

end Runs
