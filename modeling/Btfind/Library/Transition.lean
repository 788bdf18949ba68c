import Mathlib.Data.List.Basic

/-!
# Labelled transition relations

Finite runs of a labelled step relation, the induction rules for invariants and
for guarded runs, and the facts about runs that a proof over whole histories
uses.
-/

namespace Transition

variable {σ ε : Type*}

/-- A finite run; the labels stand in the order in which the steps fired. -/
inductive Run (step : σ → ε → σ → Prop) : σ → List ε → σ → Prop
  | refl (s : σ) : Run step s [] s
  | snoc {s t u : σ} {es : List ε} {e : ε} :
      Run step s es t → step t e u → Run step s (es ++ [e]) u

/-- A state that some run reaches from an initial state. -/
def Reachable (init : σ → Prop) (step : σ → ε → σ → Prop) (s : σ) : Prop :=
  ∃ s₀ es, init s₀ ∧ Run step s₀ es s

/-- A step that is taken only where its guard allows it. -/
def Guarded (guard : σ → ε → Prop) (step : σ → ε → σ → Prop) : σ → ε → σ → Prop :=
  fun s e t => guard s e ∧ step s e t

variable {step step' : σ → ε → σ → Prop} {init : σ → Prop} {I J : σ → Prop} {s t u : σ}
  {es fs : List ε} {e : ε}

theorem Run.append (h : Run step s es t) (h' : Run step t fs u) : Run step s (es ++ fs) u := by
  induction h' with
  | refl => simpa using h
  | snoc _ hs ih =>
    rw [← List.append_assoc]
    exact ih.snoc hs

/-- A property that every step keeps survives every run. -/
theorem Run.invariant (hstep : ∀ s e t, I s → step s e t → I t) (h : Run step s es t)
    (hs : I s) : I t := by
  induction h with
  | refl => exact hs
  | snoc _ hst ih => exact hstep _ _ _ ih hst

/-- A run whose labels the guard allows in every state is a guarded run. -/
theorem Run.guarded {guard : σ → ε → Prop} (h : Run step s es t)
    (hg : ∀ e ∈ es, ∀ s, guard s e) : Run (Guarded guard step) s es t := by
  induction h with
  | refl => exact .refl _
  | snoc _ hs ih =>
    exact (ih fun e he => hg e (List.mem_append_left _ he)).snoc
      ⟨hg _ (List.mem_append_right _ List.mem_cons_self) _, hs⟩

theorem Reachable.of_init (h : init s) : Reachable init step s := ⟨s, [], h, .refl s⟩

theorem Reachable.next (h : Reachable init step s) (hs : step s e t) :
    Reachable init step t := by
  obtain ⟨s₀, es, h₀, hr⟩ := h
  exact ⟨s₀, es ++ [e], h₀, hr.snoc hs⟩

theorem Reachable.run (h : Reachable init step s) (hr : Run step s es t) :
    Reachable init step t := by
  obtain ⟨s₀, fs, h₀, hf⟩ := h
  exact ⟨s₀, fs ++ es, h₀, hf.append hr⟩

theorem Reachable.invariant (hinit : ∀ s, init s → I s)
    (hstep : ∀ s e t, I s → step s e t → I t) (h : Reachable init step s) : I s := by
  obtain ⟨s₀, es, h₀, hr⟩ := h
  exact hr.invariant hstep (hinit s₀ h₀)

/-! ## Step functions -/

/-- The state after a list of labels, where a function takes the steps. -/
def play (next : σ → ε → Option σ) : List ε → σ → Option σ
  | [], s => some s
  | e :: es, s => (next s e).bind (play next es)

/-- A check holds before every step. -/
def checked (next : σ → ε → Option σ) (check : σ → ε → Bool) : List ε → σ → Bool
  | [], _ => true
  | e :: es, s => check s e && (next s e).all (checked next check es)

theorem run_cons (hs : step s e t) (h : Run step t es u) : Run step s (e :: es) u :=
  ((Run.refl s).snoc hs).append h

variable {next : σ → ε → Option σ} {check : σ → ε → Bool} {guard : σ → ε → Prop}

theorem play_run (h : play next es s = some t) : Run (fun s e t => next s e = some t) s es t := by
  induction es generalizing s with
  | nil =>
    cases h
    exact .refl _
  | cons e es ih =>
    obtain ⟨u, hu, hrest⟩ := Option.bind_eq_some_iff.mp h
    exact run_cons hu (ih hrest)

theorem play_append : play next (es ++ fs) s = (play next es s).bind (play next fs) := by
  induction es generalizing s with
  | nil => rfl
  | cons e es ih =>
    rw [List.cons_append, play, play, Option.bind_assoc]
    exact congrArg _ (funext fun _ => ih)

/-- A run of a function is played by it. -/
theorem Run.play_eq (h : Run (fun s e t => next s e = some t) s es t) :
    play next es s = some t := by
  induction h with
  | refl => rfl
  | snoc _ hs ih =>
    rw [play_append, ih, Option.bind_some, play, hs]
    rfl

theorem play_guarded (hguard : ∀ s e, check s e = true → guard s e) (h : play next es s = some t)
    (hc : checked next check es s = true) :
    Run (Guarded guard fun s e t => next s e = some t) s es t := by
  induction es generalizing s with
  | nil =>
    cases h
    exact .refl _
  | cons e es ih =>
    obtain ⟨u, hu, hrest⟩ := Option.bind_eq_some_iff.mp h
    rw [checked, hu, Bool.and_eq_true] at hc
    exact run_cons ⟨hguard s e hc.1, hu⟩ (ih hrest hc.2)

end Transition
