import Mathlib.Data.List.Basic

/-!
# Effect logs

A shared state is moved by operations of one party and by effects of others. An
effect log lists them in the order in which they took hold, so "applied exactly
once" becomes a statement about the party's own entries of a log that explains
the state.
-/

/-- An entry of a log: an operation of the party, or an effect of another one. -/
inductive Effect (ω φ : Type*)
  | own (op : ω)
  | other (effect : φ)

namespace Effect

variable {σ ω φ : Type*}

/-- The party's own operations, in order. -/
def owns (log : List (Effect ω φ)) : List ω :=
  log.filterMap fun
    | .own op => some op
    | .other _ => none

/-- The effects of the others, in order. -/
def others (log : List (Effect ω φ)) : List φ :=
  log.filterMap fun
    | .own _ => none
    | .other effect => some effect

/-- The state that a log leads to. -/
def applyAll (run : ω → σ → σ) (act : φ → σ → σ) (log : List (Effect ω φ)) (start : σ) : σ :=
  log.foldl (fun s e => match e with
    | .own op => run op s
    | .other effect => act effect s) start

variable {run : ω → σ → σ} {act : φ → σ → σ} (log : List (Effect ω φ)) (op : ω) (effect : φ)
  (start : σ)

@[simp] theorem owns_snoc_own : owns (log ++ [.own op]) = owns log ++ [op] := by
  simp [owns]

@[simp] theorem owns_snoc_other : owns (log ++ [.other effect]) = owns log := by
  simp [owns]

@[simp] theorem others_snoc_own : others (log ++ [.own op]) = others log := by
  simp [others]

@[simp] theorem others_snoc_other : others (log ++ [.other effect]) = others log ++ [effect] := by
  simp [others]

@[simp] theorem applyAll_snoc_own :
    applyAll run act (log ++ [.own op]) start = run op (applyAll run act log start) := by
  simp [applyAll]

@[simp] theorem applyAll_snoc_other :
    applyAll run act (log ++ [.other effect]) start = act effect (applyAll run act log start) := by
  simp [applyAll]

end Effect
