import Mathlib.Data.Set.Basic

/-!
# Atomic transactions with uncertain commits

A transaction either takes effect as a whole or not at all. Its caller can see
an error in both cases, since a commit may be applied while its acknowledgement
is lost.
-/

namespace Transaction

variable {σ ε α β : Type*}

/-- What the environment does with a transaction. -/
inductive Fate (ε : Type*)
  | commits
  | fails (error : ε)
  | uncertain (error : ε)

/-- The caller can tell from the result whether the transaction took effect. -/
def Fate.IsCertain : Fate ε → Prop
  | .uncertain _ => False
  | _ => True

instance : DecidablePred (Fate.IsCertain (ε := ε)) := fun fate =>
  match fate with
  | .commits => .isTrue trivial
  | .fails _ => .isTrue trivial
  | .uncertain _ => .isFalse id

/-- Run the body of a transaction under a fate; an error of the body rolls it back. -/
def transact (fate : Fate ε) (body : σ → Except ε (α × σ)) (s : σ) : Except ε α × σ :=
  match fate, body s with
  | .fails e, _ => (.error e, s)
  | .commits, .ok (a, s') => (.ok a, s')
  | .commits, .error e => (.error e, s)
  | .uncertain e, .ok (_, s') => (.error e, s')
  | .uncertain _, .error e => (.error e, s)

/-- A successful sequence of two computations is a success of each. -/
theorem ok_of_bind {x : Except ε α} {f : α → Except ε β} {b : β} (h : x.bind f = .ok b) :
    ∃ a, x = .ok a ∧ f a = .ok b := by
  cases x with
  | error e => cases h
  | ok a => exact ⟨a, rfl, h⟩

variable {fate : Fate ε} {body : σ → Except ε (α × σ)} {s s' : σ} {a : α} {e : ε}

@[simp] theorem transact_fails : transact (.fails e) body s = (.error e, s) := by
  simp [transact]

theorem transact_of_error (h : body s = .error e) : (transact fate body s).2 = s := by
  cases fate <;> simp [transact, h]

/-- Either nothing happened, or the whole body took effect. -/
theorem transact_cases (fate : Fate ε) (body : σ → Except ε (α × σ)) (s : σ) :
    (∃ e, transact fate body s = (.error e, s)) ∨
      ∃ a s', body s = .ok (a, s') ∧ (transact fate body s = (.ok a, s') ∨
        ∃ e, transact fate body s = (.error e, s')) := by
  cases fate with
  | fails e => exact Or.inl ⟨e, by simp⟩
  | commits =>
    cases hb : body s with
    | error e => exact Or.inl ⟨e, by simp [transact, hb]⟩
    | ok r => exact Or.inr ⟨r.1, r.2, rfl, Or.inl (by simp [transact, hb])⟩
  | uncertain e =>
    cases hb : body s with
    | error e' => exact Or.inl ⟨e', by simp [transact, hb]⟩
    | ok r => exact Or.inr ⟨r.1, r.2, rfl, Or.inr ⟨e, by simp [transact, hb]⟩⟩

/-- A reported success is the body's own result. -/
theorem transact_ok (h : (transact fate body s).1 = .ok a) :
    body s = .ok (a, (transact fate body s).2) := by
  obtain ⟨e, he⟩ | ⟨b, s', hb, hr | ⟨e, hr⟩⟩ := transact_cases fate body s
  · rw [he] at h
    cases h
  · rw [hr] at h ⊢
    cases h
    exact hb
  · rw [hr] at h
    cases h

/-- An error under a certain fate leaves the state as it was. -/
theorem transact_error_of_certain (hf : fate.IsCertain)
    (h : (transact fate body s).1 = .error e) : (transact fate body s).2 = s := by
  cases fate with
  | fails e => rfl
  | uncertain e => exact hf.elim
  | commits =>
    cases hb : body s with
    | error e' => exact transact_of_error hb
    | ok r => simp [transact, hb] at h

/-- What the body keeps, the transaction keeps under every fate. -/
theorem transact_invariant {I : σ → Prop} (hs : I s)
    (hbody : ∀ a s', body s = .ok (a, s') → I s') : I (transact fate body s).2 := by
  obtain ⟨e, he⟩ | ⟨a, s', hb, hr | ⟨e, hr⟩⟩ := transact_cases fate body s
  · rwa [he]
  · rw [hr]
    exact hbody a s' hb
  · rw [hr]
    exact hbody a s' hb

end Transaction
