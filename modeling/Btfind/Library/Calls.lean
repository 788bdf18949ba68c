import Mathlib.Data.List.Basic

/-!
# Programs that call an environment

A program changes a state and asks an environment for answers that are not its own. It returns,
it raises an error, or it dies: an environment with no more answers has stopped it. A triple says
what holds of the state in each case, so what a program leaves behind when it dies is part of its
specification.
-/

/-- Why a program does not return. -/
inductive Stop (ε : Type*)
  | raised (error : ε)
  | died

/-- A program that asks `ω`, changes `σ`, raises `ε` and returns `α`. -/
def Program (ω σ ε α : Type*) := ω → σ → Except (Stop ε) α × ω × σ

namespace Program

variable {ω σ ε : Type*}

instance : Monad (Program ω σ ε) where
  pure a := fun w s => (.ok a, w, s)
  bind x f := fun w s =>
    match x w s with
    | (.ok a, w, s) => f a w s
    | (.error stop, w, s) => (.error stop, w, s)

def raise {α : Type*} (e : ε) : Program ω σ ε α := fun w s => (.error (.raised e), w, s)

def get : Program ω σ ε σ := fun w s => (.ok s, w, s)

def modify (f : σ → σ) : Program ω σ ε Unit := fun w s => (.ok (), w, f s)

/-- The next answer of the environment. -/
def ask {α : Type*} (next : ω → Option (α × ω)) : Program ω σ ε α := fun w s =>
  match next w with
  | some (a, w) => (.ok a, w, s)
  | none => (.error .died, w, s)

/-- The result of a computation that has no effect. -/
def ofExcept {α : Type*} : Except ε α → Program ω σ ε α
  | .ok a => pure a
  | .error e => raise e

/-- An error that is raised becomes a result. Nothing brings back a program that died. -/
def attempt {α : Type*} (x : Program ω σ ε α) : Program ω σ ε (Except ε α) := fun w s =>
  match x w s with
  | (.ok a, w, s) => (.ok (.ok a), w, s)
  | (.error (.raised e), w, s) => (.ok (.error e), w, s)
  | (.error .died, w, s) => (.error .died, w, s)

/-! ## Triples -/

/-- From a state with `P` the program returns with `Q`, or it stops with `S`. -/
def Triple {α : Type*} (P : σ → Prop) (x : Program ω σ ε α) (Q : α → σ → Prop)
    (S : Stop ε → σ → Prop) : Prop :=
  ∀ w s, P s →
    match x w s with
    | (.ok a, _, s) => Q a s
    | (.error stop, _, s) => S stop s

section Rules

variable {α β : Type*} {P P' : σ → Prop} {x : Program ω σ ε α} {Q Q' : α → σ → Prop}
  {R : β → σ → Prop} {S S' : Stop ε → σ → Prop}

theorem Triple.consequence (h : Triple P x Q S) (hp : ∀ s, P' s → P s)
    (hq : ∀ a s, Q a s → Q' a s) (hs : ∀ stop s, S stop s → S' stop s) : Triple P' x Q' S' := by
  intro w s hP
  have hx := h w s (hp s hP)
  split at hx
  · exact hq _ _ hx
  · exact hs _ _ hx

theorem Triple.weaken (h : Triple P x Q S) (hp : ∀ s, P' s → P s) : Triple P' x Q S :=
  h.consequence hp (fun _ _ hq => hq) (fun _ _ hs => hs)

theorem Triple.strengthen (h : Triple P x Q S) (hq : ∀ a s, Q a s → Q' a s) : Triple P x Q' S :=
  h.consequence (fun _ hp => hp) hq (fun _ _ hs => hs)

/-- A fact that does not depend on the state may be taken out of the precondition. -/
theorem Triple.of_pure {φ : Prop} (h : φ → Triple P x Q S) : Triple (fun s => φ ∧ P s) x Q S := by
  intro w s hP
  exact h hP.1 w s hP.2

/-- A triple for each state that the program may begin in. -/
theorem Triple.of_state (h : ∀ s, P s → Triple (fun t => t = s) x Q S) : Triple P x Q S := by
  intro w s hP
  exact h s hP w s rfl

/-- What holds however the program ends. -/
theorem Triple.finally {I : σ → Prop} (h : Triple P x Q S) (hq : ∀ a s, Q a s → I s)
    (hs : ∀ stop s, S stop s → I s) {w : ω} {s : σ} (hP : P s) : I (x w s).2.2 := by
  have hx := h w s hP
  split at hx
  · rename_i heq
    rw [heq]
    exact hq _ _ hx
  · rename_i heq
    rw [heq]
    exact hs _ _ hx

theorem Triple.pure {a : α} (h : ∀ s, P s → Q a s) :
    Triple P (Pure.pure a : Program ω σ ε α) Q S := by
  intro w s hP
  exact h s hP

theorem Triple.raise {e : ε} (h : ∀ s, P s → S (.raised e) s) :
    Triple P (Program.raise e : Program ω σ ε α) Q S := by
  intro w s hP
  exact h s hP

theorem Triple.get {Q : σ → σ → Prop} (h : ∀ s, P s → Q s s) :
    Triple P (Program.get : Program ω σ ε σ) Q S := by
  intro w s hP
  exact h s hP

theorem Triple.modify {f : σ → σ} {Q : Unit → σ → Prop} (h : ∀ s, P s → Q () (f s)) :
    Triple P (Program.modify f : Program ω σ ε Unit) Q S := by
  intro w s hP
  exact h s hP

theorem Triple.ask {next : ω → Option (α × ω)} (hq : ∀ a s, P s → Q a s)
    (hs : ∀ s, P s → S .died s) : Triple P (Program.ask next : Program ω σ ε α) Q S := by
  intro w s hP
  rw [Program.ask]
  cases next w with
  | none => exact hs s hP
  | some answer => exact hq _ s hP

theorem Triple.ofExcept {r : Except ε α} (hq : ∀ a s, r = .ok a → P s → Q a s)
    (hs : ∀ e s, P s → S (.raised e) s) :
    Triple P (Program.ofExcept r : Program ω σ ε α) Q S := by
  cases r with
  | ok a => exact Triple.pure fun s => hq a s rfl
  | error e => exact Triple.raise (hs e)

end Rules

section Sequence

universe u

variable {α β : Type u} {P : σ → Prop} {x : Program ω σ ε α} {f : α → Program ω σ ε β}
  {Q : α → σ → Prop} {R : β → σ → Prop} {S T : Stop ε → σ → Prop}

theorem Triple.bind (hx : Triple P x Q S) (hf : ∀ a, Triple (Q a) (f a) R S) :
    Triple P (x >>= f) R S := by
  intro w s hP
  have h := hx w s hP
  show match (match x w s with
    | (.ok a, w, s) => f a w s
    | (.error stop, w, s) => (.error stop, w, s)) with
    | (.ok b, _, s) => R b s
    | (.error stop, _, s) => S stop s
  split at h
  · rename_i heq
    rw [heq]
    exact hf _ _ _ h
  · rename_i heq
    rw [heq]
    exact h

theorem Triple.attempt {Q : Except ε α → σ → Prop} (hx : Triple P x (fun a => Q (.ok a)) S)
    (hr : ∀ e s, S (.raised e) s → Q (.error e) s) (hd : ∀ s, S .died s → T .died s) :
    Triple P x.attempt Q T := by
  intro w s hP
  have h := hx w s hP
  rw [Program.attempt]
  split at h
  · rename_i heq
    rw [heq]
    exact h
  · rename_i stop _ s' heq
    rw [heq]
    cases stop with
    | raised e => exact hr e s' h
    | died => exact hd s' h

end Sequence

section Loops

universe u

variable {β : Type*} {γ : Type u} {S : Stop ε → σ → Prop}

/-- A loop whose invariant speaks of the items that are done. -/
theorem Triple.forM {body : β → Program ω σ ε PUnit} (I : List β → σ → Prop) (xs : List β)
    (hbody : ∀ done x rest, xs = done ++ x :: rest →
      Triple (I done) (body x) (fun _ => I (done ++ [x])) S) :
    Triple (I []) (xs.forM body) (fun _ => I xs) S := by
  -- The items before the rest are done, so the induction is on the rest.
  have hrest : ∀ rest done, xs = done ++ rest →
      Triple (I done) (rest.forM body) (fun _ => I xs) S := by
    intro rest
    induction rest with
    | nil =>
      intro done hxs
      rw [List.append_nil] at hxs
      rw [hxs]
      exact Triple.pure fun _ h => h
    | cons x rest ih =>
      intro done hxs
      show Triple (I done) (body x >>= fun _ => rest.forM body) (fun _ => I xs) S
      refine Triple.bind (hbody done x rest hxs) fun _ => ih (done ++ [x]) ?_
      rw [hxs, List.append_assoc, List.singleton_append]
  exact hrest xs [] rfl

/-- The same for a loop with an accumulator. -/
theorem Triple.foldlM {body : γ → β → Program ω σ ε γ} (I : List β → γ → σ → Prop) (xs : List β)
    {start : γ} (hbody : ∀ done x rest acc, xs = done ++ x :: rest →
      Triple (I done acc) (body acc x) (I (done ++ [x])) S) :
    Triple (I [] start) (xs.foldlM body start) (I xs) S := by
  have hrest : ∀ rest done acc, xs = done ++ rest →
      Triple (I done acc) (rest.foldlM body acc) (I xs) S := by
    intro rest
    induction rest with
    | nil =>
      intro done acc hxs
      rw [List.append_nil] at hxs
      rw [hxs]
      exact Triple.pure fun _ h => h
    | cons x rest ih =>
      intro done acc hxs
      rw [List.foldlM_cons]
      refine Triple.bind (hbody done x rest acc hxs) fun acc => ih (done ++ [x]) acc ?_
      rw [hxs, List.append_assoc, List.singleton_append]
  exact hrest xs [] start rfl

end Loops

end Program
