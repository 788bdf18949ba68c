import Btfind.Library.KeyedTable

/-!
# Keys in quarantine

A pool of open requests under keys. A key whose request is closed stays retired for a
while, and a key is free when it is neither pending nor retired. Whatever the order of
the operations, a key that is issued again was closed long before.
-/

namespace Quarantine

/-- What happened to a request, and when. -/
inductive Action (K V O : Type*)
  | issued (k : K) (v : V) (time : Nat)
  | resolved (k : K) (v : V) (outcome : O) (time : Nat)

namespace Action

variable {K V O : Type*}

def key : Action K V O → K
  | .issued k _ _ => k
  | .resolved k _ _ _ => k

def time : Action K V O → Nat
  | .issued _ _ time => time
  | .resolved _ _ _ time => time

/-- The request that an action opens. -/
def request? : Action K V O → Option V
  | .issued _ v _ => some v
  | .resolved _ _ _ _ => none

end Action

/-- The history has the newest action first. -/
structure Pool (K V O : Type*) where
  clock : Nat
  pending : KeyedTable K V
  retired : KeyedTable K Nat
  history : List (Action K V O)

namespace Pool

variable {K V O : Type*} [DecidableEq K]

omit [DecidableEq K] in
def empty (clock : Nat) : Pool K V O := ⟨clock, ∅, ∅, []⟩

def advance (elapsed : Nat) (p : Pool K V O) : Pool K V O := { p with clock := p.clock + elapsed }

/-- Release the keys whose quarantine is over. -/
def sweep (p : Pool K V O) : Pool K V O :=
  { p with retired := p.retired.keep fun _ reusableAt => p.clock < reusableAt }

def issue (k : K) (v : V) (p : Pool K V O) : Pool K V O :=
  { p with
    pending := p.pending.insert k v
    history := .issued k v p.clock :: p.history }

/-- Close a request, and retire its key. -/
def resolve (quarantine : Nat) (k : K) (v : V) (outcome : O) (p : Pool K V O) : Pool K V O :=
  { p with
    pending := p.pending.erase k
    retired := p.retired.insert k (p.clock + quarantine)
    history := .resolved k v outcome p.clock :: p.history }

/-- A key that is neither pending nor retired. -/
def Free (p : Pool K V O) (k : K) : Prop := p.pending.lookup k = none ∧ p.retired.lookup k = none

instance (p : Pool K V O) (k : K) : Decidable (p.Free k) :=
  inferInstanceAs (Decidable (_ = none ∧ _ = none))

/-- The newest action on a key. -/
def latest (k : K) (history : List (Action K V O)) : Option (Action K V O) :=
  history.find? fun a => a.key = k

/-- What the newest action on a key says about the key. -/
inductive Status (quarantine : Nat) (p : Pool K V O) (k : K) : Option (Action K V O) → Prop
  | fresh (hp : p.pending.lookup k = none) (hr : p.retired.lookup k = none) :
      Status quarantine p k none
  | live {v : V} {time : Nat} (hp : p.pending.lookup k = some v) (hr : p.retired.lookup k = none) :
      Status quarantine p k (some (.issued k v time))
  | closed {v : V} {outcome : O} {time : Nat} (hp : p.pending.lookup k = none)
      (hr : p.retired.lookup k = some (time + quarantine) ∨
        p.retired.lookup k = none ∧ time + quarantine ≤ p.clock) :
      Status quarantine p k (some (.resolved k v outcome time))

/-- A request is issued under a key only when all of the quarantine has passed since
the latest request under it was closed. -/
def Spaced (quarantine : Nat) : List (Action K V O) → Prop
  | [] => True
  | .issued k _ time :: history =>
    (∀ a, latest k history = some a →
      ∃ v outcome closed, a = .resolved k v outcome closed ∧ closed + quarantine ≤ time) ∧
      Spaced quarantine history
  | .resolved k v _ _ :: history =>
    (∃ opened, latest k history = some (.issued k v opened)) ∧ Spaced quarantine history

structure Sound (quarantine : Nat) (p : Pool K V O) : Prop where
  status : ∀ k, Status quarantine p k (latest k p.history)
  ordered : p.history.Pairwise fun a b => b.time ≤ a.time
  past : ∀ a ∈ p.history, a.time ≤ p.clock
  spaced : Spaced quarantine p.history

variable {quarantine : Nat} {p : Pool K V O} {k : K} {v : V} {outcome : O}

theorem Status.congr {p' : Pool K V O} {a : Option (Action K V O)} (h : Status quarantine p k a)
    (hpending : p'.pending.lookup k = p.pending.lookup k)
    (hretired : p'.retired.lookup k = p.retired.lookup k) (hclock : p.clock ≤ p'.clock) :
    Status quarantine p' k a := by
  cases h with
  | fresh hp hr => exact .fresh (hpending.trans hp) (hretired.trans hr)
  | live hp hr => exact .live (hpending.trans hp) (hretired.trans hr)
  | closed hp hr =>
    refine .closed (hpending.trans hp) ?_
    rw [hretired]
    exact hr.imp_right fun ⟨hr, hle⟩ => ⟨hr, hle.trans hclock⟩

omit [DecidableEq K] in
theorem pairwise_cons {a : Action K V O} {history : List (Action K V O)} {clock : Nat}
    (ha : a.time = clock) (hpast : ∀ b ∈ history, b.time ≤ clock)
    (h : history.Pairwise fun a b => b.time ≤ a.time) :
    (a :: history).Pairwise fun a b => b.time ≤ a.time :=
  List.pairwise_cons.mpr ⟨fun b hb => ha ▸ hpast b hb, h⟩

theorem sound_empty (quarantine clock : Nat) : (empty clock : Pool K V O).Sound quarantine where
  status := fun _ => .fresh rfl rfl
  ordered := .nil
  past := nofun
  spaced := trivial

theorem Sound.advance (h : p.Sound quarantine) (elapsed : Nat) :
    (p.advance elapsed).Sound quarantine where
  status := fun k => (h.status k).congr rfl rfl (Nat.le_add_right _ _)
  ordered := h.ordered
  past := fun a ha => (h.past a ha).trans (Nat.le_add_right _ _)
  spaced := h.spaced

theorem Sound.sweep (h : p.Sound quarantine) : p.sweep.Sound quarantine where
  status := by
    intro k
    have hk := h.status k
    have hlookup : p.sweep.retired.lookup k =
        (p.retired.lookup k).filter fun reusableAt => decide (p.clock < reusableAt) :=
      AList.lookup_keep
    show Status quarantine p.sweep k (latest k p.history)
    generalize latest k p.history = a at hk ⊢
    cases hk with
    | fresh hp hr => exact .fresh hp (by rw [hlookup, hr]; rfl)
    | live hp hr => exact .live hp (by rw [hlookup, hr]; rfl)
    | @closed v outcome time hp hr =>
      refine .closed hp ?_
      rw [hlookup]
      rcases hr with hr | ⟨hr, hle⟩
      · rw [hr]
        -- The sweep takes the key out only when its quarantine is over.
        by_cases hlt : p.clock < time + quarantine
        · exact .inl (by simp [hlt])
        · exact .inr ⟨by simpa using hlt, Nat.not_lt.mp hlt⟩
      · exact .inr ⟨by rw [hr]; rfl, hle⟩
  ordered := h.ordered
  past := h.past
  spaced := h.spaced

theorem latest_cons (a : Action K V O) (history : List (Action K V O)) (k : K) :
    latest k (a :: history) = if a.key = k then some a else latest k history := by
  unfold latest
  rw [List.find?_cons]
  by_cases h : a.key = k <;> simp [h]

theorem Sound.issue (h : p.Sound quarantine) (hfree : p.Free k) :
    (p.issue k v).Sound quarantine where
  status := by
    intro k'
    show Status quarantine (p.issue k v) k' (latest k' (.issued k v p.clock :: p.history))
    rw [latest_cons, Action.key]
    by_cases hk : k = k'
    · subst hk
      rw [if_pos rfl]
      exact .live (AList.lookup_insert p.pending) hfree.2
    · rw [if_neg hk]
      exact (h.status k').congr (AList.lookup_insert_ne (Ne.symm hk)) rfl (Nat.le_refl _)
  ordered := pairwise_cons rfl h.past h.ordered
  past := List.forall_mem_cons.mpr ⟨Nat.le_refl _, h.past⟩
  spaced := by
    -- The key is free, so its latest request was closed and its quarantine is over.
    refine ⟨fun a ha => ?_, h.spaced⟩
    have hk := h.status k
    rw [ha] at hk
    cases hk with
    | live hp hr =>
      rw [hfree.1] at hp
      cases hp
    | @closed v outcome time hp hr =>
      rcases hr with hr | ⟨-, hle⟩
      · rw [hfree.2] at hr
        cases hr
      · exact ⟨v, outcome, time, rfl, hle⟩

theorem Sound.latest_of_pending (h : p.Sound quarantine) (hpending : p.pending.lookup k = some v) :
    ∃ opened, latest k p.history = some (.issued k v opened) := by
  have hk := h.status k
  generalize latest k p.history = a at hk ⊢
  cases hk with
  | fresh hp hr =>
    rw [hpending] at hp
    cases hp
  | @live v' time hp hr =>
    rw [hpending] at hp
    cases hp
    exact ⟨time, rfl⟩
  | closed hp hr =>
    rw [hpending] at hp
    cases hp

theorem Sound.resolve (h : p.Sound quarantine) (hpending : p.pending.lookup k = some v) :
    (p.resolve quarantine k v outcome).Sound quarantine where
  status := by
    intro k'
    show Status quarantine (p.resolve quarantine k v outcome) k'
      (latest k' (.resolved k v outcome p.clock :: p.history))
    rw [latest_cons, Action.key]
    by_cases hk : k = k'
    · subst hk
      rw [if_pos rfl]
      exact .closed (AList.lookup_erase k p.pending) (.inl (AList.lookup_insert p.retired))
    · rw [if_neg hk]
      exact (h.status k').congr (AList.lookup_erase_ne (Ne.symm hk))
        (AList.lookup_insert_ne (Ne.symm hk)) (Nat.le_refl _)
  ordered := pairwise_cons rfl h.past h.ordered
  past := List.forall_mem_cons.mpr ⟨Nat.le_refl _, h.past⟩
  spaced := ⟨h.latest_of_pending hpending, h.spaced⟩

/-- No key is pending and retired. -/
theorem Sound.disjoint (h : p.Sound quarantine) (k : K) :
    p.pending.lookup k = none ∨ p.retired.lookup k = none := by
  have hk := h.status k
  generalize latest k p.history = a at hk
  cases hk with
  | fresh hp hr => exact .inl hp
  | live hp hr => exact .inr hr
  | closed hp hr => exact .inl hp

/-! ## Reuse -/

theorem Spaced.tail {a : Action K V O} {history : List (Action K V O)}
    (h : Spaced quarantine (a :: history)) : Spaced quarantine history := by
  cases a <;> exact h.2

theorem Spaced.append {newer history : List (Action K V O)}
    (h : Spaced quarantine (newer ++ history)) : Spaced quarantine history := by
  induction newer with
  | nil => exact h
  | cons a newer ih => exact ih h.tail

theorem latest_append_issued (between : List (Action K V O)) (k : K) (v : V) (time : Nat)
    (older : List (Action K V O)) :
    ∃ a, latest k (between ++ .issued k v time :: older) = some a ∧
      (a = .issued k v time ∨ a ∈ between) := by
  induction between with
  | nil => exact ⟨_, by rw [List.nil_append, latest_cons]; exact if_pos rfl, .inl rfl⟩
  | cons b between ih =>
    rw [List.cons_append, latest_cons]
    split
    · exact ⟨b, rfl, .inr List.mem_cons_self⟩
    · obtain ⟨a, ha, hmem⟩ := ih
      exact ⟨a, ha, hmem.imp_right (List.mem_cons_of_mem _)⟩

/-- The first action on a key after a request is issued under it closes that request. -/
theorem Spaced.closes {between older : List (Action K V O)} {opened : Nat}
    (h : Spaced quarantine (between ++ .issued k v opened :: older))
    (hbetween : ∃ a ∈ between, a.key = k) :
    ∃ outcome closed, .resolved k v outcome closed ∈ between := by
  induction between with
  | nil =>
    obtain ⟨a, ha, -⟩ := hbetween
    cases ha
  | cons b between ih =>
    -- Only the oldest action on the key matters: the newer ones are peeled off.
    by_cases hrest : ∃ a ∈ between, a.key = k
    · obtain ⟨outcome, closed, hmem⟩ := ih h.tail hrest
      exact ⟨outcome, closed, List.mem_cons_of_mem _ hmem⟩
    · have hb : b.key = k := by
        obtain ⟨a, ha, hak⟩ := hbetween
        rcases List.mem_cons.mp ha with rfl | ha
        · exact hak
        · exact absurd ⟨a, ha, hak⟩ hrest
      have hlatest : latest k (between ++ .issued k v opened :: older) =
          some (.issued k v opened) := by
        obtain ⟨a, ha, hmem⟩ := latest_append_issued between k v opened older
        rcases hmem with rfl | hmem
        · exact ha
        · refine absurd ⟨a, hmem, ?_⟩ hrest
          simpa using List.find?_some ha
      cases b with
      | issued k' v' time =>
        obtain rfl : k' = k := hb
        obtain ⟨_, _, _, heq, _⟩ := h.1 _ hlatest
        cases heq
      | resolved k' v' outcome closed =>
        obtain rfl : k' = k := hb
        obtain ⟨opened', heq⟩ := h.1
        cases hlatest.symm.trans heq
        exact ⟨outcome, closed, List.mem_cons_self⟩

/-- Of two requests under one key the older was closed, all of the quarantine before
the newer was issued. -/
theorem Sound.reuse (h : p.Sound quarantine) {newer between older : List (Action K V O)}
    {v₁ v₂ : V} {t₁ t₂ : Nat}
    (hhistory : p.history = newer ++ .issued k v₂ t₂ :: (between ++ .issued k v₁ t₁ :: older)) :
    ∃ outcome closed, .resolved k v₁ outcome closed ∈ between ∧ closed + quarantine ≤ t₂ ∧
      ∀ a ∈ newer, closed + quarantine ≤ a.time := by
  have hspaced := h.spaced
  have hordered := h.ordered
  rw [hhistory] at hspaced hordered
  have hissued := hspaced.append
  have hbetween : ∃ a ∈ between, a.key = k := by
    obtain ⟨a, ha, hmem⟩ := latest_append_issued between k v₁ t₁ older
    obtain ⟨_, _, _, rfl, _⟩ := hissued.1 a ha
    rcases hmem with heq | hmem
    · cases heq
    · exact ⟨_, hmem, rfl⟩
  obtain ⟨outcome, closed, hclosed⟩ := hissued.tail.closes hbetween
  have hlate : closed + quarantine ≤ t₂ := by
    -- The newest action on the key closed a request, no earlier than this one was closed.
    obtain ⟨a, ha, -⟩ := latest_append_issued between k v₁ t₁ older
    obtain ⟨v, o, latestClosed, rfl, hle⟩ := hissued.1 a ha
    have hsuffix := (List.pairwise_append.mp hordered).2.1
    have hrest := (List.pairwise_cons.mp hsuffix).2
    have hfirst : closed ≤ latestClosed := by
      rw [latest] at ha
      obtain ⟨-, before, after, heq, hnone⟩ := List.find?_eq_some_iff_append.mp ha
      have hmem : (.resolved k v₁ outcome closed : Action K V O) ∈
          before ++ .resolved k v o latestClosed :: after :=
        heq ▸ List.mem_append_left _ hclosed
      rcases List.mem_append.mp hmem with hmem | hmem
      · have hkey := hnone _ hmem
        simp [Action.key] at hkey
      · rcases List.mem_cons.mp hmem with heq' | hmem
        · cases heq'
          exact Nat.le_refl _
        · rw [heq] at hrest
          exact (List.pairwise_cons.mp (List.pairwise_append.mp hrest).2.1).1 _ hmem
    omega
  refine ⟨outcome, closed, hclosed, hlate, fun a ha => ?_⟩
  have hnewer := (List.pairwise_append.mp hordered).2.2 a ha _ List.mem_cons_self
  exact hlate.trans hnewer

end Pool

end Quarantine
