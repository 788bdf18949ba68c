import Btfind.Persistence.DiscoveryReceipt

/-!
# Every discovery is persisted once

Until a transaction of the request takes effect there is no row under its
receipt. From then on the row holds the outcome, so a later attempt finds it or
fails on the duplicate key, until the client has the outcome and removes it.
-/

namespace Btfind

open Transaction

/-- The effects on the catalogue: transactions of the request, by their clocks,
and whatever other tasks do. -/
abbrev DiscoveryEffect := Effect Int (Catalogue → Catalogue)

namespace DiscoveryEffect

/-- The discovery is recorded in the catalogue and its outcome noted. -/
def applyDiscovery (req : PersistRequest) (now : Int)
    (acc : Catalogue × List DiscoveryPersistence) : Catalogue × List DiscoveryPersistence :=
  let recorded := recordDiscovery now req.hash req.source req.peers req.limit acc.1
  (recorded.2, acc.2 ++ [recorded.1])

def applyOther (effect : Catalogue → Catalogue) (acc : Catalogue × List DiscoveryPersistence) :
    Catalogue × List DiscoveryPersistence :=
  (effect acc.1, acc.2)

def applyAll (req : PersistRequest) (log : List DiscoveryEffect) (start : Catalogue) :
    Catalogue × List DiscoveryPersistence :=
  Effect.applyAll (applyDiscovery req) applyOther log (start, [])

@[simp] theorem applyAll_snoc_own (req : PersistRequest) (log : List DiscoveryEffect)
    (now : Int) (start : Catalogue) :
    applyAll req (log ++ [.own now]) start = applyDiscovery req now (applyAll req log start) :=
  Effect.applyAll_snoc_own log now _

@[simp] theorem applyAll_snoc_other (req : PersistRequest) (log : List DiscoveryEffect)
    (effect : Catalogue → Catalogue) (start : Catalogue) :
    applyAll req (log ++ [.other effect]) start = applyOther effect (applyAll req log start) :=
  Effect.applyAll_snoc_other log effect _

end DiscoveryEffect

/-- The effects of the other tasks in a run, in order. -/
def PersistEvent.others (events : List PersistEvent) : List (Catalogue → Catalogue) :=
  events.filterMap fun
    | .elsewhere effect _ => some effect
    | _ => none

namespace PersistTask

variable {req : PersistRequest} {started : Int} {t t' : PersistTask}

/-- The row of the receipt holds an outcome and is inside the retention. -/
def Stored (req : PersistRequest) (started : Int) (persisted : DiscoveryPersistence)
    (t : PersistTask) : Prop :=
  ∃ row, t.store.persistenceReceipts.lookup req.receipt = some row ∧
    row.result = some (.discovery persisted) ∧ ∃ ack, row.acknowledgedAt = some ack ∧ started ≤ ack

/-- No transaction of the request has taken effect. -/
structure Pending (req : PersistRequest) (t : PersistTask) : Prop where
  committed : t.committed = []
  receipt : t.store.persistenceReceipts.lookup req.receipt = none
  phase : t.phase = .ready ∨ t.phase = .looked

/-- One transaction has taken effect, with an outcome that is stored or returned. -/
structure Done (req : PersistRequest) (started : Int) (persisted : DiscoveryPersistence)
    (t : PersistTask) : Prop where
  committed : t.committed = [persisted]
  doubt : t.doubt = none
  phase : t.phase = .returned persisted ∨
    Stored req started persisted t ∧
      (t.phase = .ready ∨ t.phase = .looked ∨ t.phase = .cleaning persisted)

theorem tx_of_free {s : Store} (h : s.persistenceReceipts.lookup req.receipt = none)
    (now : Int) : req.tx now s = .ok
      ((recordDiscovery now req.hash req.source req.peers req.limit s.catalogue).1,
        { catalogue :=
            (recordDiscovery now req.hash req.source req.peers req.limit s.catalogue).2
          persistenceReceipts := s.persistenceReceipts.insert req.receipt
            ⟨now, some now, some (.discovery
              (recordDiscovery now req.hash req.source req.peers req.limit s.catalogue).1)⟩ }) := by
  rw [PersistRequest.tx, persistDiscoveryTx, persistDiscoveryBy]
  rw [h]
  rfl

theorem tx_of_stored {s : Store} {row : ReceiptRow}
    (h : s.persistenceReceipts.lookup req.receipt = some row) (now : Int) :
    req.tx now s = .error duplicateReceipt := by
  rw [PersistRequest.tx, persistDiscoveryTx, persistDiscoveryBy]
  rw [h]

/-- A transaction on a free receipt that takes effect stores its outcome. -/
theorem tx_stored {s s' : Store} {now : Int} {persisted : DiscoveryPersistence}
    (h : req.tx now s = .ok (persisted, s')) :
    s.persistenceReceipts.lookup req.receipt = none ∧
      persisted = (recordDiscovery now req.hash req.source req.peers req.limit s.catalogue).1 ∧
      s'.catalogue = (recordDiscovery now req.hash req.source req.peers req.limit s.catalogue).2 ∧
      s'.persistenceReceipts.lookup req.receipt =
        some ⟨now, some now, some (.discovery persisted)⟩ := by
  cases hrow : s.persistenceReceipts.lookup req.receipt with
  | some row =>
    rw [tx_of_stored hrow] at h
    cases h
  | none =>
    rw [tx_of_free hrow] at h
    cases h
    exact ⟨rfl, rfl, rfl, AList.lookup_insert _⟩

/-- A prune inside the retention leaves the stored row. -/
theorem Stored.prune {persisted : DiscoveryPersistence} {now : Int}
    (h : Stored req started persisted t) (hclock : now ≤ started + 7 * 86400)
    (picked : Uuid → Bool) (fate : Fate StoreError) :
    Stored req started persisted
      { t with store := (transact fate (Btfind.pruneReceiptsTx now picked) t.store).2 } := by
  obtain ⟨row, hrow, hresult, ack, hack, hle⟩ := h
  refine ⟨row, ?_, hresult, ack, hack, hle⟩
  refine transact_invariant
    (I := fun s : Store => s.persistenceReceipts.lookup req.receipt = some row) hrow ?_
  intro _ s' hs
  cases hs
  simp only [AList.lookup_keep, hrow, Option.filter_some, hack, Option.any_some]
  simp only [Bool.not_and, Option.ite_none_right_eq_some, Bool.or_eq_true, Bool.not_eq_true',
    decide_eq_false_iff_not, and_true]
  exact Or.inr (by omega)

theorem prune_free {now : Int} (picked : Uuid → Bool) (fate : Fate StoreError) {s : Store}
    (h : s.persistenceReceipts.lookup req.receipt = none) :
    (transact fate (Btfind.pruneReceiptsTx now picked) s).2.persistenceReceipts.lookup
      req.receipt = none := by
  refine transact_invariant
    (I := fun s : Store => s.persistenceReceipts.lookup req.receipt = none) h ?_
  intro _ s' hs
  cases hs
  simp [AList.lookup_keep, h]

theorem prune_catalogue {now : Int} (picked : Uuid → Bool) (fate : Fate StoreError) (s : Store) :
    (transact fate (Btfind.pruneReceiptsTx now picked) s).2.catalogue = s.catalogue :=
  transact_invariant (I := fun s' : Store => s'.catalogue = s.catalogue) rfl
    fun _ _ hs => by cases hs; rfl

/-- Taking effect turns a pending request into a done one, by one effect. -/
theorem Pending.commit {s' : Store} {now : Int} {persisted : DiscoveryPersistence}
    {log : List DiscoveryEffect} {start : Catalogue} (phase : PersistPhase)
    (h : Pending req t) (hclock : started ≤ now)
    (hlog : DiscoveryEffect.applyAll req log start = (t.store.catalogue, t.committed))
    (hbody : req.tx now t.store = .ok (persisted, s'))
    (hphase : phase = .ready ∨ phase = .looked ∨ phase = .cleaning persisted) :
    Done req started persisted ⟨s', phase, none, t.committed ++ [persisted]⟩ ∧
      DiscoveryEffect.applyAll req (log ++ [.own now]) start =
        (s'.catalogue, t.committed ++ [persisted]) := by
  obtain ⟨-, hp, hc, hrow⟩ := tx_stored hbody
  refine ⟨⟨?_, rfl, Or.inr ⟨⟨_, hrow, rfl, now, rfl, hclock⟩, hphase⟩⟩, ?_⟩
  · rw [h.committed, List.nil_append]
  · rw [DiscoveryEffect.applyAll_snoc_own, hlog, hc, hp]
    rfl

/-- The state of the request and the log that explains the catalogue. -/
structure Inv (req : PersistRequest) (started : Int) (start : Catalogue)
    (log : List DiscoveryEffect) (t : PersistTask) : Prop where
  clock : ∀ now, t.doubt = some now → started ≤ now
  explained : DiscoveryEffect.applyAll req log start = (t.store.catalogue, t.committed)
  stage : Pending req t ∨ ∃ persisted, Done req started persisted t

/-- Removing the receipt leaves the catalogue. -/
theorem remove_catalogue (receipt : Uuid) (fate : Fate StoreError) (s : Store) :
    (transact fate (removeReceiptTx receipt) s).2.catalogue = s.catalogue :=
  transact_invariant (I := fun s' : Store => s'.catalogue = s.catalogue) rfl
    fun _ _ hs => by cases hs; rfl

/-- A request that is done stays done, with the same outcome and no further effect. -/
theorem Done.step {e : PersistEvent} {persisted : DiscoveryPersistence}
    (h : Done req started persisted t) (hs : Step req started t e t') :
    Done req started persisted t' ∧ t'.committed = t.committed ∧
      ((∃ effect receipts, e = .elsewhere effect receipts ∧
          t'.store.catalogue = effect t.store.catalogue) ∨
        PersistEvent.others [e] = [] ∧ t'.store.catalogue = t.store.catalogue) := by
  cases hs with
  | lookupFailed hphase => exact ⟨h, rfl, Or.inr ⟨rfl, rfl⟩⟩
  | lookedUp hphase =>
    obtain hret | ⟨⟨row, hrow, hresult, -⟩, -⟩ := h.phase
    · rw [hret] at hphase
      cases hphase
    · have hfound : req.lookup t = { t with phase := .returned persisted } := by
        rw [PersistRequest.lookup, replayedDiscovery]
        simp only [hrow, hresult]
      rw [hfound]
      exact ⟨⟨h.committed, h.doubt, Or.inl rfl⟩, rfl, Or.inr ⟨rfl, rfl⟩⟩
  | attempted turn hphase hlock hclock =>
    obtain hret | ⟨hstored, -⟩ := h.phase
    · rw [hret] at hphase
      cases hphase
    · -- the duplicate key rolls the transaction back
      obtain ⟨row, hrow, -⟩ := id hstored
      have hdup := tx_of_stored hrow turn.now
      obtain ⟨e, hr⟩ | ⟨_, _, hb, -⟩ := transact_cases turn.fate (req.tx turn.now) t.store
      · have hkept : req.attempt turn t = { t with phase := .ready } := by
          rw [PersistRequest.attempt]
          simp only [hr, hdup]
          cases turn.fate <;> rfl
        rw [hkept]
        exact ⟨⟨h.committed, h.doubt, Or.inr ⟨hstored, Or.inl rfl⟩⟩, rfl, Or.inr ⟨rfl, rfl⟩⟩
      · rw [hdup] at hb
        cases hb
  | inDoubt hphase hlock hclock hbody =>
    obtain hret | ⟨⟨row, hrow, -⟩, -⟩ := h.phase
    · rw [hret] at hphase
      cases hphase
    · rw [tx_of_stored hrow] at hbody
      cases hbody
  | blocked hphase hlock =>
    rw [h.doubt] at hlock
    cases hlock
  | settled hlock =>
    rw [h.doubt] at hlock
    cases hlock
  | rolledBack hlock =>
    rw [h.doubt] at hlock
    cases hlock
  | removed fate hphase =>
    obtain hret | ⟨-, hready | hlooked | hclean⟩ := h.phase
    · rw [hret] at hphase
      cases hphase
    · rw [hready] at hphase
      cases hphase
    · rw [hlooked] at hphase
      cases hphase
    · rw [hclean] at hphase
      cases hphase
      exact ⟨⟨h.committed, h.doubt, Or.inl rfl⟩, rfl, Or.inr ⟨rfl, remove_catalogue _ fate _⟩⟩
  | pruned picked fate hclock =>
    refine ⟨⟨h.committed, h.doubt, ?_⟩, rfl, Or.inr ⟨rfl, prune_catalogue picked fate _⟩⟩
    exact h.phase.imp id fun ⟨hstored, hrest⟩ => ⟨hstored.prune hclock picked fate, hrest⟩
  | elsewhere effect receipts hother =>
    refine ⟨⟨h.committed, h.doubt, ?_⟩, rfl, Or.inl ⟨effect, receipts, rfl, rfl⟩⟩
    refine h.phase.imp id ?_
    rintro ⟨⟨row, hrow, hrest⟩, hphase⟩
    exact ⟨⟨row, hother.trans hrow, hrest⟩, hphase⟩

/-- Before a transaction takes effect, a step leaves the request pending or is the
effect itself. -/
theorem Pending.step {e : PersistEvent} {log : List DiscoveryEffect} {start : Catalogue}
    (h : Pending req t) (hdoubt : ∀ now, t.doubt = some now → started ≤ now)
    (hlog : DiscoveryEffect.applyAll req log start = (t.store.catalogue, t.committed))
    (hs : Step req started t e t') :
    ∃ log', Inv req started start log' t' ∧
      Effect.others log' = Effect.others log ++ PersistEvent.others [e] := by
  cases hs with
  | lookupFailed hphase => exact ⟨log, ⟨hdoubt, hlog, Or.inl h⟩, (List.append_nil _).symm⟩
  | lookedUp hphase =>
    -- The receipt is not stored, so there is nothing to replay.
    have hmiss : req.lookup t = { t with phase := .looked } := by
      rw [PersistRequest.lookup, replayedDiscovery]
      simp only [h.receipt]
    rw [hmiss]
    exact ⟨log, ⟨hdoubt, hlog, Or.inl ⟨h.committed, h.receipt, Or.inr rfl⟩⟩,
      (List.append_nil _).symm⟩
  | attempted turn hphase hlock hclock =>
    have hnone : ∀ now, (none : Option Int) = some now → started ≤ now := by simp
    have hbody := tx_of_free h.receipt turn.now
    cases hfate : turn.fate with
    | fails e =>
      refine ⟨log, ⟨?_, ?_, Or.inl ⟨?_, ?_, Or.inl ?_⟩⟩, (List.append_nil _).symm⟩ <;>
        simp only [PersistRequest.attempt, hfate, transact_fails]
      · exact hdoubt
      · exact hlog
      · exact h.committed
      · exact h.receipt
    | commits =>
      obtain ⟨hdone, hnext⟩ := h.commit (.cleaning _) hclock hlog hbody
        (Or.inr (Or.inr rfl))
      refine ⟨log ++ [.own turn.now], ?_, by
        rw [Effect.others_snoc_own]; exact (List.append_nil _).symm⟩
      simp only [PersistRequest.attempt, hfate, transact, hbody, hlock]
      exact ⟨hnone, hnext, Or.inr ⟨_, hdone⟩⟩
    | uncertain e =>
      -- The effect is there, though the caller saw an error.
      obtain ⟨hdone, hnext⟩ := h.commit .ready hclock hlog hbody (Or.inl rfl)
      refine ⟨log ++ [.own turn.now], ?_, by
        rw [Effect.others_snoc_own]; exact (List.append_nil _).symm⟩
      simp only [PersistRequest.attempt, hfate, transact, hbody, hlock]
      exact ⟨hnone, hnext, Or.inr ⟨_, hdone⟩⟩
  | inDoubt hphase hlock hclock hbody =>
    refine ⟨log, ⟨?_, hlog, Or.inl ⟨h.committed, h.receipt, Or.inl rfl⟩⟩,
      (List.append_nil _).symm⟩
    intro now hnow
    cases hnow
    exact hclock
  | blocked hphase hlock =>
    exact ⟨log, ⟨hdoubt, hlog, Or.inl ⟨h.committed, h.receipt, Or.inl rfl⟩⟩,
      (List.append_nil _).symm⟩
  | @settled now hlock =>
    -- The commit in doubt takes effect with the time of its attempt.
    have hbody := tx_of_free h.receipt now
    obtain ⟨hdone, hnext⟩ := h.commit t.phase (hdoubt now hlock) hlog hbody
      (h.phase.imp id Or.inl)
    refine ⟨log ++ [.own now], ?_, by
      rw [Effect.others_snoc_own]; exact (List.append_nil _).symm⟩
    simp only [PersistRequest.settle, hbody]
    exact ⟨by simp, hnext, Or.inr ⟨_, hdone⟩⟩
  | rolledBack hlock =>
    exact ⟨log, ⟨by simp, hlog, Or.inl ⟨h.committed, h.receipt, h.phase⟩⟩,
      (List.append_nil _).symm⟩
  | removed fate hphase =>
    -- A receipt is removed after the effect only.
    obtain hready | hlooked := h.phase
    · rw [hready] at hphase
      cases hphase
    · rw [hlooked] at hphase
      cases hphase
  | pruned picked fate hclock =>
    refine ⟨log, ⟨hdoubt, ?_, Or.inl ⟨h.committed, prune_free picked fate h.receipt, h.phase⟩⟩,
      (List.append_nil _).symm⟩
    rw [prune_catalogue]
    exact hlog
  | elsewhere effect receipts hother =>
    refine ⟨log ++ [.other effect], ⟨hdoubt, ?_,
      Or.inl ⟨h.committed, hother.trans h.receipt, h.phase⟩⟩, Effect.others_snoc_other log effect⟩
    rw [DiscoveryEffect.applyAll_snoc_other, hlog]
    rfl

/-- One step keeps the invariant. -/
theorem Step.inv {e : PersistEvent} {start : Catalogue} {log : List DiscoveryEffect}
    (hs : Step req started t e t') (h : Inv req started start log t) :
    ∃ log', Inv req started start log' t' ∧
      Effect.others log' = Effect.others log ++ PersistEvent.others [e] := by
  obtain hpending | ⟨persisted, hdone⟩ := h.stage
  · exact hpending.step h.clock h.explained hs
  · obtain ⟨hdone', hc, ⟨effect, receipts, rfl, hcat⟩ | ⟨hnone, hcat⟩⟩ := hdone.step hs
    · refine ⟨log ++ [.other effect], ⟨?_, ?_, Or.inr ⟨persisted, hdone'⟩⟩,
        Effect.others_snoc_other log effect⟩
      · simp [hdone'.doubt]
      · rw [DiscoveryEffect.applyAll_snoc_other, h.explained, hc, hcat]
        rfl
    · refine ⟨log, ⟨by simp [hdone'.doubt], ?_, Or.inr ⟨persisted, hdone'⟩⟩, ?_⟩
      · rw [h.explained, hc, hcat]
      · rw [hnone, List.append_nil]

/-- The state before the first attempt, with a receipt id that is in use nowhere. -/
structure Initial (req : PersistRequest) (t : PersistTask) : Prop where
  receipt : t.store.persistenceReceipts.lookup req.receipt = none
  phase : t.phase = .ready
  doubt : t.doubt = none
  committed : t.committed = []

theorem run_inv {t₀ : PersistTask} {events : List PersistEvent} (h₀ : t₀.Initial req)
    (h : Transition.Run (Step req started) t₀ events t) :
    ∃ log, Inv req started t₀.store.catalogue log t ∧
      Effect.others log = PersistEvent.others events := by
  induction h with
  | refl =>
    refine ⟨[], ⟨by simp [h₀.doubt], ?_, Or.inl ⟨h₀.committed, h₀.receipt, Or.inl h₀.phase⟩⟩, rfl⟩
    rw [h₀.committed]
    rfl
  | snoc _ hs ih =>
    obtain ⟨log, hinv, hothers⟩ := ih
    obtain ⟨log', hinv', hothers'⟩ := hs.inv hinv
    refine ⟨log', hinv', ?_⟩
    rw [hothers', hothers]
    simp [PersistEvent.others]

/-- The call as one function is the calls of an attempt that nothing interrupts. -/
theorem attempt_run {turn : Turn} {cleanup : Fate StoreError} (hphase : t.phase = .ready)
    (hlock : t.doubt = none) (hclock : started ≤ turn.now) :
    let call := persistHashDiscoveryWithReceipt none turn cleanup req.hash req.source req.peers
      req.limit req.receipt t.store
    ∃ events t', Transition.Run (Step req started) t events t' ∧ t'.store = call.2 ∧
      ∀ persisted, call.1 = .ok persisted → t'.phase = .returned persisted := by
  intro call
  have hlook : Transition.Run (Step req started) t [.lookedUp] (req.lookup t) :=
    (Transition.Run.refl t).snoc (.lookedUp hphase)
  simp only [call, persistHashDiscoveryWithReceipt]
  cases hfound : replayedDiscovery req.receipt t.store with
  | error e => exact ⟨[], t, .refl t, rfl, by simp⟩
  | ok found =>
    cases found with
    | some persisted =>
      refine ⟨_, _, hlook, ?_, ?_⟩ <;> simp [PersistRequest.lookup, hfound]
    | none =>
      have hlooked : req.lookup t = { t with phase := .looked } := by
        simp [PersistRequest.lookup, hfound]
      rw [hlooked] at hlook
      have hattempt := hlook.snoc (.attempted turn rfl hlock hclock)
      cases hr : transact turn.fate (persistDiscoveryTx turn.now req.hash req.source req.peers
          req.limit req.receipt) t.store with
      | mk result store =>
        cases result with
        | error e =>
          refine ⟨_, _, hattempt, ?_, by simp⟩
          simp [PersistRequest.attempt, PersistRequest.tx, hr]
        | ok persisted =>
          have hcleaning :
              (req.attempt turn { t with phase := .looked }).phase = .cleaning persisted := by
            simp [PersistRequest.attempt, PersistRequest.tx, hr]
          refine ⟨_, _, hattempt.snoc (.removed cleanup hcleaning), ?_, ?_⟩ <;>
            simp [PersistRequest.attempt, PersistRequest.tx, PersistRequest.remove, hr]

/-- In every run at most one transaction of the request takes effect, and exactly
one once the call has returned, which it does with the committed outcome. After
that transaction no attempt changes anything or returns another outcome. -/
theorem persisted_once {t₀ : PersistTask} {events : List PersistEvent} (h₀ : t₀.Initial req)
    (h : Transition.Run (Step req started) t₀ events t) :
    (∃ log, Effect.others log = PersistEvent.others events ∧
      DiscoveryEffect.applyAll req log t₀.store.catalogue = (t.store.catalogue, t.committed)) ∧
      t.committed.length ≤ 1 ∧
      (∀ persisted, t.phase = .returned persisted → t.committed = [persisted]) ∧
      ∀ persisted, t.committed = [persisted] →
        ∀ events' t', Transition.Run (Step req started) t events' t' →
          t'.committed = [persisted] ∧ ∀ other, t'.phase = .returned other → other = persisted := by
  obtain ⟨log, hinv, hothers⟩ := run_inv h₀ h
  refine ⟨⟨log, hothers, hinv.explained⟩, ?_, ?_, ?_⟩
  · obtain hpending | ⟨persisted, hdone⟩ := hinv.stage
    · simp [hpending.committed]
    · simp [hdone.committed]
  · intro persisted hret
    obtain hpending | ⟨persisted', hdone⟩ := hinv.stage
    · rcases hpending.phase with hp | hp <;> rw [hp] at hret <;> cases hret
    · rcases hdone.phase with hp | ⟨-, hp | hp | hp⟩ <;> rw [hp] at hret <;> cases hret
      exact hdone.committed
  · intro persisted hc events' t' hrun
    have hdone : Done req started persisted t := by
      obtain hpending | ⟨persisted', hdone⟩ := hinv.stage
      · rw [hpending.committed] at hc
        cases hc
      · have heq := hdone.committed
        rw [hc] at heq
        cases heq
        exact hdone
    have hdone' : Done req started persisted t' :=
      hrun.invariant (fun _ _ _ hd hs => (hd.step hs).1) hdone
    refine ⟨hdone'.committed, ?_⟩
    intro other hret
    rcases hdone'.phase with hp | ⟨-, hp | hp | hp⟩ <;> rw [hp] at hret <;> cases hret
    rfl

/-- A commit that takes effect after the next attempt has looked for the receipt; and the same
request in one call that nothing interrupts. -/
theorem persisted_once_late_commit :
    let req : PersistRequest := ⟨7, "announce_peer", [⟨⟨⟨10, 0, 0, 1⟩, 6881⟩⟩], 8, 1⟩
    let t₀ : PersistTask := ⟨.migrated, .ready, none, []⟩
    let looked : PersistTask := { t₀ with phase := .looked, doubt := some 5 }
    let settled := req.settle 5 looked
    let rejected := req.attempt ⟨6, 0, .commits⟩ settled
    let done := req.lookup rejected
    let call := persistHashDiscoveryWithReceipt none ⟨6, 0, .commits⟩ .commits req.hash req.source
      req.peers req.limit req.receipt t₀.store
    settled.committed.length = 1 ∧ (∃ persisted, done.phase = .returned persisted ∧
      persisted.peersInserted = 1 ∧ done.committed = [persisted]) ∧
      ∃ persisted events t, call.1 = .ok persisted ∧
        Transition.Run (PersistTask.Step req 5) t₀ events t ∧ t.committed = [persisted] := by
  intro req t₀ looked settled rejected done call
  have hdoubt : PersistTask.Step req 5 { t₀ with phase := .looked } _ { t₀ with doubt := some 5 } :=
    .inDoubt rfl rfl (le_refl 5) rfl
  have hsettled : PersistTask.Step req 5 looked _ settled := .settled rfl
  have hrun : Transition.Run (PersistTask.Step req 5) t₀ _ done :=
    (((((Transition.Run.refl t₀).snoc (.lookedUp rfl)).snoc hdoubt).snoc (.lookedUp rfl)).snoc
      hsettled).snoc (.attempted ⟨6, 0, .commits⟩ rfl rfl (by decide)) |>.snoc (.lookedUp rfl)
  have hcall : ∃ events t, Transition.Run (PersistTask.Step req 5) t₀ events t ∧ t.store = call.2 ∧
      ∀ persisted, call.1 = .ok persisted → t.phase = .returned persisted :=
    attempt_run rfl rfl (by decide)
  obtain ⟨events, t, hrun', -, hphase⟩ := hcall
  obtain ⟨-, -, hreturned, -⟩ := persisted_once ⟨rfl, rfl, rfl, rfl⟩ hrun
  obtain ⟨-, -, hreturned', -⟩ := persisted_once ⟨rfl, rfl, rfl, rfl⟩ hrun'
  exact ⟨rfl, ⟨_, rfl, rfl, hreturned _ rfl⟩, _, events, t, rfl, hrun', hreturned' _ (hphase _ rfl)⟩

end PersistTask

end Btfind
