import Btfind.Dht.RpcSteps

/-!
# Transaction ids

Every call is sent under an id that is neither pending nor in quarantine, and an id is
found whenever there is one.
-/

namespace Btfind

open Quarantine

variable {maxPending rpcTimeout : Nat} {request : RpcRequest} {requests : List RpcRequest}
  {r r' : RpcState}

/-! ## Allocation -/

/-- The search finds an id unless none of the ids it tries is free. -/
theorem searchTransaction_eq_none {free : BitVec 16 → Bool} {turns : Nat} {start : BitVec 16} :
    (searchTransaction free turns start).1 = none ↔
      ∀ n < turns, free (start + BitVec.ofNat 16 n) = false := by
  have hsucc : ∀ n, BitVec.ofNat 16 n + 1 = BitVec.ofNat 16 (n + 1) := fun n =>
    (BitVec.ofNat_add n 1).symm
  induction turns generalizing start with
  | zero => simp [searchTransaction]
  | succ turns ih =>
    rw [searchTransaction]
    split
    · next hfree =>
      refine iff_of_false (Option.some_ne_none _) fun h => ?_
      have hzero := h 0 (Nat.succ_pos turns)
      rw [BitVec.add_zero, hfree] at hzero
      cases hzero
    · next hbusy =>
      refine ih.trans ⟨?_, ?_⟩
      · intro h n hn
        cases n with
        | zero => simpa using hbusy
        | succ n =>
          have hnext := h n (Nat.lt_of_succ_lt_succ hn)
          rwa [BitVec.add_assoc, BitVec.add_comm 1, hsucc] at hnext
      · intro h n hn
        have hnext := h (n + 1) (Nat.succ_lt_succ hn)
        rwa [← hsucc, BitVec.add_comm (BitVec.ofNat 16 n), ← BitVec.add_assoc] at hnext

/-- As many turns as there are ids try every id. -/
theorem searchTransaction_all {free : BitVec 16 → Bool} (start : BitVec 16) :
    ((searchTransaction free 65536 start).1).isSome ↔ ∃ tx, free tx = true := by
  rw [← not_iff_not, Option.not_isSome_iff_eq_none, searchTransaction_eq_none, not_exists]
  constructor
  · intro h tx hfree
    -- The counter wraps around, and comes to `tx` after `tx - start` turns.
    have htx := h (tx - start).toNat (tx - start).isLt
    rw [BitVec.ofNat_toNat, BitVec.setWidth_eq, BitVec.add_comm, BitVec.sub_add_cancel, hfree]
      at htx
    cases htx
  · exact fun h n _ => Bool.eq_false_of_not_eq_true (h _)

/-- An id is allocated exactly when there is room for a call and an id is free. -/
theorem RpcState.allocateTransaction_isSome (maxPendingRpcs : Nat) (r : RpcState) :
    ((r.allocateTransaction maxPendingRpcs).1).isSome ↔
      r.pool.pending.count < maxPendingRpcs ∧ ∃ tx, r.pool.Free (transactionIdBytes tx) := by
  rw [RpcState.allocateTransaction]
  split
  · next hfull => exact iff_of_false Bool.false_ne_true fun h => Nat.not_le.mpr h.1 hfull
  · next hroom =>
    rw [searchTransaction_all]
    simp only [decide_eq_true_eq]
    exact ⟨fun h => ⟨Nat.not_le.mp hroom, h⟩, And.right⟩

/-! ## Runs -/

/-- What holds of the pending and the retired calls. -/
structure PoolOk (maxPending rpcTimeout : Nat) (r : RpcState) : Prop where
  sound : r.pool.Sound rpcTimeout
  bounded : r.pool.pending.count ≤ maxPending

theorem PoolOk.of_pool (h : PoolOk maxPending rpcTimeout r) (hpool : r'.pool = r.pool) :
    PoolOk maxPending rpcTimeout r' := ⟨hpool ▸ h.sound, hpool ▸ h.bounded⟩

theorem PoolOk.called (h : PoolOk maxPending rpcTimeout r)
    (hcall : Called maxPending rpcTimeout request r r') : PoolOk maxPending rpcTimeout r' := by
  cases hcall with
  | unsent elapsed hpool => exact ⟨hpool ▸ h.sound.advance elapsed, hpool ▸ h.bounded⟩
  | sent elapsed tx hfree hroom hpool =>
    refine ⟨hpool ▸ (h.sound.advance elapsed).issue hfree, ?_⟩
    rw [hpool]
    exact (AList.count_insert_of_none hfree.1).trans_le hroom

theorem PoolOk.calls (h : PoolOk maxPending rpcTimeout r)
    (hcalls : Calls maxPending rpcTimeout requests r r') : PoolOk maxPending rpcTimeout r' :=
  hcalls.invariant (fun _ _ _ _ hr hcall => hr.called hcall) h

theorem PoolOk.resolve (h : PoolOk maxPending rpcTimeout r) {transaction : Bytes}
    {rpc : PendingRpc} (hpending : r.pool.pending.lookup transaction = some rpc)
    (outcome : RpcOutcome) :
    PoolOk maxPending rpcTimeout (r.resolve rpcTimeout transaction rpc outcome) :=
  ⟨h.sound.resolve hpending, (AList.count_erase_le _ _).trans h.bounded⟩

theorem PoolOk.step (h : PoolOk maxPending rpcTimeout r)
    (hstep : RpcStep maxPending rpcTimeout r r') : PoolOk maxPending rpcTimeout r' := by
  cases hstep with
  | wait elapsed => exact ⟨h.sound.advance elapsed, h.bounded⟩
  | sweep => exact ⟨h.sound.sweep, h.bounded⟩
  | dropped hpending => exact (h.resolve hpending _).of_pool rfl
  | answered hpending _ _ hcalls => exact ((h.resolve hpending _).calls hcalls).of_pool rfl
  | bootstrap _ _ _ _ hcall =>
    have hroots : PoolOk maxPending rpcTimeout { r with roots := r.roots + 1 } := h.of_pool rfl
    exact hroots.called hcall
  | lookup _ _ hcalls =>
    have hbegin : PoolOk maxPending rpcTimeout (r.withLookups r.lookups.begin.2) := h.of_pool rfl
    exact (hbegin.calls hcalls).of_pool rfl
  | untracked _ hcalls => exact h.calls hcalls

theorem poolOk_run (x : Externals) (ourId : NodeId) (tokenSecret : Bytes) (config : DhtConfig)
    (clock : Nat) (nextTx : BitVec 16) (turns : List DhtCrawler.Turn) :
    PoolOk config.maxPendingRpcs config.rpcTimeout
      (DhtCrawler.run x (.withConfig ourId tokenSecret config clock nextTx) turns).rpcs :=
  DhtCrawler.run_invariant x turns (fun _ _ h hstep => h.step hstep)
    ⟨Pool.sound_empty _ clock, Nat.zero_le _⟩

/-- In every run no id is pending and retired, the pending calls are bounded, and an id
is used again only when its quarantine is over; and an id is allocated whenever there is
room and one is free. -/
theorem transactions_quarantined (x : Externals) (ourId : NodeId) (tokenSecret : Bytes)
    (config : DhtConfig) (clock : Nat) (nextTx : BitVec 16)
    (turns : List DhtCrawler.Turn) :
    let pool :=
      (DhtCrawler.run x (.withConfig ourId tokenSecret config clock nextTx) turns).rpcs.pool
    (∀ k, pool.pending.lookup k = none ∨ pool.retired.lookup k = none) ∧
      pool.pending.count ≤ config.maxPendingRpcs ∧
      (∀ newer between older k rpc₁ rpc₂ t₁ t₂, pool.history =
          newer ++ .issued k rpc₂ t₂ :: (between ++ .issued k rpc₁ t₁ :: older) →
        ∃ outcome closed, .resolved k rpc₁ outcome closed ∈ between ∧
          closed + config.rpcTimeout ≤ t₂ ∧
          ∀ a ∈ newer, closed + config.rpcTimeout ≤ a.time) ∧
      ∀ (maxPendingRpcs : Nat) (r : RpcState),
        ((r.allocateTransaction maxPendingRpcs).1).isSome ↔
          r.pool.pending.count < maxPendingRpcs ∧
            ∃ tx, r.pool.pending.lookup (transactionIdBytes tx) = none ∧
              r.pool.retired.lookup (transactionIdBytes tx) = none := by
  intro pool
  have hpool := poolOk_run x ourId tokenSecret config clock nextTx turns
  refine ⟨hpool.sound.disjoint, hpool.bounded, ?_, RpcState.allocateTransaction_isSome⟩
  intro newer between older k rpc₁ rpc₂ t₁ t₂ hhistory
  exact hpool.sound.reuse hhistory

end Btfind
