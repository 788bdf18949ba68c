import Mathlib.Algebra.Order.BigOperators.Group.List
import Mathlib.Algebra.GroupWithZero.Action.Defs
import Btfind.Dht.Lookups

/-!
# How many calls a lookup makes

A call that is still open can lead to as many calls as its budget allows, and its answer
spends that potential. So the calls that were sent and the potential of the open ones
stay within what the first calls were given.
-/

namespace Btfind

open Quarantine RealLookupTracker

/-- The calls to which a call with a budget can still lead. -/
def potential : Nat → Nat
  | 0 => 0
  | budget + 1 => lookupContinuationFanout * (1 + potential budget)

/-- A kind of calls. A call and the calls that continue it are of one kind. -/
structure Kind where
  mem : RpcRequest → Bool
  hereditary : ∀ (rpc : PendingRpc) (request : RpcRequest), Continues rpc request →
    mem request = true → mem rpc.toRpcRequest = true

/-- The calls for a lookup. -/
def Kind.ofLookup (id : BitVec 64) : Kind where
  mem request := request.lookupId = some id
  hereditary := by
    rintro rpc request ⟨-, ⟨-, -, hlookup, -⟩ | ⟨-, -, -, hlookup, -⟩⟩ hmem
    · rw [hlookup] at hmem
      cases of_decide_eq_true hmem
    · rwa [hlookup] at hmem

/-- The calls that descend from a bootstrap call, and this call. -/
def Kind.ofRoot (n : Nat) : Kind where
  mem request := request.root = some n
  hereditary := by
    rintro rpc request ⟨-, ⟨-, -, -, hroot⟩ | ⟨-, -, -, -, hroot⟩⟩ hmem
    · rwa [hroot] at hmem
    · rw [hroot] at hmem
      cases of_decide_eq_true hmem

namespace Kind

variable (kind : Kind)

def issued : Action Bytes PendingRpc RpcOutcome → Bool
  | .issued _ rpc _ => kind.mem rpc.toRpcRequest
  | .resolved .. => false

/-- The calls of a kind that were sent. -/
def sent (r : RpcState) : Nat := r.pool.history.countP kind.issued

/-- What an open call of the kind can still lead to. -/
def remaining (rpc : RpcRequest) : Nat := if kind.mem rpc then potential rpc.continuationBudget else 0

/-- The potential of the open calls. -/
def unspent (r : RpcState) : Int := r.pool.pending.total fun _ rpc => kind.remaining rpc.toRpcRequest

def spent (r : RpcState) : Int := kind.sent r + kind.unspent r

/-- What a call takes from the allowance, if it is sent. -/
def cost (request : RpcRequest) : Nat :=
  if kind.mem request then 1 + potential request.continuationBudget else 0

variable {maxPending rpcTimeout : Nat} {request : RpcRequest} {requests : List RpcRequest}
  {r r' : RpcState}

theorem spent_of_pool (h : r'.pool = r.pool) : kind.spent r' = kind.spent r := by
  unfold spent sent unspent
  rw [h]

theorem spent_called (h : Called maxPending rpcTimeout request r r') :
    kind.spent r' ≤ kind.spent r + kind.cost request := by
  cases h with
  | unsent elapsed hpool =>
    have hsame : kind.spent r' = kind.spent r := by
      unfold spent sent unspent
      rw [hpool]
      rfl
    omega
  | sent elapsed tx hfree _ hpool =>
    have hlookup : (r.pool.advance elapsed).pending.lookup (transactionIdBytes tx) = none := hfree.1
    unfold spent sent unspent cost
    rw [hpool, Pool.issue]
    simp only
    rw [List.countP_cons, AList.total_insert, hlookup, AList.weight]
    show ((List.countP kind.issued r.pool.history + if kind.mem request then 1 else 0 : Nat) : Int)
      + (r.pool.pending.total _ - 0 + (kind.remaining request : Int)) ≤ _
    rw [remaining]
    split <;> push_cast <;> omega

theorem spent_calls (h : Calls maxPending rpcTimeout requests r r') :
    kind.spent r' ≤ kind.spent r + (requests.map kind.cost).sum := by
  induction h with
  | nil => simp
  | cons head tail ih =>
    have hhead := spent_called kind head
    rw [List.map_cons, List.sum_cons]
    rw [Nat.cast_add]
    omega

/-- The end of a call frees its potential. -/
theorem spent_resolve (rpcTimeout : Nat) {transaction : Bytes} {rpc : PendingRpc}
    (outcome : RpcOutcome)
    (hpending : r.pool.pending.lookup transaction = some rpc) :
    kind.spent (r.resolve rpcTimeout transaction rpc outcome) =
      kind.spent r - kind.remaining rpc.toRpcRequest := by
  unfold spent sent unspent RpcState.resolve Pool.resolve
  simp only
  rw [List.countP_cons, AList.total_erase, hpending, AList.weight]
  simp only [issued, Bool.false_eq_true, if_false, Nat.add_zero]
  omega

/-- The calls that continue a call cost no more than its potential. -/
theorem cost_continues {rpc : PendingRpc} (hfew : requests.length ≤ lookupContinuationFanout)
    (hcontinues : ∀ request ∈ requests, Continues rpc request) :
    (requests.map kind.cost).sum ≤ kind.remaining rpc.toRpcRequest := by
  cases hbudget : rpc.continuationBudget with
  | zero =>
    -- Without budget a call has no continuation.
    have hnone : requests = [] := by
      refine List.eq_nil_iff_forall_not_mem.mpr fun request hrequest => ?_
      have hless := (hcontinues request hrequest).1
      omega
    rw [hnone]
    exact Nat.zero_le _
  | succ budget =>
    by_cases hkind : kind.mem rpc.toRpcRequest
    -- Each of the few continuations costs what one unit of budget less leads to.
    · have hcost : ∀ n ∈ requests.map kind.cost, n ≤ 1 + potential budget := by
        intro n hn
        obtain ⟨request, hrequest, rfl⟩ := List.mem_map.mp hn
        have hless := (hcontinues request hrequest).1
        rw [cost]
        split
        · rw [show request.continuationBudget = budget by omega]
        · exact Nat.zero_le _
      have hsum := List.sum_le_card_nsmul _ _ hcost
      rw [remaining]
      rw [if_pos hkind, hbudget, potential]
      refine hsum.trans ?_
      rw [List.length_map, smul_eq_mul]
      exact Nat.mul_le_mul_right _ hfew
    -- What continues a call of another kind is of another kind.
    · have hcost : (requests.map kind.cost).sum = 0 := by
        refine List.sum_eq_zero fun n hn => ?_
        obtain ⟨request, hrequest, rfl⟩ := List.mem_map.mp hn
        exact if_neg fun hmem => hkind (kind.hereditary rpc request (hcontinues request hrequest) hmem)
      rw [hcost]
      exact Nat.zero_le _

theorem cost_eq_zero (hmem : ∀ request ∈ requests, kind.mem request = false) :
    (requests.map kind.cost).sum = 0 := by
  refine List.sum_eq_zero fun n hn => ?_
  obtain ⟨request, hrequest, rfl⟩ := List.mem_map.mp hn
  exact if_neg (Bool.eq_false_iff.mp (hmem request hrequest))

theorem spent_answered {transaction : Bytes} {rpc : PendingRpc} {outcome : RpcOutcome}
    (hpending : r.pool.pending.lookup transaction = some rpc)
    (hfew : requests.length ≤ lookupContinuationFanout)
    (hcontinues : ∀ request ∈ requests, Continues rpc request)
    (hcalls : Calls maxPending rpcTimeout requests
      (r.resolve rpcTimeout transaction rpc outcome) r') : kind.spent r' ≤ kind.spent r := by
  have hspent := spent_calls kind hcalls
  have hcost := cost_continues kind hfew hcontinues
  rw [spent_resolve kind rpcTimeout outcome hpending] at hspent
  omega

end Kind

/-! ## Runs -/

/-- The first calls of a lookup, with all that they can lead to. -/
def lookupAllowance : Nat := lookupFanout * (1 + potential 2)

/-- A bootstrap call, with all that it can lead to. -/
def bootstrapAllowance : Nat := 1 + potential 2

/-- A call of `find_node` descends from a bootstrap call. -/
def Rooted (request : RpcRequest) : Prop := request.method = .findNode → request.root.isSome

/-- What holds of the calls that were sent and of the pending ones. -/
structure Ample (r : RpcState) : Prop where
  lookups : ∀ id, (Kind.ofLookup id).spent r ≤ lookupAllowance * r.lookups.begunAs id
  roots : ∀ n, (Kind.ofRoot n).spent r ≤ if n < r.roots then bootstrapAllowance else 0
  rooted : ∀ k rpc, r.pool.pending.lookup k = some rpc → Rooted rpc.toRpcRequest
  issued : ∀ k rpc t, .issued k rpc t ∈ r.pool.history → Rooted rpc.toRpcRequest

variable {maxPending rpcTimeout : Nat} {request : RpcRequest} {requests : List RpcRequest}
  {r r' : RpcState}

theorem Continues.rooted {rpc : PendingRpc} (hrpc : Rooted rpc.toRpcRequest)
    (h : Continues rpc request) : Rooted request := by
  obtain ⟨-, ⟨hpending, -, -, hroot⟩ | ⟨-, hmethod, -⟩⟩ := h
  · intro _
    rw [hroot]
    exact hrpc hpending
  · intro hfind
    rw [hmethod] at hfind
    cases hfind

theorem Asks.rooted {lookupId : Option (BitVec 64)} (h : Asks lookupId request) :
    Rooted request := by
  intro hfind
  rw [h.1] at hfind
  cases hfind

/-- What holds of the calls that were sent holds after calls, if it holds of these. -/
theorem Calls.issued {P : RpcRequest → Prop} (h : Calls maxPending rpcTimeout requests r r')
    (hrequests : ∀ request ∈ requests, P request)
    (hr : ∀ k rpc t, .issued k rpc t ∈ r.pool.history → P rpc.toRpcRequest) :
    ∀ k rpc t, .issued k rpc t ∈ r'.pool.history → P rpc.toRpcRequest := by
  refine h.invariant
    (I := fun r => ∀ k rpc t, .issued k rpc t ∈ r.pool.history → P rpc.toRpcRequest)
    (fun request hmem r r' hr hcall => ?_) hr
  intro k rpc t hissued
  cases hcall with
  | unsent _ hpool =>
    rw [hpool] at hissued
    exact hr k rpc t hissued
  | sent _ tx _ _ hpool =>
    rw [hpool] at hissued
    obtain hnew | hold := List.mem_cons.mp hissued
    · cases hnew
      exact hrequests request hmem
    · exact hr k rpc t hold

theorem issued_resolve {transaction : Bytes} {rpc : PendingRpc} {outcome : RpcOutcome}
    {P : RpcRequest → Prop}
    (hr : ∀ k rpc t, .issued k rpc t ∈ r.pool.history → P rpc.toRpcRequest) :
    ∀ k rpc' t, .issued k rpc' t ∈ (r.resolve rpcTimeout transaction rpc outcome).pool.history →
      P rpc'.toRpcRequest := by
  intro k rpc' t hissued
  obtain hnew | hold := List.mem_cons.mp hissued
  · cases hnew
  · exact hr k rpc' t hold

/-- The first calls of a lookup cost no more than its allowance. -/
theorem cost_asks (kind : Kind) {lookupId : Option (BitVec 64)}
    (hfew : requests.length ≤ lookupFanout) (hasks : ∀ request ∈ requests, Asks lookupId request) :
    (requests.map kind.cost).sum ≤ lookupAllowance := by
  have hcost : ∀ n ∈ requests.map kind.cost, n ≤ 1 + potential 2 := by
    intro n hn
    obtain ⟨request, hrequest, rfl⟩ := List.mem_map.mp hn
    obtain ⟨-, -, hbudget, -⟩ := hasks request hrequest
    rw [Kind.cost]
    split
    · rw [hbudget]
    · exact Nat.zero_le _
  have hsum := List.sum_le_card_nsmul _ _ hcost
  refine hsum.trans ?_
  rw [List.length_map, smul_eq_mul]
  exact Nat.mul_le_mul_right _ hfew

theorem Ample.of_pool (h : Ample r) (hpool : r'.pool = r.pool)
    (hlookups : NoneBegun r.lookups r'.lookups) (hroots : r'.roots = r.roots) : Ample r' where
  lookups id := by
    rw [Kind.spent_of_pool _ hpool, hlookups.begunAs]
    exact h.lookups id
  roots n := by
    rw [Kind.spent_of_pool _ hpool, hroots]
    exact h.roots n
  rooted := hpool ▸ h.rooted
  issued := hpool ▸ h.issued

theorem Calls.roots (h : Calls maxPending rpcTimeout requests r r') : r'.roots = r.roots := by
  induction h with
  | nil => rfl
  | cons head _ ih =>
    cases head with
    | unsent _ _ _ hroots => exact ih.trans hroots
    | sent _ _ _ _ _ _ hroots => exact ih.trans hroots

/-- Calls that cost nothing. -/
theorem Ample.free_calls (h : Ample r) (hcalls : Calls maxPending rpcTimeout requests r r')
    (hplain : ∀ request ∈ requests, request.lookupId = none ∧ request.root = none ∧
      request.method ≠ .findNode) : Ample r' where
  lookups id := by
    have hspent := Kind.spent_calls (.ofLookup id) hcalls
    rw [Kind.cost_eq_zero _ fun request hmem => by simp [Kind.ofLookup, (hplain request hmem).1]]
      at hspent
    have hbefore := h.lookups id
    rw [hcalls.noneBegun.begunAs]
    omega
  roots n := by
    have hspent := Kind.spent_calls (.ofRoot n) hcalls
    rw [Kind.cost_eq_zero _ fun request hmem => by simp [Kind.ofRoot, (hplain request hmem).2.1]]
      at hspent
    have hbefore := h.roots n
    rw [hcalls.roots]
    omega
  rooted := hcalls.pending (P := Rooted)
    (fun request hmem hfind => absurd hfind (hplain request hmem).2.2) h.rooted
  issued := hcalls.issued (P := Rooted)
    (fun request hmem hfind => absurd hfind (hplain request hmem).2.2) h.issued

theorem Kind.unspent_nonneg (kind : Kind) (r : RpcState) : 0 ≤ kind.unspent r := by
  refine List.sum_nonneg fun n hn => ?_
  obtain ⟨e, -, rfl⟩ := List.mem_map.mp hn
  exact Int.natCast_nonneg _

theorem Ample.dropped (h : Ample r) {transaction : Bytes} {rpc : PendingRpc} {outcome : RpcOutcome}
    (hpending : r.pool.pending.lookup transaction = some rpc) :
    Ample ((r.resolve rpcTimeout transaction rpc outcome).withLookups
      (rpc.lookupId.elim r.lookups fun id => outcome.drop id r.lookups)) := by
  have hnone := noneBegun_elim (noneBegun_drop outcome) rpc.lookupId r.lookups
  refine Ample.of_pool (r := r.resolve rpcTimeout transaction rpc outcome) ?_ rfl hnone rfl
  refine ⟨fun id => ?_, fun n => ?_, pending_resolve (P := Rooted) h.rooted,
    issued_resolve (P := Rooted) h.issued⟩
  · have hspent := Kind.spent_resolve (.ofLookup id) rpcTimeout outcome
      hpending
    have hbefore := h.lookups id
    show _ ≤ (lookupAllowance : Int) * (r.lookups.begunAs id : Nat)
    omega
  · have hspent := Kind.spent_resolve (.ofRoot n) rpcTimeout outcome
      hpending
    have hbefore := h.roots n
    show _ ≤ ((if n < r.roots then bootstrapAllowance else 0 : Nat) : Int)
    omega

theorem Ample.answered (h : Ample r) {transaction : Bytes} {rpc : PendingRpc}
    {message : KrpcMessage} (hpending : r.pool.pending.lookup transaction = some rpc)
    (hfew : requests.length ≤ lookupContinuationFanout)
    (hcontinues : ∀ request ∈ requests, Continues rpc request)
    (hcalls : Calls maxPending rpcTimeout requests
      (r.resolve rpcTimeout transaction rpc (.answered message)) r') : Ample r' := by
  have hrooted := h.rooted _ _ hpending
  refine ⟨fun id => ?_, fun n => ?_, ?_, ?_⟩
  · rw [hcalls.noneBegun.begunAs]
    exact (Kind.spent_answered _ hpending hfew hcontinues hcalls).trans (h.lookups id)
  · rw [hcalls.roots]
    exact (Kind.spent_answered _ hpending hfew hcontinues hcalls).trans (h.roots n)
  · exact hcalls.pending (P := Rooted)
      (fun request hmem => (hcontinues request hmem).rooted hrooted)
      (pending_resolve (P := Rooted) h.rooted)
  · exact hcalls.issued (P := Rooted)
      (fun request hmem => (hcontinues request hmem).rooted hrooted)
      (issued_resolve (P := Rooted) h.issued)

theorem Ample.bootstrap (h : Ample r) (hlookup : request.lookupId = none)
    (hbudget : request.continuationBudget = 2) (hroot : request.root = some r.roots)
    (hcall : Called maxPending rpcTimeout request { r with roots := r.roots + 1 } r') :
    Ample r' := by
  have hcalls : Calls maxPending rpcTimeout [request] { r with roots := r.roots + 1 } r' :=
    .cons hcall (.nil _)
  have hrooted : ∀ q ∈ [request], Rooted q := by
    intro q hq _
    rw [List.mem_singleton.mp hq, hroot]
    rfl
  refine ⟨fun id => ?_, fun n => ?_, hcalls.pending hrooted h.rooted,
    hcalls.issued hrooted h.issued⟩
  · have hspent := Kind.spent_called (.ofLookup id) hcall
    have hcost : (Kind.ofLookup id).cost request = 0 := by simp [Kind.cost, Kind.ofLookup, hlookup]
    have hbefore := h.lookups id
    rw [hcost] at hspent
    rw [hcalls.noneBegun.begunAs]
    change _ ≤ (Kind.ofLookup id).spent r + _ at hspent
    show _ ≤ (lookupAllowance : Int) * (r.lookups.begunAs id : Nat)
    omega
  · have hspent := Kind.spent_called (.ofRoot n) hcall
    have hbefore := h.roots n
    change _ ≤ (Kind.ofRoot n).spent r + _ at hspent
    rw [hcalls.roots]
    show _ ≤ ((if n < r.roots + 1 then bootstrapAllowance else 0 : Nat) : Int)
    -- The new root has its whole allowance; the calls of the others are as before.
    obtain hlt | rfl | hgt := Nat.lt_trichotomy n r.roots
    · have hcost : (Kind.ofRoot n).cost request = 0 := by
        simp [Kind.cost, Kind.ofRoot, hroot, Nat.ne_of_gt hlt]
      rw [if_pos hlt] at hbefore
      rw [if_pos (Nat.lt_succ_of_lt hlt)]
      omega
    · have hcost : (Kind.ofRoot r.roots).cost request = bootstrapAllowance := by
        simp [Kind.cost, Kind.ofRoot, hroot, hbudget, bootstrapAllowance]
      rw [if_neg (Nat.lt_irrefl _)] at hbefore
      rw [if_pos (Nat.lt_succ_self _)]
      omega
    · have hcost : (Kind.ofRoot n).cost request = 0 := by
        simp [Kind.cost, Kind.ofRoot, hroot, Nat.ne_of_lt hgt]
      rw [if_neg (Nat.not_lt.mpr hgt.le)] at hbefore
      rw [if_neg (Nat.not_lt.mpr hgt)]
      omega

theorem Ample.lookup (h : Ample r) (hfew : requests.length ≤ lookupFanout)
    (hasks : ∀ request ∈ requests, Asks (some r.lookups.nextId) request)
    (hcalls : Calls maxPending rpcTimeout requests (r.withLookups r.lookups.begin.2) r') :
    Ample (r'.withLookups (r'.lookups.started r.lookups.nextId)) := by
  refine Ample.of_pool (r := r') ?_ rfl (noneBegun_started _ _) rfl
  refine ⟨fun id => ?_, fun n => ?_, hcalls.pending (fun q hq => (hasks q hq).rooted) h.rooted,
    hcalls.issued (fun q hq => (hasks q hq).rooted) h.issued⟩
  · have hspent := Kind.spent_calls (.ofLookup id) hcalls
    have hbefore := h.lookups id
    change _ ≤ (Kind.ofLookup id).spent r + _ at hspent
    rw [hcalls.noneBegun.begunAs]
    show _ ≤ (lookupAllowance : Int) * (r.lookups.begin.2.begunAs id : Nat)
    rw [begunAs_begin]
    split
    -- The id is given out once more, which pays for its first calls.
    · have hcost := cost_asks (.ofLookup id) hfew hasks
      push_cast
      rw [mul_add, mul_one]
      omega
    · next hother =>
      rw [Kind.cost_eq_zero _ fun request hmem => ?_] at hspent
      · omega
      · rw [Kind.ofLookup, decide_eq_false_iff_not, (hasks request hmem).2.2.2.1, Option.some_inj]
        exact fun heq => hother heq.symm
  · have hspent := Kind.spent_calls (.ofRoot n) hcalls
    have hbefore := h.roots n
    change _ ≤ (Kind.ofRoot n).spent r + _ at hspent
    rw [Kind.cost_eq_zero _ fun request hmem => by
      simp [Kind.ofRoot, (hasks request hmem).2.2.2.2]] at hspent
    rw [hcalls.roots]
    show _ ≤ ((if n < r.roots then bootstrapAllowance else 0 : Nat) : Int)
    omega

theorem Ample.step (h : Ample r) (hstep : RpcStep maxPending rpcTimeout r r') : Ample r' := by
  cases hstep with
  | wait | sweep => exact ⟨h.lookups, h.roots, h.rooted, h.issued⟩
  | dropped hpending => exact h.dropped hpending
  | answered hpending hfew hcontinues hcalls =>
    exact (h.answered hpending hfew hcontinues hcalls).of_pool rfl (noneBegun_answered _ _ _) rfl
  | bootstrap _ hlookup hbudget hroot hcall => exact h.bootstrap hlookup hbudget hroot hcall
  | lookup hfew hasks hcalls => exact h.lookup hfew hasks hcalls
  | untracked hplain hcalls => exact h.free_calls hcalls hplain

theorem ample_run (x : Externals) (ourId : NodeId) (tokenSecret : Bytes) (config : DhtConfig)
    (clock : Nat) (nextTx : BitVec 16) (turns : List DhtCrawler.Turn) :
    Ample (DhtCrawler.run x (.withConfig ourId tokenSecret config clock nextTx) turns).rpcs :=
  DhtCrawler.run_invariant x turns (fun _ _ h hstep => h.step hstep)
    ⟨fun _ => le_refl 0, fun _ => le_refl 0, nofun, nofun⟩

/-- In every run the calls of a lookup and what the open ones can lead to are at most
168 for each time the lookup id was given out, which is once while ids last; and the
calls of `find_node` all descend from bootstrap calls, each of which leads to at most 21
with itself. -/
theorem amplification_bounded (x : Externals) (ourId : NodeId) (tokenSecret : Bytes)
    (config : DhtConfig) (clock : Nat) (nextTx : BitVec 16) (turns : List DhtCrawler.Turn) :
    let r := (DhtCrawler.run x (.withConfig ourId tokenSecret config clock nextTx) turns).rpcs
    (∀ id, (Kind.ofLookup id).sent r + (Kind.ofLookup id).unspent r ≤
        168 * r.lookups.begunAs id) ∧
      (r.lookups.begun ≤ 2 ^ 64 → ∀ id,
        (Kind.ofLookup id).sent r + (Kind.ofLookup id).unspent r ≤ 168 ∧
          (Kind.ofLookup id).sent r ≤ 168) ∧
      (∀ n, (Kind.ofRoot n).sent r + (Kind.ofRoot n).unspent r ≤ 21 ∧
        (Kind.ofRoot n).sent r ≤ 21) ∧
      ∀ k rpc t, .issued k rpc t ∈ r.pool.history → rpc.method = .findNode →
        ∃ n, rpc.root = some n := by
  intro r
  have hr : Ample r := ample_run x ourId tokenSecret config clock nextTx turns
  have hnumbered : r.lookups.Numbered := numbered_run x ourId tokenSecret config clock nextTx turns
  clear_value r
  refine ⟨hr.lookups, fun hfew id => ?_, fun n => ?_, fun k rpc t hissued hfind => ?_⟩
  · have hspent : (Kind.ofLookup id).sent r + (Kind.ofLookup id).unspent r ≤
        168 * r.lookups.begunAs id := hr.lookups id
    have honce := hnumbered.begunAs_le hfew id
    have hnonneg := (Kind.ofLookup id).unspent_nonneg r
    constructor <;> omega
  · have hspent : (Kind.ofRoot n).sent r + (Kind.ofRoot n).unspent r ≤
        ((if n < r.roots then bootstrapAllowance else 0 : Nat) : Int) := hr.roots n
    have hnonneg := (Kind.ofRoot n).unspent_nonneg r
    have hallowance : (if n < r.roots then bootstrapAllowance else 0) ≤ 21 := by
      split <;> decide
    constructor <;> omega
  · exact Option.isSome_iff_exists.mp (hr.issued k rpc t hissued hfind)

end Btfind
