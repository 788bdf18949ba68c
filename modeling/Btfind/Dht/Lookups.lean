import Btfind.Dht.LookupTracker
import Btfind.Dht.RpcSteps

/-!
# Lookups of real hashes

At every event boundary the tracker counts the open calls of each lookup, and a lookup is
finalized when the last of its calls is closed.
-/

namespace Btfind

open Quarantine RealLookupTracker

/-- The number of pending calls that carry a lookup id. -/
def RpcState.carried (id : BitVec 64) (r : RpcState) : Nat :=
  r.pool.pending.entries.countP fun e => e.2.lookupId = some id

/-- An accepted answer to a call of a lookup that has peers. -/
def answersWithPeers (id : BitVec 64) : Action Bytes PendingRpc RpcOutcome → Bool
  | .resolved _ rpc (.answered message) _ =>
    rpc.lookupId = some id && rpc.method = .getPeers && message.hasPeers
  | _ => false

def RpcState.found (id : BitVec 64) (r : RpcState) : Bool :=
  r.pool.history.any (answersWithPeers id)

variable {maxPending rpcTimeout : Nat} {request : RpcRequest} {requests : List RpcRequest}
  {r r' : RpcState} {id : BitVec 64}

/-! ## Calls and their lookup -/

theorem carried_eq_total (id : BitVec 64) (r : RpcState) :
    (r.carried id : Int) = r.pool.pending.total fun _ rpc => if rpc.lookupId = some id then 1 else 0 := by
  have htotal := AList.countP_eq_total r.pool.pending fun rpc => decide (rpc.lookupId = some id)
  simp only [decide_eq_true_eq] at htotal
  exact htotal

theorem carried_resolve (rpcTimeout : Nat) {transaction : Bytes} {rpc : PendingRpc}
    (outcome : RpcOutcome)
    (hpending : r.pool.pending.lookup transaction = some rpc) (id : BitVec 64) :
    (r.resolve rpcTimeout transaction rpc outcome).carried id +
      (if rpc.lookupId = some id then 1 else 0) = r.carried id := by
  have hbefore := carried_eq_total id r
  have hafter := carried_eq_total id (r.resolve rpcTimeout transaction rpc outcome)
  have herase := AList.total_erase (k := transaction)
    (w := fun _ (rpc : PendingRpc) => if rpc.lookupId = some id then 1 else 0) r.pool.pending
  rw [hpending] at herase
  change _ = (r.pool.pending.erase transaction).total _ at hafter
  rw [herase, ← hbefore] at hafter
  simp only [AList.weight] at hafter
  split <;> next h => simp only [h, if_true, if_false] at hafter; omega

theorem found_cons (id : BitVec 64) (a : Action Bytes PendingRpc RpcOutcome)
    (h : r'.pool.history = a :: r.pool.history) :
    r'.found id = (answersWithPeers id a || r.found id) := by
  unfold RpcState.found
  rw [h, List.any_cons]

/-- `attached` calls more are counted. -/
def RealLookupTracker.View.attachMany (attached : Nat) (v : View) : View :=
  { v with progress := v.progress.map fun p => { p with outstanding := p.outstanding + attached } }

theorem View.attachMany_zero (v : View) : v.attachMany 0 = v := by
  obtain ⟨progress, begun, initiated, finals⟩ := v
  cases progress <;> rfl

theorem View.attachMany_add (m n : Nat) (v : View) :
    (v.attachMany m).attachMany n = v.attachMany (m + n) := by
  unfold View.attachMany
  cases v.progress with
  | none => rfl
  | some p => simp [Nat.add_assoc]

/-- What calls do to the count of one lookup. -/
structure Attached (id : BitVec 64) (attached : Nat) (r r' : RpcState) : Prop where
  carried : r'.carried id = r.carried id + attached
  view : r'.lookups.view id = (r.lookups.view id).attachMany attached
  found : r'.found id = r.found id

theorem Attached.zero (hpending : r'.pool.pending = r.pool.pending)
    (hview : r'.lookups.view id = r.lookups.view id) (hfound : r'.found id = r.found id) :
    Attached id 0 r r' where
  carried := by unfold RpcState.carried; rw [hpending]; rfl
  view := by rw [hview, View.attachMany_zero]
  found := hfound

theorem Called.attached (h : Called maxPending rpcTimeout request r r') (id : BitVec 64) :
    ∃ attached, (request.lookupId ≠ some id → attached = 0) ∧ Attached id attached r r' := by
  cases h with
  | unsent elapsed hpool hlookups =>
    refine ⟨0, fun _ => rfl, .zero (by rw [hpool]; rfl) ?_ (by unfold RpcState.found; rw [hpool]; rfl)⟩
    rw [hlookups, view_unsent]
  | sent elapsed tx hfree _ hpool hlookups =>
    have hfound : r'.found id = r.found id := by
      rw [RpcState.found]
      rw [hpool]
      rfl
    have hcarried : r'.carried id = r.carried id + if request.lookupId = some id then 1 else 0 := by
      have hbefore := carried_eq_total id r
      have hafter := carried_eq_total id r'
      rw [hpool] at hafter
      change _ = (r.pool.pending.insert _ _).total _ at hafter
      rw [AList.total_insert, hfree.1, ← hbefore] at hafter
      simp only [AList.weight] at hafter
      split <;> next h => simp only [h, if_true, if_false] at hafter; omega
    have hview : r'.lookups.view id = (r.lookups.view id).attachMany
        (if request.lookupId = some id then 1 else 0) := by
      rw [hlookups]
      cases hid : request.lookupId with
      | none => exact (View.attachMany_zero _).symm
      | some id' =>
        show (r.lookups.attach id').view id = _
        rw [view_attach]
        by_cases heq : id = id'
        · rw [if_pos heq, if_pos (congrArg some heq.symm)]
          rfl
        · rw [if_neg heq, if_neg (fun h => heq (Option.some.inj h).symm), View.attachMany_zero]
    exact ⟨_, fun hne => if_neg hne, hcarried, hview, hfound⟩

theorem Calls.attached (h : Calls maxPending rpcTimeout requests r r') (id : BitVec 64) :
    ∃ attached, ((∀ request ∈ requests, request.lookupId ≠ some id) → attached = 0) ∧
      Attached id attached r r' := by
  induction h with
  | nil r => exact ⟨0, fun _ => rfl, .zero rfl rfl rfl⟩
  | cons head tail ih =>
    obtain ⟨m, hm, hhead⟩ := head.attached id
    obtain ⟨n, hn, htail⟩ := ih
    refine ⟨m + n, fun hne => ?_, ?_, ?_, ?_⟩
    · rw [hm (hne _ List.mem_cons_self), hn fun q hq => hne q (List.mem_cons_of_mem _ hq)]
    · rw [htail.carried, hhead.carried, Nat.add_assoc]
    · rw [htail.view, hhead.view, View.attachMany_add]
    · rw [htail.found, hhead.found]

/-- What every call keeps of the tracker. -/
theorem Calls.tracker {I : RealLookupTracker → Prop}
    (h : Calls maxPending rpcTimeout requests r r')
    (hunsent : ∀ t lookupId, I t → I (t.unsent lookupId))
    (hattach : ∀ t id, I t → I (t.attach id)) (hr : I r.lookups) : I r'.lookups := by
  refine h.invariant (I := fun r => I r.lookups) (fun request _ r r' hr hcall => ?_) hr
  cases hcall with
  | unsent _ _ hlookups => exact hlookups ▸ hunsent _ _ hr
  | sent _ _ _ _ _ hlookups =>
    rw [hlookups]
    cases request.lookupId with
    | none => exact hr
    | some id => exact hattach _ id hr

theorem Calls.noneBegun (h : Calls maxPending rpcTimeout requests r r') :
    NoneBegun r.lookups r'.lookups :=
  h.tracker (fun t lookupId ht => ht.trans (noneBegun_unsent lookupId t))
    (fun t id ht => ht.trans (noneBegun_attach id t)) (.refl _)

theorem Calls.tallied {opening : Nat} (h : Calls maxPending rpcTimeout requests r r')
    (ht : r.lookups.Tallied opening) : r'.lookups.Tallied opening :=
  h.tracker (fun _ lookupId ht => ht.unsent lookupId) (fun _ id ht => ht.attach id) ht

/-- What holds of the calls that are pending holds after calls, if it holds of these. -/
theorem Calls.pending {P : RpcRequest → Prop} (h : Calls maxPending rpcTimeout requests r r')
    (hrequests : ∀ request ∈ requests, P request)
    (hr : ∀ k rpc, r.pool.pending.lookup k = some rpc → P rpc.toRpcRequest) :
    ∀ k rpc, r'.pool.pending.lookup k = some rpc → P rpc.toRpcRequest := by
  refine h.invariant (I := fun r => ∀ k rpc, r.pool.pending.lookup k = some rpc → P rpc.toRpcRequest)
    (fun request hmem r r' hr hcall => ?_) hr
  intro k rpc hk
  cases hcall with
  | unsent _ hpool =>
    rw [hpool] at hk
    exact hr k rpc hk
  | sent _ tx _ _ hpool =>
    rw [hpool, Pool.issue, AList.lookup_insert_eq] at hk
    split at hk
    · cases hk
      exact hrequests request hmem
    · exact hr k rpc hk

theorem pending_resolve {transaction : Bytes} {rpc : PendingRpc} {outcome : RpcOutcome}
    {P : RpcRequest → Prop}
    (hr : ∀ k rpc, r.pool.pending.lookup k = some rpc → P rpc.toRpcRequest) :
    ∀ k rpc', (r.resolve rpcTimeout transaction rpc outcome).pool.pending.lookup k = some rpc' →
      P rpc'.toRpcRequest := by
  intro k rpc' hk
  change (r.pool.pending.erase transaction).lookup k = some rpc' at hk
  rw [AList.lookup_erase_eq] at hk
  split at hk
  · cases hk
  · exact hr k rpc' hk

/-! ## The life of a lookup -/

/-- A lookup is idle, or its open calls are counted, or it was finalized. -/
inductive Life : View → Nat → Bool → Prop
  | idle (begun : Nat) : Life ⟨none, begun, 0, []⟩ 0 false
  | live {p : RealLookupProgress} {n : Nat} {found : Bool} (begun : Nat) (positive : 0 < n)
      (outstanding : p.outstanding = n) (peersFound : p.peersFound = found) :
      Life ⟨some p, begun, 1, []⟩ n found
  | done (begun : Nat) (found : Bool) : Life ⟨none, begun, 1, [found]⟩ 0 found

/-- Only calls of `get_peers` belong to a lookup. -/
def OnlyGetPeers (request : RpcRequest) : Prop := request.lookupId ≠ none → request.method = .getPeers

/-- What holds of the tracker and the pending calls at an event boundary. -/
structure LookupsOk (r : RpcState) : Prop where
  numbered : r.lookups.Numbered
  life : ∀ id, Life (r.lookups.view id) (r.carried id) (r.found id)
  fresh : ∀ id, r.lookups.begunAs id = 0 → (r.lookups.view id).initiated = 0
  tallied : r.lookups.Tallied 0
  methods : ∀ k rpc, r.pool.pending.lookup k = some rpc → OnlyGetPeers rpc.toRpcRequest

variable {view view' : View} {n n' : Nat} {found found' : Bool}

theorem Life.of_eq (h : Life view n found) (hview : view' = view) (hn : n' = n)
    (hfound : found' = found) : Life view' n' found' := by
  subst hview hn hfound
  exact h

theorem Life.rewrite (hview : view' = view) (hfound : found' = found) (h : Life view n found) :
    Life view' n found' := h.of_eq hview rfl hfound

/-- While a call of it is open, a lookup is live. -/
theorem Life.live_of_pos (h : Life view n found) (hn : 0 < n) :
    ∃ p begun, view = ⟨some p, begun, 1, []⟩ ∧ p.outstanding = n ∧ p.peersFound = found := by
  cases h with
  | idle => exact absurd hn (lt_irrefl 0)
  | live begun _ houtstanding hfound => exact ⟨_, begun, rfl, houtstanding, hfound⟩
  | done => exact absurd hn (lt_irrefl 0)

/-- The end of one of the calls that are counted. -/
theorem Life.complete {p : RealLookupProgress} {begun : Nat} (foundPeers : Bool)
    (houtstanding : p.outstanding = n + 1) :
    Life (View.complete foundPeers ⟨some p, begun, 1, []⟩) n (p.peersFound || foundPeers) := by
  rw [View.complete]
  simp only
  split
  · next hmore => exact .live begun (by omega) (by simp only; omega) rfl
  · next hlast =>
    obtain rfl : n = 0 := by omega
    exact .done begun _

theorem Life.started {begun attached : Nat} :
    Life (View.started ⟨some ⟨attached, false⟩, begun, 0, []⟩) attached false := by
  rw [View.started]
  by_cases hpos : 0 < attached
  · rw [if_pos (by simpa using hpos)]
    exact .live begun hpos rfl rfl
  · obtain rfl : attached = 0 := Nat.eq_zero_of_not_pos hpos
    exact .idle begun

/-! ## Steps -/

/-- The tracker after the end of a call. -/
theorem view_elim (lookupId : Option (BitVec 64)) (f : BitVec 64 → RealLookupTracker →
    RealLookupTracker) (g : View → View) (t : RealLookupTracker)
    (hf : ∀ id', (f id' t).view id = if id = id' then g (t.view id) else t.view id) :
    (lookupId.elim t fun id' => f id' t).view id =
      if lookupId = some id then g (t.view id) else t.view id := by
  cases lookupId with
  | none => rfl
  | some id' =>
    rw [Option.elim_some, hf]
    by_cases h : id = id'
    · rw [if_pos h, if_pos (congrArg some h.symm)]
    · rw [if_neg h, if_neg fun heq => h (Option.some.inj heq).symm]

theorem view_drop (outcome : RpcOutcome) (id' : BitVec 64) (t : RealLookupTracker) :
    (outcome.drop id' t).view id =
      if id = id' then (t.view id).complete false else t.view id := by
  unfold RpcOutcome.drop
  split <;> exact view_complete

theorem noneBegun_elim {f : BitVec 64 → RealLookupTracker → RealLookupTracker}
    (hf : ∀ id t, NoneBegun t (f id t)) (lookupId : Option (BitVec 64)) (t : RealLookupTracker) :
    NoneBegun t (lookupId.elim t fun id => f id t) := by
  cases lookupId with
  | none => exact .refl t
  | some id => exact hf id t

theorem noneBegun_drop (outcome : RpcOutcome) (id : BitVec 64) (t : RealLookupTracker) :
    NoneBegun t (outcome.drop id t) := by
  have htimeouts : NoneBegun t { t with rpcTimeouts := t.rpcTimeouts + 1 } :=
    ⟨rfl, rfl, fun _ => rfl⟩
  have hfailures : NoneBegun t { t with rpcFailures := t.rpcFailures + 1 } :=
    ⟨rfl, rfl, fun _ => rfl⟩
  unfold RpcOutcome.drop
  split
  · exact htimeouts.trans (noneBegun_complete id false _)
  · exact hfailures.trans (noneBegun_complete id false _)

theorem RealLookupTracker.Tallied.drop {opening : Nat} {t : RealLookupTracker}
    (h : t.Tallied opening) (outcome : RpcOutcome) (id : BitVec 64) :
    (outcome.drop id t).Tallied opening := by
  have htimeouts : { t with rpcTimeouts := t.rpcTimeouts + 1 }.Tallied opening :=
    ⟨h.initiated, h.succeeded, h.failed, h.balanced⟩
  have hfailures : { t with rpcFailures := t.rpcFailures + 1 }.Tallied opening :=
    ⟨h.initiated, h.succeeded, h.failed, h.balanced⟩
  unfold RpcOutcome.drop
  split
  · exact htimeouts.complete id false
  · exact hfailures.complete id false

/-- An id that is not used before a step without a begin is not used after it. -/
theorem fresh_of_noneBegun {t t' : RealLookupTracker}
    (hfresh : ∀ id, t.begunAs id = 0 → (t.view id).initiated = 0) (hnone : NoneBegun t t')
    (hinitiated : ∀ id, (t'.view id).initiated = (t.view id).initiated) :
    ∀ id, t'.begunAs id = 0 → (t'.view id).initiated = 0 := by
  intro id hid
  rw [hinitiated]
  exact hfresh id ((hnone.begunAs id).symm.trans hid)

theorem initiated_complete (foundPeers : Bool) (v : View) :
    (v.complete foundPeers).initiated = v.initiated := by
  rw [View.complete]
  split
  · rfl
  · split <;> rfl

theorem LookupsOk.dropped (h : LookupsOk r) {transaction : Bytes} {rpc : PendingRpc}
    {outcome : RpcOutcome} (hpending : r.pool.pending.lookup transaction = some rpc)
    (hbad : outcome.isAnswer = false) :
    LookupsOk ((r.resolve rpcTimeout transaction rpc outcome).withLookups
      (rpc.lookupId.elim r.lookups fun id => outcome.drop id r.lookups)) := by
  have hview : ∀ id, (rpc.lookupId.elim r.lookups fun id => outcome.drop id r.lookups).view id =
      if rpc.lookupId = some id then (r.lookups.view id).complete false else r.lookups.view id :=
    fun id => view_elim rpc.lookupId _ _ _ fun id' => view_drop outcome id' r.lookups
  have hnone := noneBegun_elim (noneBegun_drop outcome) rpc.lookupId r.lookups
  refine ⟨h.numbered.of_noneBegun hnone, fun id => ?_, ?_, ?_, pending_resolve (P := OnlyGetPeers) h.methods⟩
  · have hcarried := carried_resolve rpcTimeout outcome hpending id
    have hfound : (r.resolve rpcTimeout transaction rpc outcome).found id = r.found id := by
      rw [found_cons id _ rfl]
      cases outcome with
      | answered message => cases hbad
      | _ => rfl
    have hlife := h.life id
    refine Life.rewrite (hview id) hfound ?_
    show Life _ ((r.resolve rpcTimeout transaction rpc outcome).carried id) _
    split
    · next hid =>
      rw [if_pos hid] at hcarried
      -- The call was pending, so its lookup is live and counts it.
      obtain ⟨p, begun, hv, houtstanding, hpeers⟩ := hlife.live_of_pos (by omega)
      rw [hv]
      refine Life.of_eq (Life.complete false ?_) rfl rfl ?_
      · omega
      · rw [Bool.or_false, hpeers]
    · next hid =>
      rw [if_neg hid, Nat.add_zero] at hcarried
      rw [hcarried]
      exact hlife
  · refine fresh_of_noneBegun h.fresh hnone fun id => ?_
    show ((rpc.lookupId.elim r.lookups fun id => outcome.drop id r.lookups).view id).initiated = _
    rw [hview]
    split
    · exact initiated_complete false _
    · rfl
  · show (rpc.lookupId.elim r.lookups fun id => outcome.drop id r.lookups).Tallied 0
    cases rpc.lookupId with
    | none => exact h.tallied
    | some id => exact h.tallied.drop outcome id

theorem Continues.lookupId {rpc : PendingRpc} (h : Continues rpc request) :
    request.lookupId = none ∨ request.lookupId = rpc.lookupId := by
  obtain ⟨-, ⟨-, -, hlookup, -⟩ | ⟨-, -, -, hlookup, -⟩⟩ := h
  · exact .inl hlookup
  · exact .inr hlookup

theorem Continues.onlyGetPeers {rpc : PendingRpc} (h : Continues rpc request) :
    OnlyGetPeers request := by
  obtain ⟨-, ⟨-, -, hlookup, -⟩ | ⟨-, hmethod, -⟩⟩ := h
  · exact fun hne => absurd hlookup hne
  · exact fun _ => hmethod

theorem LookupsOk.answered (h : LookupsOk r) {transaction : Bytes} {rpc : PendingRpc}
    {message : KrpcMessage} (hpending : r.pool.pending.lookup transaction = some rpc)
    (hcontinues : ∀ request ∈ requests, Continues rpc request)
    (hcalls : Calls maxPending rpcTimeout requests
      (r.resolve rpcTimeout transaction rpc (.answered message)) r') :
    LookupsOk (r'.withLookups (if rpc.method = .getPeers then
      rpc.lookupId.elim r'.lookups fun id => r'.lookups.respond id message.hasPeers
    else r'.lookups)) := by
  have honly : rpc.lookupId ≠ none → rpc.method = .getPeers := h.methods _ _ hpending
  have hlookups : (if rpc.method = .getPeers then
      rpc.lookupId.elim r'.lookups fun id => r'.lookups.respond id message.hasPeers
      else r'.lookups) =
        rpc.lookupId.elim r'.lookups fun id => r'.lookups.respond id message.hasPeers := by
    split
    · rfl
    · next hother =>
      rw [not_not.mp fun hne => hother (honly hne)]
      rfl
  rw [hlookups]
  have hview : ∀ id, (rpc.lookupId.elim r'.lookups fun id =>
      r'.lookups.respond id message.hasPeers).view id = if rpc.lookupId = some id then
        (r'.lookups.view id).complete message.hasPeers else r'.lookups.view id :=
    fun id => view_elim rpc.lookupId _ _ _ fun _ => view_complete
  have hnone := hcalls.noneBegun.trans
    (noneBegun_elim (fun id t => noneBegun_complete id message.hasPeers t) rpc.lookupId r'.lookups)
  refine ⟨h.numbered.of_noneBegun hnone, fun id => ?_, ?_, ?_, ?_⟩
  · obtain ⟨attached, hzero, hattached⟩ := hcalls.attached id
    have hcarried := carried_resolve rpcTimeout (.answered message) hpending id
    have hlife := h.life id
    have hresolve : (r.resolve rpcTimeout transaction rpc (.answered message)).found id =
        (answersWithPeers id (.resolved transaction rpc (.answered message) r.pool.clock) ||
          r.found id) := found_cons id _ rfl
    have hfound := hattached.found.trans hresolve
    refine Life.rewrite (hview id) hfound ?_
    show Life _ (r'.carried id) _
    rw [hattached.carried, hattached.view]
    by_cases hid : rpc.lookupId = some id
    · rw [if_pos hid] at hcarried ⊢
      -- The continuations are attached before the answered call is subtracted: the lookup
      -- that it belongs to is not closed early.
      obtain ⟨p, begun, hv, houtstanding, hpeers⟩ := hlife.live_of_pos (by omega)
      change r.lookups.view id = _ at hv
      show Life (View.complete message.hasPeers ((r.lookups.view id).attachMany attached)) _ _
      rw [hv]
      refine Life.of_eq (Life.complete message.hasPeers ?_) rfl rfl ?_
      · simp only
        omega
      · have hmethod := honly (by rw [hid]; nofun)
        simp [answersWithPeers, hid, hmethod, hpeers, Bool.or_comm]
    -- A continuation carries the lookup id of the call, or none.
    · have hother : ∀ request ∈ requests, request.lookupId ≠ some id := by
        intro request hmem heq
        obtain hlookup | hlookup := (hcontinues request hmem).lookupId
        · rw [hlookup] at heq
          cases heq
        · exact hid (hlookup ▸ heq)
      rw [if_neg hid, Nat.add_zero] at hcarried
      rw [if_neg hid, hzero hother, Nat.add_zero, View.attachMany_zero, hcarried]
      show Life (r.lookups.view id) (r.carried id) _
      simpa [answersWithPeers, hid] using hlife
  · refine fresh_of_noneBegun h.fresh hnone fun id => ?_
    obtain ⟨attached, -, hattached⟩ := hcalls.attached id
    have hattach : (r'.lookups.view id).initiated = (r.lookups.view id).initiated := by
      rw [hattached.view]
      rfl
    show ((rpc.lookupId.elim r'.lookups fun id =>
      r'.lookups.respond id message.hasPeers).view id).initiated = _
    rw [hview]
    split
    · rw [initiated_complete, hattach]
    · exact hattach
  · have htallied := hcalls.tallied h.tallied
    show (rpc.lookupId.elim r'.lookups fun id =>
      r'.lookups.respond id message.hasPeers).Tallied 0
    cases rpc.lookupId with
    | none => exact htallied
    | some id => exact htallied.complete id _
  · exact hcalls.pending (P := OnlyGetPeers)
      (fun request hmem => (hcontinues request hmem).onlyGetPeers)
      (pending_resolve (P := OnlyGetPeers) h.methods)

/-- Calls for no lookup leave the tracker as it is. -/
theorem LookupsOk.untracked (h : LookupsOk r) (hcalls : Calls maxPending rpcTimeout requests r r')
    (hplain : ∀ request ∈ requests, request.lookupId = none) : LookupsOk r' := by
  have hnone := hcalls.noneBegun
  have hsame : ∀ id, Attached id 0 r r' := by
    intro id
    obtain ⟨attached, hzero, hattached⟩ := hcalls.attached id
    rwa [hzero fun request hmem => by rw [hplain request hmem]; nofun] at hattached
  refine ⟨h.numbered.of_noneBegun hnone, fun id => ?_, ?_, hcalls.tallied h.tallied, ?_⟩
  · refine (h.life id).of_eq ?_ (hsame id).carried (hsame id).found
    rw [(hsame id).view, View.attachMany_zero]
  · refine fresh_of_noneBegun h.fresh hnone fun id => ?_
    rw [(hsame id).view, View.attachMany_zero]
  · exact hcalls.pending (P := OnlyGetPeers)
      (fun request hmem hne => absurd (hplain request hmem) hne) h.methods

theorem LookupsOk.lookup (h : LookupsOk r) (hfew : r.lookups.begun < 2 ^ 64)
    (hasks : ∀ request ∈ requests, Asks (some r.lookups.nextId) request)
    (hcalls : Calls maxPending rpcTimeout requests (r.withLookups r.lookups.begin.2) r') :
    LookupsOk (r'.withLookups (r'.lookups.started r.lookups.nextId)) := by
  have hnew := h.numbered.begunAs_next hfew
  -- The id was never given out, so no call carries it and nothing was found for it.
  have hidle : ∃ begun, r.lookups.view r.lookups.nextId = ⟨none, begun, 0, []⟩ ∧
      r.carried r.lookups.nextId = 0 ∧ r.found r.lookups.nextId = false := by
    have hlife := h.life r.lookups.nextId
    have hinitiated := h.fresh _ hnew
    generalize r.lookups.view r.lookups.nextId = view at hlife hinitiated ⊢
    generalize r.carried r.lookups.nextId = n at hlife ⊢
    generalize r.found r.lookups.nextId = found at hlife ⊢
    cases hlife with
    | idle begun => exact ⟨begun, rfl, rfl, rfl⟩
    | live => cases hinitiated
    | done => cases hinitiated
  obtain ⟨begun, hview, hcarried, hfound⟩ := hidle
  have hother : ∀ id, id ≠ r.lookups.nextId → Attached id 0 r r' := by
    intro id hid
    obtain ⟨attached, hzero, hattached⟩ := hcalls.attached id
    rw [hzero fun request hmem heq => hid ?_] at hattached
    · exact ⟨hattached.carried, by rw [hattached.view]; exact congrArg _ (view_begin.trans (if_neg hid)),
        hattached.found⟩
    · rw [(hasks request hmem).2.2.2.1, Option.some_inj] at heq
      exact heq.symm
  obtain ⟨attached, -, hattached⟩ := hcalls.attached r.lookups.nextId
  have hopened : r'.lookups.view r.lookups.nextId = ⟨some ⟨attached, false⟩, begun + 1, 0, []⟩ := by
    rw [hattached.view]
    show (r.lookups.begin.2.view r.lookups.nextId).attachMany attached = _
    rw [view_begin, if_pos rfl, hview]
    simp [View.attachMany]
  have hnone := hcalls.noneBegun.trans (noneBegun_started r.lookups.nextId r'.lookups)
  have hbegunAs : ∀ id, (r'.lookups.started r.lookups.nextId).begunAs id =
      r.lookups.begin.2.begunAs id := hnone.begunAs
  refine ⟨h.numbered.begin.of_noneBegun hnone, fun id => ?_, fun id hid => ?_, ?_, ?_⟩
  · show Life ((r'.lookups.started r.lookups.nextId).view id) (r'.carried id) (r'.found id)
    rw [view_started]
    by_cases heq : id = r.lookups.nextId
    · subst heq
      rw [if_pos rfl, hopened, hattached.carried, hattached.found]
      show Life _ (r.carried r.lookups.nextId + attached) (r.found r.lookups.nextId)
      rw [hcarried, hfound, Nat.zero_add]
      exact Life.started
    · rw [if_neg heq]
      refine (h.life id).of_eq ?_ (hother id heq).carried (hother id heq).found
      rw [(hother id heq).view, View.attachMany_zero]
  · show ((r'.lookups.started r.lookups.nextId).view id).initiated = 0
    change (r'.lookups.started r.lookups.nextId).begunAs id = 0 at hid
    rw [hbegunAs, begunAs_begin] at hid
    split at hid
    · cases hid
    · next hne =>
      rw [view_started, if_neg hne, (hother id hne).view]
      exact h.fresh id hid
  · have hnolookup : r.lookups.active.lookup r.lookups.nextId = none :=
      congrArg View.progress hview
    have htallied := hcalls.tallied (h.tallied.begin hnolookup)
    exact htallied.started (congrArg View.progress hopened)
  · exact hcalls.pending (P := OnlyGetPeers) (fun request hmem _ => (hasks request hmem).1)
      h.methods

/-! ## Runs -/

theorem noneBegun_answered (rpc : PendingRpc) (foundPeers : Bool) (t : RealLookupTracker) :
    NoneBegun t (if rpc.method = .getPeers then
      rpc.lookupId.elim t fun id => t.respond id foundPeers else t) := by
  split
  · exact noneBegun_elim (fun id t => noneBegun_complete id foundPeers t) rpc.lookupId t
  · exact .refl t

theorem RpcStep.begun_le (h : RpcStep maxPending rpcTimeout r r') :
    r.lookups.begun ≤ r'.lookups.begun := by
  cases h with
  | wait | sweep => exact Nat.le_refl _
  | @dropped _ rpc outcome =>
    exact (noneBegun_elim (noneBegun_drop outcome) rpc.lookupId r.lookups).begun.ge
  | answered _ _ _ hcalls =>
    exact (hcalls.noneBegun.trans (noneBegun_answered _ _ _)).begun.ge
  | bootstrap _ _ _ _ hcall =>
    exact (Calls.cons hcall (.nil _)).noneBegun.begun.ge
  | lookup _ _ hcalls =>
    have hbegun := (hcalls.noneBegun.trans (noneBegun_started r.lookups.nextId _)).begun
    refine le_trans ?_ hbegun.ge
    exact List.Sublist.countP_le (List.sublist_cons_self _ _)
  | untracked _ hcalls => exact hcalls.noneBegun.begun.ge

/-- A step keeps the tracker in order while ids last. -/
theorem LookupsOk.step (h : LookupsOk r) (hstep : RpcStep maxPending rpcTimeout r r')
    (hfew : r.lookups.begun < 2 ^ 64) : LookupsOk r' := by
  cases hstep with
  | wait | sweep => exact ⟨h.numbered, h.life, h.fresh, h.tallied, h.methods⟩
  | dropped hpending hbad => exact h.dropped hpending hbad
  | answered hpending _ hcontinues hcalls => exact h.answered hpending hcontinues hcalls
  | bootstrap _ hlookup _ _ hcall =>
    have hroots : LookupsOk { r with roots := r.roots + 1 } :=
      ⟨h.numbered, h.life, h.fresh, h.tallied, h.methods⟩
    refine hroots.untracked (.cons hcall (.nil _)) fun q hq => ?_
    rw [List.mem_singleton.mp hq, hlookup]
  | lookup _ hasks hcalls => exact h.lookup hfew hasks hcalls
  | untracked hplain hcalls => exact h.untracked hcalls fun q hq => (hplain q hq).1

theorem numbered_new : RealLookupTracker.new.Numbered := by
  refine ⟨rfl, fun id => ?_⟩
  have hlt := id.isLt
  show 0 = (0 + (2 ^ 64 - 1 - id.toNat)) / 2 ^ 64
  omega

/-- Ids are given out in order in every run. -/
theorem RpcStep.numbered (h : RpcStep maxPending rpcTimeout r r') (hr : r.lookups.Numbered) :
    r'.lookups.Numbered := by
  cases h with
  | wait | sweep => exact hr
  | dropped => exact hr.of_noneBegun (noneBegun_elim (noneBegun_drop _) _ _)
  | answered _ _ _ hcalls =>
    exact hr.of_noneBegun (hcalls.noneBegun.trans (noneBegun_answered _ _ _))
  | bootstrap _ _ _ _ hcall => exact hr.of_noneBegun (Calls.cons hcall (.nil _)).noneBegun
  | lookup _ _ hcalls =>
    exact hr.begin.of_noneBegun (hcalls.noneBegun.trans (noneBegun_started _ _))
  | untracked _ hcalls => exact hr.of_noneBegun hcalls.noneBegun

theorem numbered_run (x : Externals) (ourId : NodeId) (tokenSecret : Bytes) (config : DhtConfig)
    (clock : Nat) (nextTx : BitVec 16) (turns : List DhtCrawler.Turn) :
    (DhtCrawler.run x (.withConfig ourId tokenSecret config clock nextTx)
      turns).rpcs.lookups.Numbered :=
  DhtCrawler.run_invariant (I := fun r => r.lookups.Numbered) x turns
    (fun _ _ hr hstep => hstep.numbered hr) numbered_new

theorem lookupsOk_new (clock : Nat) (nextTx : BitVec 16) : LookupsOk (.new clock nextTx) where
  numbered := numbered_new
  life := fun _ => .idle 0
  fresh := fun _ _ => rfl
  tallied := ⟨rfl, rfl, rfl, rfl⟩
  methods := nofun

theorem lookupsOk_run (x : Externals) (ourId : NodeId) (tokenSecret : Bytes) (config : DhtConfig)
    (clock : Nat) (nextTx : BitVec 16) (turns : List DhtCrawler.Turn)
    (hfew : (DhtCrawler.run x (.withConfig ourId tokenSecret config clock nextTx)
      turns).rpcs.lookups.begun < 2 ^ 64) :
    LookupsOk (DhtCrawler.run x (.withConfig ourId tokenSecret config clock nextTx) turns).rpcs := by
  refine DhtCrawler.run_invariant (I := fun r => r.lookups.begun < 2 ^ 64 → LookupsOk r) x turns
    (fun r r' h hstep hfew => ?_) (fun _ => lookupsOk_new clock nextTx) hfew
  have hbefore := hstep.begun_le.trans_lt hfew
  exact (h hbefore).step hstep hbefore

/-- At every event boundary the tracker counts the pending calls of every lookup, the
counters add up, and a lookup that was initiated is finalized once, when its last call is
closed, with success when an accepted answer to one of its calls had peers. -/
theorem lookups_accounted (x : Externals) (ourId : NodeId) (tokenSecret : Bytes)
    (config : DhtConfig) (clock : Nat) (nextTx : BitVec 16) (turns : List DhtCrawler.Turn)
    (hfew : (DhtCrawler.run x (.withConfig ourId tokenSecret config clock nextTx)
      turns).rpcs.lookups.begun < 2 ^ 64) :
    let r := (DhtCrawler.run x (.withConfig ourId tokenSecret config clock nextTx) turns).rpcs
    (∀ id, ((r.lookups.active.lookup id).map RealLookupProgress.outstanding).getD 0 = r.carried id ∧
        ((r.lookups.active.lookup id).isSome ↔ 0 < r.carried id)) ∧
      r.lookups.initiated = r.lookups.succeeded + r.lookups.failed + r.lookups.active.count ∧
      r.lookups.initiated = r.lookups.history.countP (fun a => a matches .initiated _) ∧
      r.lookups.succeeded = r.lookups.history.countP succeededAct ∧
      r.lookups.failed = r.lookups.history.countP failedAct ∧
      ∀ id, (r.lookups.view id).initiated ≤ 1 ∧ (r.lookups.view id).finals.length ≤ 1 ∧
        ((r.lookups.view id).finals ≠ [] ↔
          (r.lookups.view id).initiated = 1 ∧ r.carried id = 0) ∧
        ∀ succeeded ∈ (r.lookups.view id).finals, succeeded = r.found id := by
  intro r
  have hr := lookupsOk_run x ourId tokenSecret config clock nextTx turns hfew
  have hbalanced := hr.tallied.balanced
  refine ⟨fun id => ?_, hbalanced, hr.tallied.initiated, hr.tallied.succeeded, hr.tallied.failed,
    fun id => ?_⟩
  · have hlife := hr.life id
    show ((r.lookups.view id).progress.map RealLookupProgress.outstanding).getD 0 = _ ∧
      ((r.lookups.view id).progress.isSome ↔ _)
    change Life (r.lookups.view id) (r.carried id) (r.found id) at hlife
    generalize r.lookups.view id = view at hlife ⊢
    generalize r.carried id = n at hlife ⊢
    generalize r.found id = found at hlife
    cases hlife with
    | idle | done => simp
    | live begun hpos houtstanding => simp [houtstanding, hpos]
  · have hlife := hr.life id
    change Life (r.lookups.view id) (r.carried id) (r.found id) at hlife
    generalize r.lookups.view id = view at hlife ⊢
    generalize r.carried id = n at hlife ⊢
    generalize r.found id = found at hlife ⊢
    cases hlife with
    | idle | done => simp
    | live begun hpos houtstanding => simp [Nat.pos_iff_ne_zero.mp hpos]

/-- A lookup with one call, to which no answer comes. -/
def unansweredLookup : List DhtCrawler.Turn :=
  [(.quiet 0, .seedNodes [⟨2, ⟨⟨8, 8, 8, 8⟩, 53⟩⟩]),
    (.quiet 0, .seedInfoHashes [3]),
    (.quiet (fromSecs 1), .discoveryTick 0 []),
    (.quiet (fromSecs 31), .refreshTick)]

theorem lookups_accounted_unanswered :
    let r := (DhtCrawler.run ⟨fun _ => .error "", fun b => b⟩ (.withConfig 1 [] .default 0 0)
      unansweredLookup).rpcs
    (r.lookups.begun < 2 ^ 64 ∧ r.lookups.initiated = 1 ∧ (r.lookups.view 0).finals = [false]) ∧
      r.lookups.initiated = r.lookups.succeeded + r.lookups.failed + r.lookups.active.count :=
  ⟨by decide +kernel, (lookups_accounted ⟨fun _ => .error "", fun b => b⟩ 1 [] .default 0 0
    unansweredLookup (by decide +kernel)).2.1⟩

end Btfind
