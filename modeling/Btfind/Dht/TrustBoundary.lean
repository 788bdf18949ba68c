import Btfind.Dht.RpcSteps

/-!
# What a datagram can change

A response or an error that no pending call expects changes nothing but statistics, and
so does a datagram that is delivered again.
-/

namespace Btfind

open Quarantine

def KrpcMessage.isQuery : KrpcMessage → Bool
  | .query .. => true
  | _ => false

variable {maxPending rpcTimeout reusableAt : Nat} {request : RpcRequest}
  {requests : List RpcRequest} {r r' : RpcState} {k : Bytes}

/-! ## Retired transactions -/

/-- A transaction is closed, and its id is not used again before some time. -/
structure Retired (k : Bytes) (reusableAt : Nat) (r : RpcState) : Prop where
  closed : r.pool.pending.lookup k = none
  retired : r.pool.retired.lookup k = some reusableAt

theorem Retired.of_pool (h : Retired k reusableAt r)
    (hpending : r'.pool.pending.lookup k = r.pool.pending.lookup k)
    (hretired : r'.pool.retired.lookup k = r.pool.retired.lookup k) : Retired k reusableAt r' :=
  ⟨hpending.trans h.closed, hretired.trans h.retired⟩

theorem Retired.of_eq (h : Retired k reusableAt r) (hpool : r'.pool = r.pool) :
    Retired k reusableAt r' := h.of_pool (by rw [hpool]) (by rw [hpool])

theorem Retired.called (h : Retired k reusableAt r)
    (hcall : Called maxPending rpcTimeout request r r') : Retired k reusableAt r' := by
  cases hcall with
  | unsent elapsed hpool => exact h.of_pool (by rw [hpool]; rfl) (by rw [hpool]; rfl)
  | sent elapsed tx hfree _ hpool =>
    -- A retired id is not free, so the call was sent under another one.
    have hother : k ≠ transactionIdBytes tx := by
      rintro rfl
      have hretired := h.retired
      rw [hfree.2] at hretired
      cases hretired
    refine h.of_pool ?_ (by rw [hpool]; rfl)
    rw [hpool]
    exact AList.lookup_insert_ne hother

theorem Retired.calls (h : Retired k reusableAt r)
    (hcalls : Calls maxPending rpcTimeout requests r r') : Retired k reusableAt r' :=
  hcalls.invariant (fun _ _ _ _ hr hcall => hr.called hcall) h

theorem Retired.resolve (h : Retired k reusableAt r) {transaction : Bytes} {rpc : PendingRpc}
    {outcome : RpcOutcome} (hpending : r.pool.pending.lookup transaction = some rpc) :
    Retired k reusableAt (r.resolve rpcTimeout transaction rpc outcome) := by
  have hother : k ≠ transaction := by
    rintro rfl
    have hclosed := h.closed
    rw [hpending] at hclosed
    cases hclosed
  exact h.of_pool (AList.lookup_erase_ne hother) (AList.lookup_insert_ne hother)

theorem retired_resolve (rpcTimeout : Nat) (transaction : Bytes) (rpc : PendingRpc)
    (outcome : RpcOutcome) (r : RpcState) :
    Retired transaction (r.pool.clock + rpcTimeout) (r.resolve rpcTimeout transaction rpc outcome) :=
  ⟨AList.lookup_erase _ _, AList.lookup_insert _⟩

/-- A step before the end of the quarantine keeps a transaction retired. -/
theorem Retired.step (h : Retired k reusableAt r) (hstep : RpcStep maxPending rpcTimeout r r')
    (hbefore : r.pool.clock < reusableAt) : Retired k reusableAt r' := by
  cases hstep with
  | wait elapsed => exact h.of_pool rfl rfl
  | sweep =>
    refine h.of_pool rfl ?_
    show (r.pool.retired.keep _).lookup k = _
    rw [AList.lookup_keep, h.retired]
    exact Option.filter_eq_some_iff.mpr ⟨rfl, decide_eq_true hbefore⟩
  | dropped hpending => exact (h.resolve hpending).of_eq rfl
  | answered hpending _ _ hcalls => exact ((h.resolve hpending).calls hcalls).of_eq rfl
  | bootstrap _ _ _ _ hcall =>
    have hroots : Retired k reusableAt { r with roots := r.roots + 1 } := h.of_pool rfl rfl
    exact hroots.called hcall
  | lookup _ _ hcalls =>
    have hbegin : Retired k reusableAt (r.withLookups r.lookups.begin.2) := h.of_pool rfl rfl
    exact (hbegin.calls hcalls).of_eq rfl
  | untracked _ hcalls => exact h.calls hcalls

theorem Retired.steps (h : Retired k reusableAt r) (hsteps : RpcSteps maxPending rpcTimeout r r')
    (hbefore : r'.pool.clock < reusableAt) : Retired k reusableAt r' := by
  induction hsteps with
  | refl => exact h
  | tail _ hlast ih =>
    -- The clock only moves on, so the quarantine was not over before the step either.
    have hearlier := hlast.clock_le.trans_lt hbefore
    exact (ih hearlier).step hlast hearlier

/-! ## Datagrams that nothing expects -/

namespace DhtCrawler

variable {c c' c'' : DhtCrawler} {w : Surroundings} {x : Externals} {message : KrpcMessage}
  {source : SocketAddrV4} {data : Bytes}

/-- All but the clock and the statistics is as before. -/
def Untouched (c c' : DhtCrawler) : Prop :=
  ∃ elapsed stats, c' = { c.wait elapsed with stats := stats }

theorem Untouched.trans (h : Untouched c c') (h' : Untouched c' c'') : Untouched c c'' := by
  obtain ⟨elapsed, stats, rfl⟩ := h
  obtain ⟨elapsed', stats', rfl⟩ := h'
  refine ⟨elapsed + elapsed', stats', ?_⟩
  simp only [wait, Pool.advance, Nat.add_assoc]

theorem Untouched.pending (h : Untouched c c') :
    c'.rpcs.pool.pending = c.rpcs.pool.pending := by
  obtain ⟨elapsed, stats, rfl⟩ := h
  rfl

/-- A call that waits for a message from this source. -/
def Expects (c : DhtCrawler) (message : KrpcMessage) (source : SocketAddrV4) : Prop :=
  ∃ pending, c.rpcs.pool.pending.lookup message.transactionId = some pending ∧
    pending.expectedAddr = source

theorem Untouched.expects (h : Untouched c c') :
    c'.Expects message source ↔ c.Expects message source := by
  unfold Expects
  rw [h.pending]

theorem untouched_emitStat (elapsed : Nat) (event : CrawlStatsEvent) (c : DhtCrawler) :
    Untouched c ((c.wait elapsed).emitStat event) := ⟨elapsed, _, rfl⟩

theorem step_packet (hdata : data ≠ []) :
    step x c (w, .packet data source) =
      (c.wait w.elapsed).handlePacket x w (data.take maxPacketSize) source := by
  have hsome : data.isEmpty = false := by simpa using hdata
  show (if data.isEmpty then _ else _) = _
  rw [hsome]
  rfl

theorem handlePacket_response {t : Bytes} {y : String} {r extra : KrpcMap}
    (hmessage : KrpcMessage.fromBytes x.decode data = .ok (.response t y r extra)) :
    c.handlePacket x w data source = c.handleResponse w (.response t y r extra) source := by
  rw [handlePacket]
  rw [hmessage]

theorem handlePacket_error {t : Bytes} {y : String} {e : KrpcError} {extra : KrpcMap}
    (hmessage : KrpcMessage.fromBytes x.decode data = .ok (.error t y e extra)) :
    c.handlePacket x w data source = c.handleError (.error t y e extra) source := by
  rw [handlePacket]
  rw [hmessage]

theorem handlePacket_query (hmessage : KrpcMessage.fromBytes x.decode data = .ok message)
    (hquery : message.isQuery) :
    c.handlePacket x w data source = c.handleQuery x w message source := by
  rw [handlePacket]
  rw [hmessage]
  cases message with
  | query => rfl
  | response | error => cases hquery

theorem untouched_of_undecoded {error : String}
    (herror : KrpcMessage.fromBytes x.decode (data.take maxPacketSize) = .error error) :
    Untouched c (step x c (w, .packet data source)) := by
  by_cases hdata : data = []
  · subst hdata
    exact ⟨w.elapsed, c.stats, rfl⟩
  · rw [step_packet hdata]
    rw [handlePacket]
    rw [herror]
    exact untouched_emitStat w.elapsed _ c

theorem correlate_unexpected (h : ¬c.Expects message source) :
    correlateResponse c.rpcs.pool.pending message source = .unsolicited ∨
      correlateResponse c.rpcs.pool.pending message source = .unexpectedSource := by
  obtain ⟨-, heq⟩ | ⟨pending, hpending, ⟨-, heq⟩ | ⟨haddr, -⟩⟩ :=
    correlate_cases c.rpcs.pool.pending message source
  · exact .inl heq
  · exact .inr heq
  · exact absurd ⟨pending, hpending, haddr⟩ h

/-- A response or an error that no call expects has no effect. -/
theorem untouched_of_unexpected (hdata : data ≠ [])
    (hmessage : KrpcMessage.fromBytes x.decode (data.take maxPacketSize) = .ok message)
    (hquery : message.isQuery = false) (hunexpected : ¬c.Expects message source) :
    Untouched c (step x c (w, .packet data source)) := by
  rw [step_packet hdata]
  have hwait : ¬(c.wait w.elapsed).Expects message source := hunexpected
  cases message with
  | query => cases hquery
  | response t y r extra =>
    rw [handlePacket_response hmessage]
    rw [handleResponse]
    obtain h | h := correlate_unexpected hwait <;> rw [h] <;> exact untouched_emitStat _ _ c
  | error t y e extra =>
    rw [handlePacket_error hmessage]
    rw [handleError]
    split
    · exact untouched_emitStat _ _ c
    · next pending hpending =>
      rw [if_pos fun heq => hwait ⟨pending, hpending, heq⟩]
      exact untouched_emitStat _ _ c

/-! ## Datagrams that a call expects -/

theorem correlate_expected {pending : PendingRpc}
    (hpending : c.rpcs.pool.pending.lookup message.transactionId = some pending)
    (haddr : pending.expectedAddr = source) :
    correlateResponse c.rpcs.pool.pending message source = .malformed pending ∨
      ∃ id, correlateResponse c.rpcs.pool.pending message source = .accepted pending id := by
  obtain ⟨hnone, -⟩ | ⟨other, hother, hchecked⟩ :=
    correlate_cases c.rpcs.pool.pending message source
  · rw [hpending] at hnone
    cases hnone
  · obtain rfl : pending = other := Option.some.inj (hpending.symm.trans hother)
    obtain ⟨hne, -⟩ | ⟨-, heq | ⟨id, heq, -⟩⟩ := hchecked
    · exact absurd haddr hne
    · exact .inl heq
    · exact .inr ⟨id, heq⟩

theorem updateLookups_pool (lookupId : Option (BitVec 64))
    (f : BitVec 64 → RealLookupTracker → RealLookupTracker) (c : DhtCrawler) :
    (lookupId.elim c fun id => c.updateLookups (f id)).rpcs.pool = c.rpcs.pool := by
  cases lookupId <;> rfl

theorem retired_handleResponse (hexpected : c.Expects message source) :
    Retired message.transactionId (c.now + c.config.rpcTimeout)
      (c.handleResponse w message source).rpcs := by
  obtain ⟨pending, hpending, haddr⟩ := hexpected
  have hretired := fun outcome => retired_resolve c.config.rpcTimeout
    message.transactionId pending outcome c.rpcs
  rw [handleResponse]
  obtain h | ⟨id, h⟩ := correlate_expected hpending haddr
  · rw [h]
    have hpool := updateLookups_pool pending.lookupId RealLookupTracker.failure
      ((c.resolveRpc message.transactionId pending .malformed).emitStat .rpcMalformed)
    exact (hretired .malformed).of_eq hpool
  · rw [h]
    obtain ⟨⟨requests, r, -, -, hcalls, hrpcs⟩, -⟩ := answered_acceptResponse w source id
      (c.resolveRpc message.transactionId pending (.answered message))
    simp only
    rw [hrpcs]
    exact ((hretired (.answered message)).calls hcalls).of_eq rfl

theorem retired_handleError (hexpected : c.Expects message source) :
    Retired message.transactionId (c.now + c.config.rpcTimeout)
      (c.handleError message source).rpcs := by
  obtain ⟨pending, hpending, haddr⟩ := hexpected
  rw [handleError]
  rw [hpending]
  simp only [haddr, ne_eq, not_true_eq_false, if_false]
  have hcharge := sameCalls_chargeFailure pending
    (c.resolveRpc message.transactionId pending .failed)
  have hpool := (updateLookups_pool pending.lookupId RealLookupTracker.failure
    ((c.resolveRpc message.transactionId pending .failed).chargeFailure pending)).trans
      (congrArg RpcState.pool hcharge.rpcs)
  have hretired := retired_resolve c.config.rpcTimeout message.transactionId
    pending .failed c.rpcs
  exact hretired.of_eq hpool

/-- A message that a call expects closes the call. -/
theorem retired_of_expected (hdata : data ≠ [])
    (hmessage : KrpcMessage.fromBytes x.decode (data.take maxPacketSize) = .ok message)
    (hquery : message.isQuery = false) (hexpected : c.Expects message source) :
    Retired message.transactionId (c.now + w.elapsed + c.config.rpcTimeout)
      (step x c (w, .packet data source)).rpcs := by
  rw [step_packet hdata]
  have hwait : (c.wait w.elapsed).Expects message source := hexpected
  cases message with
  | query => cases hquery
  | response t y r extra =>
    rw [handlePacket_response hmessage]
    exact retired_handleResponse hwait
  | error t y e extra =>
    rw [handlePacket_error hmessage]
    exact retired_handleError hwait

theorem not_expects_of_retired (h : Retired message.transactionId reusableAt c.rpcs) :
    ¬c.Expects message source := by
  rintro ⟨pending, hpending, -⟩
  rw [h.closed] at hpending
  cases hpending

/-- A datagram whose transaction is closed can come any number of times. -/
theorem untouched_replay (hdata : data ≠ [])
    (hmessage : KrpcMessage.fromBytes x.decode (data.take maxPacketSize) = .ok message)
    (hquery : message.isQuery = false) (ws : List Surroundings)
    (hunexpected : ¬c.Expects message source) :
    Untouched c (run x c (ws.map fun w => (w, .packet data source))) := by
  induction ws generalizing c with
  | nil => exact ⟨0, c.stats, rfl⟩
  | cons w ws ih =>
    -- No call expects the first copy, and after it none expects the next one.
    have hfirst := untouched_of_unexpected (w := w) hdata hmessage hquery hunexpected
    exact hfirst.trans (ih fun h => hunexpected (hfirst.expects.mp h))

/-! ## Responses -/

/-- All but the calls, the clock and the statistics is as before. -/
def OnlyCalls (c c' : DhtCrawler) : Prop :=
  ∃ rpcs stats, c' = { c with rpcs := rpcs, stats := stats }

theorem correlate_accepted {pending : PendingRpc} {id : NodeId}
    (h : correlateResponse c.rpcs.pool.pending message source = .accepted pending id) :
    c.rpcs.pool.pending.lookup message.transactionId = some pending ∧
      pending.expectedAddr = source ∧ message.extractNodeId = some id ∧
      (∀ expected, pending.expectedNodeId = some expected → expected = id) ∧
      message.responseHasShape pending.method = true := by
  obtain ⟨-, heq⟩ | ⟨other, hpending, ⟨-, heq⟩ | ⟨haddr, heq | ⟨_, heq, hchecked⟩⟩⟩ :=
    correlate_cases c.rpcs.pool.pending message source
  all_goals cases h.symm.trans heq
  exact ⟨hpending, haddr, hchecked⟩

/-- An id is twenty bytes in its field. -/
theorem fieldId_eq {values : KrpcMap} {key : String} {id : NodeId}
    (h : fieldId values key = some id) :
    ∃ b, values.get key = some (.bytes b) ∧ b.length = 20 ∧ idOfBytes b = id := by
  rw [fieldId] at h
  split at h
  · next b hget =>
    split_ifs at h with hlength
    exact ⟨b, hget, not_not.mp hlength, Option.some.inj h⟩
  · cases h

/-- The fields that a response to a method has, and the kinds of their values. -/
def ResponseFields (r : KrpcMap) : RpcMethod → Prop
  | .ping => True
  | .findNode => ∃ nodes, r.get "nodes" = some (.bytes nodes)
  | .getPeers =>
    (∃ nodes, r.get "nodes" = some (.bytes nodes)) ∨
      (∃ values, r.get "values" = some (.list values)) ∨
      ∃ values, r.get "values" = some (.bytes values)
  | .sampleInfohashes =>
    ∃ interval num samples, r.get "interval" = some (.int interval) ∧
      r.get "num" = some (.int num) ∧ r.get "samples" = some (.bytes samples)

theorem hasBytes_eq_true {r : KrpcMap} {key : String} (h : KrpcMessage.hasBytes r key = true) :
    ∃ b, r.get key = some (.bytes b) := by
  rw [KrpcMessage.hasBytes] at h
  split at h
  · next b hget => exact ⟨b, hget⟩
  · cases h

theorem hasInt_eq_true {r : KrpcMap} {key : String} (h : KrpcMessage.hasInt r key = true) :
    ∃ n, r.get key = some (.int n) := by
  rw [KrpcMessage.hasInt] at h
  split at h
  · next n hget => exact ⟨n, hget⟩
  · cases h

theorem hasList_eq_true {r : KrpcMap} {key : String} (h : KrpcMessage.hasList r key = true) :
    ∃ items, r.get key = some (.list items) := by
  rw [KrpcMessage.hasList] at h
  split at h
  · next items hget => exact ⟨items, hget⟩
  · cases h

theorem responseFields_of_hasFields {r : KrpcMap} {method : RpcMethod}
    (h : KrpcMessage.hasFields r method = true) : ResponseFields r method := by
  cases method with
  | ping => trivial
  | findNode => exact hasBytes_eq_true h
  | getPeers =>
    simp only [KrpcMessage.hasFields, Bool.or_eq_true] at h
    obtain (h | h) | h := h
    · exact .inl (hasBytes_eq_true h)
    · exact .inr (.inl (hasList_eq_true h))
    · exact .inr (.inr (hasBytes_eq_true h))
  | sampleInfohashes =>
    simp only [KrpcMessage.hasFields, Bool.and_eq_true] at h
    obtain ⟨⟨hinterval, hnum⟩, hsamples⟩ := h
    obtain ⟨interval, hinterval⟩ := hasInt_eq_true hinterval
    obtain ⟨num, hnum⟩ := hasInt_eq_true hnum
    obtain ⟨samples, hsamples⟩ := hasBytes_eq_true hsamples
    exact ⟨interval, num, samples, hinterval, hnum, hsamples⟩

/-- A response that is not accepted changes no more than the calls. -/
theorem onlyCalls_of_not_accepted (w : Surroundings)
    (h : ∀ pending id, correlateResponse c.rpcs.pool.pending message source ≠ .accepted pending id) :
    OnlyCalls c (c.handleResponse w message source) := by
  rw [handleResponse]
  split
  · exact ⟨_, _, rfl⟩
  · exact ⟨_, _, rfl⟩
  · next pending _ => cases pending.lookupId <;> exact ⟨_, _, rfl⟩
  · next pending id haccepted => exact absurd haccepted (h pending id)

/-- What a datagram can change, in every state and so in every one that is reached. -/
theorem trust_boundary (x : Externals) (c : DhtCrawler) (w : Surroundings) (data : Bytes)
    (source : SocketAddrV4) :
    let c' := step x c (w, .packet data source)
    (∀ error, KrpcMessage.fromBytes x.decode (data.take maxPacketSize) = .error error →
        Untouched c c') ∧
      (data = [] → Untouched c c') ∧
      ∀ message, data ≠ [] →
        KrpcMessage.fromBytes x.decode (data.take maxPacketSize) = .ok message →
        (message.isQuery = false → ¬c.Expects message source → Untouched c c') ∧
        (message.isQuery = true → c'.routing = c.routing ∧
          c'.rpcs.pool.pending = c.rpcs.pool.pending ∧
          c'.rpcs.pool.retired = c.rpcs.pool.retired ∧ c'.rpcs.lookups = c.rpcs.lookups) ∧
        (∀ t y r extra, message = .response t y r extra →
          (∀ pending id,
            correlateResponse c.rpcs.pool.pending message source = .accepted pending id →
              c.rpcs.pool.pending.lookup t = some pending ∧ pending.expectedAddr = source ∧
              message.extractNodeId = some id ∧
              (∃ b, r.get "id" = some (.bytes b) ∧ b.length = 20 ∧ idOfBytes b = id) ∧
              (∀ expected, pending.expectedNodeId = some expected → expected = id) ∧
              message.responseHasShape pending.method = true ∧ ResponseFields r pending.method) ∧
          ((∀ pending id,
            correlateResponse c.rpcs.pool.pending message source ≠ .accepted pending id) →
              OnlyCalls c c')) ∧
        (message.isQuery = false → c.Expects message source →
          (∀ ws : List Surroundings,
            Untouched c' (run x c' (ws.map fun w => (w, .packet data source)))) ∧
          ∀ turns, (run x c' turns).now < c.now + w.elapsed + c.config.rpcTimeout →
            ∀ ws : List Surroundings, Untouched (run x c' turns)
              (run x (run x c' turns) (ws.map fun w => (w, .packet data source)))) := by
  intro c'
  refine ⟨fun error => untouched_of_undecoded, ?_, fun message hdata hmessage => ⟨?_, ?_, ?_, ?_⟩⟩
  · rintro rfl
    exact ⟨w.elapsed, c.stats, rfl⟩
  · exact untouched_of_unexpected hdata hmessage
  · intro hquery
    have hsame := sameCore_handleQuery x w message source (c.wait w.elapsed)
    have hstep : c' = (c.wait w.elapsed).handleQuery x w message source :=
      (step_packet hdata).trans (handlePacket_query hmessage hquery)
    rw [hstep, hsame.rpcs, hsame.routing]
    exact ⟨rfl, rfl, rfl, rfl⟩
  · rintro t y r extra rfl
    refine ⟨fun pending id haccepted => ?_, fun hnever => ?_⟩
    · obtain ⟨hpending, haddr, hid, hexpected, hshape⟩ := correlate_accepted haccepted
      have hfields : (KrpcMessage.extractNodeId (.response t y r extra)).isSome = true ∧
          KrpcMessage.hasFields r pending.method = true := by
        rwa [KrpcMessage.responseHasShape, Bool.and_eq_true] at hshape
      exact ⟨hpending, haddr, hid, fieldId_eq hid, hexpected, hshape,
        responseFields_of_hasFields hfields.2⟩
    have hstep : c' = (c.wait w.elapsed).handleResponse w (.response t y r extra) source :=
      (step_packet hdata).trans (handlePacket_response hmessage)
    obtain ⟨rpcs, stats, honly⟩ := onlyCalls_of_not_accepted (c := c.wait w.elapsed) w hnever
    exact ⟨rpcs, stats, hstep.trans honly⟩
  · intro hquery hexpected
    have hretired : Retired message.transactionId (c.now + w.elapsed + c.config.rpcTimeout)
        c'.rpcs := retired_of_expected hdata hmessage hquery hexpected
    -- The call is retired for its timeout, so a replay finds nothing to answer.
    refine ⟨fun ws => untouched_replay hdata hmessage hquery ws (not_expects_of_retired hretired), ?_⟩
    intro turns hbefore ws
    have hlater := hretired.steps (stepped_run x c' turns).rpcs hbefore
    exact untouched_replay hdata hmessage hquery ws (not_expects_of_retired hlater)

end DhtCrawler

end Btfind
