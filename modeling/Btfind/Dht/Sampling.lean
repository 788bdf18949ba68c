import Btfind.Dht.Moves
import Btfind.Dht.Transactions
import Btfind.Dht.TrustBoundary
import Btfind.Library.Transaction

/-!
# The pauses between samplings

A node is asked for samples only when its pause is over, and the pause is set again by every
request to it and by every good response from it. Nothing else touches a pause.
-/

namespace Btfind

open Quarantine

namespace DhtCrawler

variable {x : Externals} {turn : Turn} {samples : List InfoHash} {c c' c'' : DhtCrawler}
  {w : Surroundings} {n : NodeId}

/-- The number of requests for samples that were sent to a node. -/
def asked (n : NodeId) (c : DhtCrawler) : Nat :=
  c.sentCalls.countP fun rpc => rpc.method = .sampleInfohashes ∧ rpc.expectedNodeId = some n

/-- When the handling of an event begins. -/
def arrival (c : DhtCrawler) (turn : Turn) : Nat := c.now + turn.1.elapsed

/-- The event sends a request for samples to the node. -/
def Asks (x : Externals) (n : NodeId) (c : DhtCrawler) (turn : Turn) : Prop :=
  asked n c < asked n (step x c turn)

/-! ## One call -/

theorem sentCalls_sendRpc (w : Surroundings) (request : RpcRequest) (c : DhtCrawler) :
    (c.sendRpc w request).sentCalls = c.sentCalls ∨
      ∃ deadline, (c.sendRpc w request).sentCalls = ⟨request, deadline⟩ :: c.sentCalls := by
  have hcalled : Called c.config.maxPendingRpcs c.config.rpcTimeout request c.rpcs _ :=
    RpcState.sendRpc_called w.sends request c.rpcs
  rw [sentCalls, (sendRpc_rpcs w request c).1]
  cases hcalled with
  | unsent elapsed hpool =>
    left
    rw [hpool]
    rfl
  | sent elapsed tx _ _ hpool =>
    right
    rw [hpool]
    exact ⟨_, rfl⟩

theorem sampleEligibleAt_sendRpc (w : Surroundings) (request : RpcRequest) (c : DhtCrawler) :
    (c.sendRpc w request).sampleEligibleAt = c.sampleEligibleAt := by
  rw [sendRpc]
  split <;> rfl

theorem asked_sendRpc_le (w : Surroundings) (request : RpcRequest) (n : NodeId) (c : DhtCrawler) :
    asked n (c.sendRpc w request) ≤ asked n c + 1 := by
  obtain hsame | ⟨deadline, hsent⟩ := sentCalls_sendRpc w request c
  · rw [asked, hsame]
    exact Nat.le_succ _
  · rw [asked, hsent, List.countP_cons]
    refine Nat.add_le_add_left ?_ _
    split
    · exact Nat.le_refl 1
    · exact Nat.zero_le 1

theorem asked_sendRpc_other {request : RpcRequest}
    (h : ¬(request.method = .sampleInfohashes ∧ request.expectedNodeId = some n))
    (w : Surroundings) (c : DhtCrawler) : asked n (c.sendRpc w request) = asked n c := by
  obtain hsame | ⟨deadline, hsent⟩ := sentCalls_sendRpc w request c
  · rw [asked, hsame, asked]
  · rw [asked, hsent, List.countP_cons_of_neg (by simpa using h), asked]

/-! ## Events that ask nobody -/

/-- Neither a pause nor a request for samples. -/
structure Unsampled (c c' : DhtCrawler) : Prop where
  pauses : c'.sampleEligibleAt = c.sampleEligibleAt
  calls : ∃ calls, c'.sentCalls = calls ++ c.sentCalls ∧
    ∀ rpc ∈ calls, rpc.method ≠ .sampleInfohashes

theorem Unsampled.of_eq (hpauses : c'.sampleEligibleAt = c.sampleEligibleAt)
    (hcalls : c'.sentCalls = c.sentCalls) : Unsampled c c' :=
  ⟨hpauses, [], hcalls, nofun⟩

theorem Unsampled.trans (h : Unsampled c c') (h' : Unsampled c' c'') : Unsampled c c'' := by
  obtain ⟨calls, hcalls, hmethods⟩ := h.calls
  obtain ⟨calls', hcalls', hmethods'⟩ := h'.calls
  refine ⟨h'.pauses.trans h.pauses, calls' ++ calls, ?_, fun rpc hrpc => ?_⟩
  · rw [hcalls', hcalls, List.append_assoc]
  · exact (List.mem_append.mp hrpc).elim (hmethods' rpc) (hmethods rpc)

theorem Unsampled.asked (h : Unsampled c c') (n : NodeId) : asked n c' = asked n c := by
  obtain ⟨calls, hcalls, hmethods⟩ := h.calls
  rw [DhtCrawler.asked, hcalls, List.countP_append, DhtCrawler.asked, Nat.add_eq_right,
    List.countP_eq_zero]
  intro rpc hrpc hasks
  exact hmethods rpc hrpc (of_decide_eq_true hasks).1

theorem unsampled_queueHash (hash : InfoHash) (c : DhtCrawler) :
    Unsampled c (c.queueHash hash).2 := by
  rw [queueHash]
  split
  · exact .of_eq rfl rfl
  · split
    · exact .of_eq rfl rfl
    · split <;> exact .of_eq rfl rfl

theorem unsampled_enqueueDiscovery (w : Surroundings) (discovery : HashDiscovery)
    (c : DhtCrawler) : Unsampled c (c.enqueueDiscovery w discovery) := by
  rw [enqueueDiscovery]
  split <;> exact .of_eq rfl rfl

theorem Move.unsampled (h : Move x turn samples c c') : Unsampled c c' := by
  cases h with
  | quiet hquiet => exact .of_eq (hquiet.keeps sampleEligibleAt rfl) hquiet.sentCalls
  | stat | snapshot | sampled | reply | expired => exact .of_eq rfl rfl
  | @call request hmethod =>
    refine ⟨sampleEligibleAt_sendRpc _ _ c, ?_⟩
    obtain hsame | ⟨deadline, hsent⟩ := sentCalls_sendRpc turn.1 request c
    · exact ⟨[], hsame, nofun⟩
    · refine ⟨[⟨request, deadline⟩], hsent, fun rpc hrpc => ?_⟩
      rw [List.mem_singleton.mp hrpc]
      exact hmethod
  | queued hash => exact unsampled_queueHash hash c
  | popped =>
    rw [popHash]
    split <;> exact .of_eq rfl rfl
  | resumed hash =>
    rw [resumeHash]
    split
    · exact (unsampled_queueHash hash c).trans (unsampled_enqueueDiscovery _ _ _)
    · exact unsampled_queueHash hash c
  | published hash =>
    rw [publishDiscovery]
    split
    · exact .of_eq rfl rfl
    · have hcount : Unsampled c
          { c with infoHashesFound := min (c.infoHashesFound + 1) (2 ^ 64 - 1) } :=
        .of_eq rfl rfl
      exact (hcount.trans (unsampled_queueHash hash _)).trans (unsampled_enqueueDiscovery _ _ _)
  | cached hash =>
    rw [cachePeer]
    split <;> exact .of_eq rfl rfl

theorem Moves.unsampled (h : Moves x turn samples c c') : Unsampled c c' :=
  Moves.invariant (I := Unsampled c) h (fun _ _ hc hmove => hc.trans hmove.unsampled)
    (.of_eq rfl rfl)

/-! ## Sampling ticks -/

/-- The nodes that are asked in one tick are different. -/
theorem sampledNodes_nodup (order : NodeContact → Nat) (c : DhtCrawler) :
    ((c.sampledNodes order).map NodeContact.id).Nodup := by
  obtain ⟨depth, hsound⟩ := c.routing.sound
  have hlive : (c.routing.table.liveContacts.map NodeContact.id).Nodup := by
    refine contacts_nodup (fun x => (hsound.path.count_eq_one x).le) ?_ ?_
    · intro b hb contact hcontact
      obtain ⟨e, he, rfl⟩ := List.mem_map.mp hcontact
      have hlookup := AList.lookup_eq_some_iff.mpr he
      rw [(hsound.buckets b hb).named _ _ hlookup]
      exact (hsound.buckets b hb).placed _ _ hlookup
    · intro b hb
      have hkeys : (b.nodes.entries.map fun e => e.2.contact).map NodeContact.id =
          b.nodes.entries.map Sigma.fst := by
        rw [List.map_map]
        refine List.map_congr_left fun e he => ?_
        exact (hsound.buckets b hb).named _ _ (AList.lookup_eq_some_iff.mpr he)
      rw [hkeys]
      exact b.nodes.nodupKeys
  have hordered := ((perm_orderBy order c.routing.table.liveContacts).map NodeContact.id).nodup_iff.mpr
    hlive
  have hsub : (c.sampledNodes order).Sublist (orderBy order c.routing.table.liveContacts) :=
    ((List.take_sublist _ _).trans List.filter_sublist).trans (List.take_sublist _ _)
  exact hordered.sublist (hsub.map _)

theorem canSample_of_sampled {order : NodeContact → Nat} {node : NodeContact}
    (h : node ∈ c.sampledNodes order) : c.canSample node = true :=
  (List.mem_filter.mp (List.mem_of_mem_take h)).2

theorem probe_eligible (w : Surroundings) (now : Nat) (targets : NodeContact → NodeId)
    (c : DhtCrawler) (node : NodeContact) : (c.probe w now targets node).sampleEligibleAt =
      c.sampleEligibleAt.insert node.id (now + c.config.samplingMinRemoteInterval) := by
  rw [probe, sampleEligibleAt_sendRpc, allowSampling]

theorem probe_config (w : Surroundings) (now : Nat) (targets : NodeContact → NodeId)
    (c : DhtCrawler) (node : NodeContact) : (c.probe w now targets node).config = c.config :=
  (sendRpc_rpcs w _ (c.allowSampling node.id (now + c.config.samplingMinRemoteInterval))).2

/-- What a sampling tick does to the pause of a node and to the requests to it. -/
theorem probe_foldl (w : Surroundings) (now : Nat) (targets : NodeContact → NodeId) (n : NodeId)
    {nodes : List NodeContact} (hnodup : (nodes.map NodeContact.id).Nodup) (c : DhtCrawler) :
    let c' := nodes.foldl (probe w now targets) c
    (n ∈ nodes.map NodeContact.id →
        c'.sampleEligibleAt.lookup n = some (now + c.config.samplingMinRemoteInterval) ∧
          asked n c' ≤ asked n c + 1) ∧
      (n ∉ nodes.map NodeContact.id →
        c'.sampleEligibleAt.lookup n = c.sampleEligibleAt.lookup n ∧ asked n c' = asked n c) := by
  induction nodes generalizing c with
  | nil => exact ⟨nofun, fun _ => ⟨rfl, rfl⟩⟩
  | cons node nodes ih =>
    rw [List.map_cons, List.nodup_cons] at hnodup
    have hconfig := probe_config w now targets c node
    obtain ⟨hlater, hnever⟩ := ih hnodup.2 (c.probe w now targets node)
    rw [hconfig] at hlater
    rw [probe_eligible] at hnever
    by_cases hn : n = node.id
    · -- The node is asked now, and by no later call of the tick.
      subst hn
      obtain ⟨hlookup, hasked⟩ := hnever hnodup.1
      rw [AList.lookup_insert] at hlookup
      refine ⟨fun _ => ⟨hlookup, ?_⟩, fun hnot => absurd List.mem_cons_self hnot⟩
      have hone := asked_sendRpc_le w ⟨node.addr, some node.id, .sampleInfohashes, targets node,
        none, false, 0, none, none⟩ node.id
          (c.allowSampling node.id (now + c.config.samplingMinRemoteInterval))
      exact hasked.le.trans hone
    · have hother : asked n (c.probe w now targets node) = asked n c := by
        refine asked_sendRpc_other ?_ w _
        rintro ⟨-, hsame⟩
        exact hn (Option.some.inj hsame).symm
      rw [hother] at hlater hnever
      rw [AList.lookup_insert_ne hn] at hnever
      rw [List.map_cons, List.mem_cons]
      refine ⟨fun hmem => hlater (hmem.resolve_left hn), fun hnot => hnever ?_⟩
      exact fun hmem => hnot (Or.inr hmem)

/-! ## One event -/

/-- What an event does to the pause of a node and to the requests to it. -/
inductive Pauses (x : Externals) (n : NodeId) (c : DhtCrawler) (turn : Turn) (c' : DhtCrawler) :
    Prop
  | kept (unanswered : ∀ response, sampleAnswer x c turn.2 = some response → response.nodeId ≠ n)
      (pause : c'.sampleEligibleAt.lookup n = c.sampleEligibleAt.lookup n)
      (calls : asked n c' = asked n c)
  | answered {response : SampleInfohashesResponse}
      (answer : sampleAnswer x c turn.2 = some response) (own : response.nodeId = n)
      (pause : c'.sampleEligibleAt.lookup n =
        some (c.arrival turn + max response.interval c.config.samplingMinRemoteInterval))
      (calls : asked n c' = asked n c)
  | probed (tick : ∃ order targets, turn.2 = .samplingTick order targets)
      (due : ∀ eligibleAt, c.sampleEligibleAt.lookup n = some eligibleAt →
        eligibleAt ≤ c.arrival turn)
      (pause : c'.sampleEligibleAt.lookup n =
        some (c.arrival turn + c.config.samplingMinRemoteInterval))
      (calls : asked n c' ≤ asked n c + 1)

theorem Quiet.unsampled (h : Quiet c c') : Unsampled c c' :=
  .of_eq (h.keeps sampleEligibleAt rfl) h.sentCalls

theorem pauses_step (x : Externals) (n : NodeId) (c : DhtCrawler) (turn : Turn) :
    Pauses x n c turn (step x c turn) := by
  have hwait := (quiet_wait turn.1.elapsed c).unsampled
  -- An answer to a sampling sets a pause and a tick probes; nothing else touches either.
  cases handled_handle x turn.1 turn.2 (c.wait turn.1.elapsed) with
  | answers _ hanswers =>
    rw [sampleAnswer_wait] at hanswers
    cases hanswer : sampleAnswer x c turn.2 with
    | none =>
      rw [hanswer] at hanswers
      have hsame := hwait.trans (Moves.unsampled hanswers)
      refine .kept (fun response hresponse => ?_) (congrArg (AList.lookup n) hsame.pauses)
        (hsame.asked n)
      rw [hanswer] at hresponse
      cases hresponse
    | some response =>
      rw [hanswer] at hanswers
      obtain ⟨⟨c₁, hbefore, hafter⟩, -⟩ := hanswers
      have hfirst := hwait.trans (Moves.unsampled hbefore)
      have hrest := Moves.unsampled hafter
      have hcalls : asked n (step x c turn) = asked n c := (hrest.asked n).trans (hfirst.asked n)
      have hpauses : (step x c turn).sampleEligibleAt = c.sampleEligibleAt.insert response.nodeId
          (c.arrival turn + max response.interval c.config.samplingMinRemoteInterval) := by
        refine hrest.pauses.trans ?_
        rw [allowSampling, hfirst.pauses]
        rfl
      by_cases hn : response.nodeId = n
      · refine .answered hanswer hn ?_ hcalls
        rw [hpauses, hn, AList.lookup_insert]
      · refine .kept (fun other hother => ?_) ?_ hcalls
        · rw [hanswer] at hother
          cases hother
          exact hn
        · rw [hpauses, AList.lookup_insert_ne (Ne.symm hn)]
  | @probes order targets c₁ htick hquiet _ hprobes =>
    have hfirst := hwait.trans hquiet.unsampled
    have hconfig : c₁.config = c.config := hquiet.keeps DhtCrawler.config rfl
    have hnone : sampleAnswer x c turn.2 = none := by
      rw [htick]
      rfl
    obtain ⟨hasked, hother⟩ := probe_foldl turn.1 (c.wait turn.1.elapsed).now targets n
      (sampledNodes_nodup order (c.wait turn.1.elapsed)) c₁
    rw [← hprobes] at hasked hother
    rw [hconfig, hfirst.asked n] at hasked
    rw [hfirst.pauses, hfirst.asked n] at hother
    by_cases hn : n ∈ ((c.wait turn.1.elapsed).sampledNodes order).map NodeContact.id
    · obtain ⟨hpause, hcalls⟩ := hasked hn
      refine .probed ⟨order, targets, htick⟩ (fun eligibleAt hlookup => ?_) hpause hcalls
      obtain ⟨node, hnode, rfl⟩ := List.mem_map.mp hn
      have hcan := canSample_of_sampled hnode
      rw [canSample] at hcan
      have hwaiting : (c.wait turn.1.elapsed).sampleEligibleAt.lookup node.id = some eligibleAt :=
        hlookup
      rw [hwaiting] at hcan
      exact of_decide_eq_true hcan
    · obtain ⟨hpause, hcalls⟩ := hother hn
      refine .kept (fun response hresponse => ?_) hpause hcalls
      rw [hnone] at hresponse
      cases hresponse

theorem Asks.due (h : Asks x n c turn) {eligibleAt : Nat}
    (hpause : c.sampleEligibleAt.lookup n = some eligibleAt) : eligibleAt ≤ c.arrival turn := by
  have hmore : asked n c < asked n (step x c turn) := h
  cases pauses_step x n c turn with
  | kept _ _ hcalls | answered _ _ _ hcalls => omega
  | probed _ hdue => exact hdue eligibleAt hpause

theorem Asks.pause (h : Asks x n c turn) : (step x c turn).sampleEligibleAt.lookup n =
    some (c.arrival turn + c.config.samplingMinRemoteInterval) := by
  have hmore : asked n c < asked n (step x c turn) := h
  cases pauses_step x n c turn with
  | kept _ _ hcalls | answered _ _ _ hcalls => omega
  | probed _ _ hpause => exact hpause

theorem asked_step_le (x : Externals) (n : NodeId) (c : DhtCrawler) (turn : Turn) :
    asked n (step x c turn) ≤ asked n c + 1 := by
  cases pauses_step x n c turn with
  | kept _ _ hcalls | answered _ _ _ hcalls => omega
  | probed _ _ _ hcalls => exact hcalls

theorem arrival_le_now (x : Externals) (c : DhtCrawler) (turn : Turn) :
    c.arrival turn ≤ (step x c turn).now :=
  RpcSteps.clock_le (stepped_handle x turn.1 turn.2 (c.wait turn.1.elapsed)).rpcs

theorem now_le_run (x : Externals) (c : DhtCrawler) (turns : List Turn) :
    c.now ≤ (run x c turns).now :=
  RpcSteps.clock_le (stepped_run x c turns).rpcs

/-! ## Runs -/

/-- The node is not asked before a time. -/
def Waits (n : NodeId) (time : Nat) (c : DhtCrawler) : Prop :=
  ∃ eligibleAt, c.sampleEligibleAt.lookup n = some eligibleAt ∧ time ≤ eligibleAt

theorem Waits.step {time : Nat} (h : Waits n time c)
    (hanswer : ∀ response, sampleAnswer x c turn.2 = some response → response.nodeId = n →
      time ≤ c.arrival turn + max response.interval c.config.samplingMinRemoteInterval) :
    Waits n time (step x c turn) := by
  obtain ⟨eligibleAt, hpause, htime⟩ := h
  cases pauses_step x n c turn with
  | kept _ hsame => exact ⟨eligibleAt, hsame.trans hpause, htime⟩
  | answered hresponse hown hnew => exact ⟨_, hnew, hanswer _ hresponse hown⟩
  | probed _ hdue hnew =>
    -- The old pause was over, and the new one begins now.
    have hover := hdue eligibleAt hpause
    exact ⟨_, hnew, by omega⟩

/-- A pause outlasts a run if no response in it ends the pause. -/
theorem Waits.run {time : Nat} (h : Waits n time c) (turns : List Turn)
    (hanswers : ∀ before turn after, turns = before ++ turn :: after → ∀ response,
      sampleAnswer x (run x c before) turn.2 = some response → response.nodeId = n →
        time ≤ (run x c before).arrival turn +
          max response.interval c.config.samplingMinRemoteInterval) :
    Waits n time (run x c turns) := by
  induction turns generalizing c with
  | nil => exact h
  | cons turn turns ih =>
    have hfirst : Waits n time (DhtCrawler.step x c turn) := h.step (hanswers [] turn turns rfl)
    refine ih hfirst fun before later after hturns => ?_
    rw [(stepped_step x c turn).config]
    exact hanswers (turn :: before) later after (by rw [hturns, List.cons_append])

theorem Waits.due {time : Nat} (h : Waits n time c) (hasks : Asks x n c turn) :
    time ≤ c.arrival turn := by
  obtain ⟨eligibleAt, hpause, htime⟩ := h
  exact htime.trans (hasks.due hpause)

theorem run_append_cons (x : Externals) (c : DhtCrawler) (before : List Turn) (turn : Turn)
    (after : List Turn) :
    run x c (before ++ turn :: after) = run x (step x (run x c before) turn) after := by
  rw [run, List.foldl_append, List.foldl_cons]
  rfl

/-! ## Whose answer it is -/

/-- Requests for samples say which node they are for. -/
def Named (c : DhtCrawler) : Prop :=
  ∀ rpc ∈ c.sentCalls, rpc.method = .sampleInfohashes → rpc.expectedNodeId.isSome = true

theorem Unsampled.named (h : Unsampled c c') (hc : Named c) : Named c' := by
  obtain ⟨calls, hcalls, hmethods⟩ := h.calls
  intro rpc hrpc hmethod
  rw [hcalls] at hrpc
  obtain hnew | hold := List.mem_append.mp hrpc
  · exact absurd hmethod (hmethods rpc hnew)
  · exact hc rpc hold hmethod

theorem Named.probe (h : Named c) (w : Surroundings) (now : Nat) (targets : NodeContact → NodeId)
    (node : NodeContact) : Named (c.probe w now targets node) := by
  rw [DhtCrawler.probe]
  intro rpc hrpc hmethod
  obtain hsame | ⟨deadline, hsent⟩ := sentCalls_sendRpc w ⟨node.addr, some node.id,
    .sampleInfohashes, targets node, none, false, 0, none, none⟩
      (c.allowSampling node.id (now + c.config.samplingMinRemoteInterval))
  · rw [hsame] at hrpc
    exact h rpc hrpc hmethod
  · rw [hsent] at hrpc
    obtain rfl | hold := List.mem_cons.mp hrpc
    · rfl
    · exact h rpc hold hmethod

theorem Named.step (h : Named c) (turn : Turn) : Named (step x c turn) := by
  have hwait := (quiet_wait turn.1.elapsed c).unsampled.named h
  cases handled_handle x turn.1 turn.2 (c.wait turn.1.elapsed) with
  | answers _ hanswers =>
    cases hanswer : sampleAnswer x (c.wait turn.1.elapsed) turn.2 with
    | none =>
      rw [hanswer] at hanswers
      exact (Moves.unsampled hanswers).named hwait
    | some response =>
      rw [hanswer] at hanswers
      obtain ⟨⟨c₁, hbefore, hafter⟩, -⟩ := hanswers
      have hfirst : Named c₁ := (Moves.unsampled hbefore).named hwait
      exact (Moves.unsampled hafter).named hfirst
  | @probes order targets c₁ _ hquiet _ hprobes =>
    have hall : Named ((sampledNodes order (c.wait turn.1.elapsed)).foldl
        (DhtCrawler.probe turn.1 (c.wait turn.1.elapsed).now targets) c₁) := by
      refine List.foldlRecOn _ _ (hquiet.unsampled.named hwait) ?_
      exact fun c₂ hc₂ node _ => hc₂.probe turn.1 _ targets node
    rw [DhtCrawler.step, hprobes]
    exact hall

theorem Named.run (h : Named c) (turns : List Turn) : Named (run x c turns) := by
  induction turns generalizing c with
  | nil => exact h
  | cons turn turns ih => exact ih (h.step turn)

theorem parse_nodeId {message : KrpcMessage} {limit : Nat} {response : SampleInfohashesResponse}
    (h : parseSampleInfohashesResponse message limit = .ok response) :
    message.extractNodeId = some response.nodeId := by
  cases message with
  | response t y r extra =>
    obtain ⟨nodeId, hid, hrest⟩ := Transaction.ok_of_bind h
    have hnode : response.nodeId = nodeId := by
      simp only [bind, Except.bind] at hrest
      split at hrest
      · split at hrest
        · split at hrest
          · split at hrest
            · split at hrest
              · split at hrest
                · cases hrest
                · cases hrest
                  rfl
              · cases hrest
            · cases hrest
          · cases hrest
        · cases hrest
      · cases hrest
    rw [hnode]
    cases hextract : (KrpcMessage.response t y r extra).extractNodeId with
    | none =>
      rw [hextract] at hid
      cases hid
    | some id =>
      rw [hextract] at hid
      cases hid
      rfl
  | query | error => cases h

/-- A good response answers a request to the node whose id it carries. -/
theorem sampleAnswer_own {event : Event} {response : SampleInfohashesResponse}
    {maxPending rpcTimeout : Nat} (hc : Named c) (hpool : PoolOk maxPending rpcTimeout c.rpcs)
    (h : sampleAnswer x c event = some response) :
    ∃ data source message pending, event = .packet data source ∧
      KrpcMessage.fromBytes x.decode (data.take maxPacketSize) = .ok message ∧
      c.rpcs.pool.pending.lookup message.transactionId = some pending ∧
      pending.method = .sampleInfohashes ∧ pending.expectedAddr = source ∧
      pending.expectedNodeId = some response.nodeId ∧
      parseSampleInfohashesResponse message c.config.maxSamplesPerResponse = .ok response := by
  cases event with
  | packet data source =>
    rw [sampleAnswer] at h
    split at h
    · cases h
    · split at h
      · cases h
      · next message hmessage =>
        rw [sampleOf] at h
        split at h
        · next pending id haccepted =>
          obtain ⟨hpending, haddr, hid, hexpected, -⟩ := correlate_accepted haccepted
          split at h
          · next hmethod =>
            cases hparse : parseSampleInfohashesResponse message c.config.maxSamplesPerResponse with
            | error =>
              rw [hparse] at h
              cases h
            | ok parsed =>
              rw [hparse] at h
              cases h
              refine ⟨data, source, message, pending, rfl, hmessage, hpending, hmethod, haddr, ?_,
                hparse⟩
              obtain ⟨time, hlatest⟩ := hpool.sound.latest_of_pending hpending
              have hissued := List.mem_of_find?_eq_some hlatest
              have hsent : pending ∈ c.sentCalls := List.mem_filterMap.mpr ⟨_, hissued, rfl⟩
              obtain ⟨expected, hsome⟩ := Option.isSome_iff_exists.mp (hc pending hsent hmethod)
              rw [hsome, hexpected expected hsome, ← parse_nodeId hparse, hid]
          · cases h
        · cases h
  | _ => cases h

/-- In every run a node is asked for samples once in an event, not before the configured
pause since the last request to it is over, and not before the pause that its last good
response announced is over. Such a response answers a request to that node, and no other
datagram changes its pause. -/
theorem sampling_polite (x : Externals) (ourId : NodeId) (tokenSecret : Bytes)
    (config : DhtConfig) (clock : Nat) (nextTx : BitVec 16) (n : NodeId) :
    let after := run x (.withConfig ourId tokenSecret config clock nextTx)
    (∀ turns turn, asked n (after (turns ++ [turn])) ≤ asked n (after turns) + 1) ∧
      (∀ before turn₁ between turn₂, Asks x n (after before) turn₁ →
        Asks x n (after (before ++ turn₁ :: between)) turn₂ →
          (after before).arrival turn₁ + config.samplingMinRemoteInterval ≤
            (after (before ++ turn₁ :: between)).arrival turn₂) ∧
      (∀ before turn₁ between turn₂ response,
        sampleAnswer x (after before) turn₁.2 = some response → response.nodeId = n →
        (∀ early turn late later, between = early ++ turn :: late →
          sampleAnswer x (after (before ++ turn₁ :: early)) turn.2 = some later →
            later.nodeId ≠ n) →
        Asks x n (after (before ++ turn₁ :: between)) turn₂ →
          (after before).arrival turn₁ + max response.interval config.samplingMinRemoteInterval ≤
            (after (before ++ turn₁ :: between)).arrival turn₂) ∧
      (∀ turns event response, sampleAnswer x (after turns) event = some response →
        ∃ data source message pending, event = .packet data source ∧
          KrpcMessage.fromBytes x.decode (data.take maxPacketSize) = .ok message ∧
          (after turns).rpcs.pool.pending.lookup message.transactionId = some pending ∧
          pending.method = .sampleInfohashes ∧ pending.expectedAddr = source ∧
          pending.expectedNodeId = some response.nodeId ∧
          parseSampleInfohashesResponse message config.maxSamplesPerResponse = .ok response) ∧
      ∀ turns w data source,
        (∀ response, sampleAnswer x (after turns) (.packet data source) = some response →
          response.nodeId ≠ n) →
        (after (turns ++ [(w, .packet data source)])).sampleEligibleAt.lookup n =
          (after turns).sampleEligibleAt.lookup n := by
  intro after
  have hconfig : ∀ turns, (after turns).config = config := fun turns =>
    (stepped_run x (.withConfig ourId tokenSecret config clock nextTx) turns).config
  have hsplit : ∀ before turn between, after (before ++ turn :: between) =
      run x (step x (after before) turn) between := run_append_cons x _
  refine ⟨fun turns turn => ?_, ?_, ?_, ?_, ?_⟩
  · rw [hsplit]
    exact asked_step_le x n (after turns) turn
  · intro before turn₁ between turn₂ hfirst hsecond
    rw [hsplit] at hsecond ⊢
    have hstart : Waits n ((after before).arrival turn₁ + config.samplingMinRemoteInterval)
        (step x (after before) turn₁) := by
      refine ⟨_, hfirst.pause, ?_⟩
      rw [hconfig]
    refine (hstart.run between fun early turn late _ response _ _ => ?_).due hsecond
    -- A later response begins the pause anew, and the clock does not go back.
    have hbegun := arrival_le_now x (after before) turn₁
    have hlater := now_le_run x (step x (after before) turn₁) early
    have harrives : (run x (step x (after before) turn₁) early).now ≤
        (run x (step x (after before) turn₁) early).arrival turn := Nat.le_add_right _ _
    rw [(stepped_step x (after before) turn₁).config, hconfig]
    exact Nat.add_le_add (hbegun.trans (hlater.trans harrives)) (le_max_right _ _)
  · intro before turn₁ between turn₂ response hresponse hown hlast hasks
    rw [hsplit] at hasks ⊢
    have hstart : Waits n ((after before).arrival turn₁ +
        max response.interval config.samplingMinRemoteInterval) (step x (after before) turn₁) := by
      cases pauses_step x n (after before) turn₁ with
      | kept hnever => exact absurd hown (hnever response hresponse)
      | answered hanswer _ hpause =>
        rw [hresponse] at hanswer
        cases hanswer
        refine ⟨_, hpause, ?_⟩
        rw [hconfig]
      | probed htick =>
        obtain ⟨order, targets, htick⟩ := htick
        rw [htick] at hresponse
        cases hresponse
    refine (hstart.run between fun early turn late hbetween later hlater howner => ?_).due hasks
    rw [← hsplit] at hlater
    exact absurd howner (hlast early turn late later hbetween hlater)
  · intro turns event response hresponse
    have hnamed : Named (after turns) := by
      have hnew : Named (.withConfig ourId tokenSecret config clock nextTx) := by
        rintro rpc ⟨⟩
      exact hnew.run turns
    have howned := sampleAnswer_own hnamed
      (poolOk_run x ourId tokenSecret config clock nextTx turns) hresponse
    rwa [hconfig] at howned
  · intro turns w data source hothers
    rw [hsplit]
    cases pauses_step x n (after turns) (w, .packet data source) with
    | kept _ hpause => exact hpause
    | answered hanswer hown => exact absurd hown (hothers _ hanswer)
    | probed htick =>
      obtain ⟨order, targets, htick⟩ := htick
      cases htick

def sampledNode : NodeContact := ⟨2, ⟨⟨8, 8, 8, 8⟩, 53⟩⟩

/-- A sampling tick after some seconds. -/
def samplingTurn (seconds : Nat) : Turn :=
  (.quiet (fromSecs seconds), .samplingTick (fun _ => 0) fun _ => 7)

/-- The node answers, and asks for a pause of ten minutes. -/
def sampleTurn : Turn :=
  (.quiet 0, .packet ((responseMessage sampledNode.id (transactionIdBytes 0)
    [("interval", .int 600), ("num", .int 1), ("samples", .bytes (idToBytes 5))]).toBytes
      BencodeValue.encode) sampledNode.addr)

theorem sampling_polite_twice :
    let x : Externals := ⟨BencodeValue.decode, fun b => b⟩
    let after := run x (.withConfig 1 [] { DhtConfig.default with samplingEnabled := true } 0 0)
    let turns := [(.quiet 0, .seedNodes [sampledNode])] ++ samplingTurn 0 :: [sampleTurn]
    asked 2 (after (turns ++ [samplingTurn 599])) = 1 ∧
      asked 2 (after (turns ++ [samplingTurn 600])) = 2 ∧
      fromSecs 300 ≤ (after turns).arrival (samplingTurn 600) := by
  intro x after turns
  refine ⟨by decide +kernel, by decide +kernel, ?_⟩
  refine Nat.le_trans (Nat.le_add_left _ _) ((sampling_polite x 1 [] { DhtConfig.default with
    samplingEnabled := true } 0 0 2).2.1 [(.quiet 0, .seedNodes [sampledNode])] (samplingTurn 0)
      [sampleTurn] (samplingTurn 600) ?_ ?_)
  · exact of_decide_eq_true (p := asked 2 _ < asked 2 _) (by decide +kernel)
  · exact of_decide_eq_true (p := asked 2 _ < asked 2 _) (by decide +kernel)

end DhtCrawler

end Btfind
