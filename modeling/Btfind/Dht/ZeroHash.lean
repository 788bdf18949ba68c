import Btfind.Dht.Moves
import Btfind.Metadata.AbsentHash

/-!
# The all-zero hash

Two gates keep the hash of zeros out of the queue and off the discovery channel, but the
samples of a response are reported to the statistics without passing one of them, and the
statistics are stored.
-/

namespace Btfind

namespace DhtCrawler

/-- The hash of zeros is in no place from which it could be recorded. -/
structure Unrecorded (c : DhtCrawler) : Prop where
  queue : 0 ∉ c.discoveryQueue
  set : 0 ∉ c.discoverySet
  discoveries : ∀ sent ∈ c.discoveries, sent.1.infoHash ≠ 0
  stats : ∀ event ∈ c.stats, event.observes 0 = false

/-- The event brings a good response that samples the hash of zeros. -/
def ZeroSampled (x : Externals) (c : DhtCrawler) (turn : Turn) : Prop :=
  ∃ response, sampleAnswer x c turn.2 = some response ∧ 0 ∈ response.samples

variable {x : Externals} {turn : Turn} {samples : List InfoHash} {c c' : DhtCrawler}
  {w : Surroundings}

theorem Unrecorded.of_eq (h : Unrecorded c) (hqueue : c'.discoveryQueue = c.discoveryQueue)
    (hset : c'.discoverySet = c.discoverySet) (hdiscoveries : c'.discoveries = c.discoveries)
    (hstats : c'.stats = c.stats) : Unrecorded c' :=
  ⟨hqueue ▸ h.queue, hset ▸ h.set, hdiscoveries ▸ h.discoveries, hstats ▸ h.stats⟩

theorem Unrecorded.emitStat (h : Unrecorded c) {event : CrawlStatsEvent}
    (hevent : event.observes 0 = false) : Unrecorded (c.emitStat event) := by
  refine ⟨h.queue, h.set, h.discoveries, fun other hother => ?_⟩
  obtain rfl | hother := List.mem_cons.mp hother
  · exact hevent
  · exact h.stats other hother

theorem observes_of_isPlain {event : CrawlStatsEvent} (h : event.isPlain = true) (hash : InfoHash) :
    event.observes hash = false := by
  cases event <;> first | rfl | cases h

/-- The first gate. -/
theorem Unrecorded.queueHash (h : Unrecorded c) (hash : InfoHash) :
    Unrecorded (c.queueHash hash).2 := by
  rw [DhtCrawler.queueHash]
  split
  · exact h
  · next hzero =>
    split
    · exact h.of_eq rfl rfl rfl rfl
    · split
      · exact h.of_eq rfl rfl rfl rfl
      · refine ⟨?_, ?_, h.discoveries, h.stats⟩
        · rw [List.mem_append, List.mem_singleton, not_or]
          exact ⟨h.queue, fun heq => hzero heq.symm⟩
        · rw [Finset.mem_insert, not_or]
          exact ⟨fun heq => hzero heq.symm, h.set⟩

theorem Unrecorded.enqueueDiscovery (h : Unrecorded c) {discovery : HashDiscovery}
    (hdiscovery : discovery.infoHash ≠ 0) : Unrecorded (c.enqueueDiscovery w discovery) := by
  have hsent : ∀ accepted, Unrecorded
      { c with discoveries := (discovery, accepted) :: c.discoveries } := by
    refine fun accepted => ⟨h.queue, h.set, fun sent hsent => ?_, h.stats⟩
    obtain rfl | hsent := List.mem_cons.mp hsent
    · exact hdiscovery
    · exact h.discoveries sent hsent
  have hobserved := fun accepted => (hsent accepted).emitStat
    (show CrawlStatsEvent.observes 0 (.hashObserved discovery.infoHash discovery.source
      (!discovery.peers.isEmpty) accepted discovery.peers.length) = false from
        decide_eq_false hdiscovery)
  rw [DhtCrawler.enqueueDiscovery]
  split
  · exact hobserved _
  · exact (hobserved _).emitStat rfl

theorem Unrecorded.sendRpc (h : Unrecorded c) (request : RpcRequest) :
    Unrecorded (c.sendRpc w request) := by
  rw [DhtCrawler.sendRpc]
  split
  · next rpcs _ =>
    have hcalls : Unrecorded { c with rpcs := rpcs } := h.of_eq rfl rfl rfl rfl
    exact hcalls.emitStat rfl
  · exact h.of_eq rfl rfl rfl rfl
  · exact h.of_eq rfl rfl rfl rfl

theorem queueHash_zero (c : DhtCrawler) : c.queueHash 0 = (.invalid, c) := by
  rw [queueHash]
  exact if_pos rfl

/-- Every part of an event keeps the hash of zeros out, if it is not among the samples. -/
theorem Unrecorded.move (hsamples : 0 ∉ samples) (h : Unrecorded c)
    (hmove : Move x turn samples c c') : Unrecorded c' := by
  cases hmove with
  | quiet hquiet =>
    exact h.of_eq (hquiet.keeps discoveryQueue rfl) (hquiet.keeps discoverySet rfl)
      (hquiet.keeps DhtCrawler.discoveries rfl) (hquiet.keeps DhtCrawler.stats rfl)
  | stat hplain => exact h.emitStat (observes_of_isPlain hplain 0)
  | snapshot => exact h.emitStat rfl
  | sampled _ _ _ hmem =>
    refine h.emitStat (decide_eq_false fun hzero => hsamples ?_)
    exact hzero ▸ hmem
  | call => exact h.sendRpc _
  | reply => exact h.of_eq rfl rfl rfl rfl
  | queued hash => exact h.queueHash hash
  | popped =>
    rw [popHash]
    split
    · exact h.of_eq rfl rfl rfl rfl
    · next first rest hqueue =>
      refine ⟨fun hmem => h.queue ?_, fun hmem => h.set (Finset.mem_of_mem_erase hmem),
        h.discoveries, h.stats⟩
      rw [hqueue]
      exact List.mem_cons_of_mem first hmem
  | resumed hash =>
    rw [resumeHash]
    split
    · next haccepted =>
      refine (h.queueHash hash).enqueueDiscovery fun hzero => ?_
      rw [show hash = 0 from hzero, queueHash_zero] at haccepted
      cases haccepted
    · exact h.queueHash hash
  | published hash =>
    rw [publishDiscovery]
    split
    · exact h
    · next hzero =>
      have hcount : Unrecorded
          { c with infoHashesFound := min (c.infoHashesFound + 1) (2 ^ 64 - 1) } :=
        h.of_eq rfl rfl rfl rfl
      exact (hcount.queueHash hash).enqueueDiscovery hzero
  | cached hash =>
    rw [cachePeer]
    split <;> exact h.of_eq rfl rfl rfl rfl
  | expired => exact h.of_eq rfl rfl rfl rfl

theorem Unrecorded.step (hsampled : ¬ZeroSampled x c turn) (h : Unrecorded c) :
    Unrecorded (step x c turn) := by
  have hwait : Unrecorded (c.wait turn.1.elapsed) := h.of_eq rfl rfl rfl rfl
  refine (handled_handle x turn.1 turn.2 _).invariant ?_ ?_ ?_ hwait
  · intro c₁ c₂ hc₁ hmove
    refine hc₁.move ?_ hmove
    rw [sampleAnswer_wait]
    cases hresponse : sampleAnswer x c turn.2 with
    | none => exact List.not_mem_nil
    | some response => exact fun hmem => hsampled ⟨response, hresponse, hmem⟩
  · intro c₁ id eligibleAt hc₁
    exact hc₁.of_eq rfl rfl rfl rfl
  · intro c₁ request hc₁
    exact hc₁.sendRpc request

/-! ## Runs -/

/-- A sample of the hash of zeros is reported to the statistics. -/
theorem observed_of_zeroSampled (h : ZeroSampled x c turn) :
    ∃ event ∈ (DhtCrawler.step x c turn).stats, event.observes 0 = true := by
  obtain ⟨response, hresponse, hzero⟩ := h
  cases handled_handle x turn.1 turn.2 (c.wait turn.1.elapsed) with
  | answers _ hanswers =>
    rw [sampleAnswer_wait, hresponse] at hanswers
    obtain ⟨id, addr, round, hmem⟩ := hanswers.observed 0 hzero
    exact ⟨_, hmem, decide_eq_true (Eq.refl (0 : InfoHash))⟩
  | probes htick =>
    rw [htick] at hresponse
    cases hresponse

/-- No event of the run brings a good response that samples the hash of zeros. -/
def NeverSampled (x : Externals) (c : DhtCrawler) (turns : List Turn) : Prop :=
  ∀ before turn after, turns = before ++ turn :: after → ¬ZeroSampled x (run x c before) turn

theorem neverSampled_cons (turns : List Turn) : NeverSampled x c (turn :: turns) ↔
    ¬ZeroSampled x c turn ∧ NeverSampled x (DhtCrawler.step x c turn) turns := by
  constructor
  · intro h
    refine ⟨h [] turn turns rfl, fun before later after hturns => ?_⟩
    exact h (turn :: before) later after (by rw [hturns, List.cons_append])
  · rintro ⟨hfirst, hrest⟩ before later after hturns
    cases before with
    | nil =>
      obtain ⟨rfl, -⟩ := List.cons.inj hturns
      exact hfirst
    | cons first before =>
      obtain ⟨rfl, hafter⟩ := List.cons.inj hturns
      exact hrest before later after hafter

theorem unrecorded_run_iff (h : Unrecorded c) (turns : List Turn) :
    Unrecorded (run x c turns) ↔ NeverSampled x c turns := by
  induction turns generalizing c with
  | nil =>
    refine ⟨fun _ before turn after hturns => ?_, fun _ => h⟩
    exact absurd hturns (List.append_ne_nil_of_right_ne_nil before (List.cons_ne_nil turn after)).symm
  | cons turn turns ih =>
    rw [neverSampled_cons]
    by_cases hsampled : ZeroSampled x c turn
    · -- The observation stays in the statistics for the rest of the run.
      refine ⟨fun hrun => ?_, fun hnever => absurd hsampled hnever.1⟩
      obtain ⟨event, hevent, hobserves⟩ := observed_of_zeroSampled hsampled
      have hlater := (stats_run x (DhtCrawler.step x c turn) turns).subset hevent
      rw [hrun.stats event hlater] at hobserves
      cases hobserves
    · have hrest := ih (h.step hsampled)
      exact ⟨fun hrun => ⟨hsampled, hrest.mp hrun⟩, fun hnever => hrest.mpr hnever.2⟩

/-! ## The database -/

/-- What the event hands to the metadata worker or to the database comes from the crawler. -/
def Feeds (c : DhtCrawler) (_ : System) (e : SystemEvent) : Prop :=
  match e with
  | .discovered d _ => (d, true) ∈ c.discoveries
  | .batched _ events _ _ => events ⊆ c.stats
  | _ => True

/-- The hash of zeros is neither passed on nor stored. -/
structure NeverRecorded (c : DhtCrawler) : Prop where
  unrecorded : Unrecorded c
  rowless : ∀ env es y y', System.Starts y → Rowless 0 y.store.catalogue →
    Transition.Run (Transition.Guarded c.Feeds (System.Step env)) y es y' →
      y'.store.catalogue.torrents.lookup 0 = none

theorem Unrecorded.brings (h : Unrecorded c) {y : System} {e : SystemEvent}
    (hfeeds : c.Feeds y e) : e.brings 0 = false := by
  cases e with
  | discovered d receipt => exact decide_eq_false (h.discoveries (d, true) hfeeds)
  | batched turn events snapshot receipt =>
    have hevents : events ⊆ c.stats := hfeeds
    refine Bool.eq_false_iff.mpr fun hany => ?_
    obtain ⟨event, hevent, hobserves⟩ := List.any_eq_true.mp hany
    rw [h.stats event (hevents hevent)] at hobserves
    cases hobserves
  | _ => rfl

theorem Unrecorded.neverRecorded (h : Unrecorded c) : NeverRecorded c where
  unrecorded := h
  rowless := by
    intro env es y y' hstarts hrows hrun
    have habsent := System.Absent.starts hstarts hrows
    exact (System.absent_run (fun _ _ hfeeds => h.brings hfeeds) habsent hrun).rows.1

/-- The hash of zeros is never recorded exactly if no good response samples it. -/
theorem zero_never_recorded_iff (x : Externals) (ourId : NodeId) (tokenSecret : Bytes)
    (config : DhtConfig) (clock : Nat) (nextTx : BitVec 16) (turns : List Turn) :
    NeverRecorded (run x (.withConfig ourId tokenSecret config clock nextTx) turns) ↔
      NeverSampled x (.withConfig ourId tokenSecret config clock nextTx) turns := by
  have hstart : Unrecorded (.withConfig ourId tokenSecret config clock nextTx) := by
    refine ⟨List.not_mem_nil, Finset.notMem_empty 0, ?_, ?_⟩
    · rintro sent ⟨⟩
    · rintro event ⟨⟩
  have hrun := unrecorded_run_iff (x := x) hstart turns
  exact ⟨fun hnever => hrun.mp hnever.unrecorded, fun hnever => (hrun.mpr hnever).neverRecorded⟩

/-- A node that is sampled answers with the hash of zeros. -/
def zeroSample : List Turn :=
  let node : NodeContact := ⟨2, ⟨⟨8, 8, 8, 8⟩, 53⟩⟩
  let response := responseMessage node.id (transactionIdBytes 0)
    [("interval", .int 300), ("num", .int 1), ("samples", .bytes (idToBytes 0))]
  [(.quiet 0, .seedNodes [node]),
    (.quiet 0, .samplingTick (fun _ => 0) fun _ => 7),
    (.quiet 0, .packet (response.toBytes BencodeValue.encode) node.addr)]

/-- The statistics of the run create a torrent when they are stored. -/
theorem zero_sample_recorded :
    let config := { DhtConfig.default with samplingEnabled := true }
    let c := run ⟨BencodeValue.decode, fun b => b⟩ (.withConfig 1 [] config 0 0) zeroSample
    ¬NeverRecorded c ∧ c.stats.any (CrawlStatsEvent.observes 0) = true ∧
      ((recordRuntimeBatch 0 c.stats none .migrated).2.torrents.lookup 0).isSome = true := by
  intro config c
  have hany : c.stats.any (CrawlStatsEvent.observes 0) = true := by decide +kernel
  refine ⟨fun hnever => ?_, hany, by decide +kernel⟩
  obtain ⟨event, hevent, hobserves⟩ := List.any_eq_true.mp hany
  rw [hnever.unrecorded.stats event hevent] at hobserves
  cases hobserves

end DhtCrawler

end Btfind
