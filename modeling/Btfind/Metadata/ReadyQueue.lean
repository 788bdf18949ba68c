import Btfind.Metadata.PendingPeers
import Btfind.Metadata.WorkerDeath

/-!
# The ready queue

What a discovery does to the queue of ready hashes: new peers of a hash without a worker put it
at the head, and any other discovery leaves the queue and its set as they are.
-/

namespace Btfind.Scheduler

variable {ω : Type}

/-- The pending peers of a hash; `none` when it is not tracked. -/
def pending (s : Scheduler ω) (h : InfoHash) : Option (List PeerContact) :=
  (s.jobs.lookup h).map HashJob.peers

def isRunning (s : Scheduler ω) (h : InfoHash) : Prop :=
  ∃ job, s.jobs.lookup h = some job ∧ job.running = true

/-- A peer of the hash is pending that was not. -/
def GainsPeer (s s' : Scheduler ω) (h : InfoHash) : Prop :=
  ∃ p, (∃ peers, s'.pending h = some peers ∧ p ∈ peers) ∧
    ∀ peers, s.pending h = some peers → p ∉ peers

/-- What the ready queue needs of the scheduler. -/
structure QueueOk (s : Scheduler ω) : Prop where
  readySet_eq : s.readySet = s.ready.toFinset
  ready_idle : ∀ h ∈ s.ready, ∃ job, s.jobs.lookup h = some job ∧ job.running = false
  idle_ready : ∀ h job, s.jobs.lookup h = some job → job.running = false → h ∈ s.ready

/-- The hash is at the head of the queue, the other hashes follow in their order. -/
structure Promoted (s s' : Scheduler ω) (h : InfoHash) : Prop where
  ready : s'.ready = h :: s.ready.filter fun queued => queued ≠ h
  readySet : s'.readySet = insert h s.readySet
  others : ∀ k, k ≠ h → s'.jobs.lookup k = s.jobs.lookup k

/-- The queue is as it was, and so is every job's list of peers, except that admitted peers stand
in front of those of a running job. -/
structure Unmoved (s s' : Scheduler ω) (h : InfoHash) (admitted : HashJob → List PeerContact) :
    Prop where
  ready : s'.ready = s.ready
  readySet : s'.readySet = s.readySet
  pending : ∀ k, (k = h → ¬ s.isRunning h) → s'.pending k = s.pending k
  merged : ∀ job, s.jobs.lookup h = some job → job.running = true →
    s'.pending h = some (admitted job ++ job.peers)

theorem QueueOk.mem_readySet {s : Scheduler ω} (hq : QueueOk s) {h : InfoHash} :
    h ∈ s.readySet ↔ h ∈ s.ready := by
  rw [hq.readySet_eq, List.mem_toFinset]

theorem reachable_queueOk {limits : SchedulerLimits} {s : Scheduler RoundArgs}
    (hs : Transition.Reachable (fun s => s = empty) (MortalStep limits) s) : QueueOk s := by
  obtain ⟨dead, hd⟩ := reachable_haunted hs
  refine ⟨hd.readySet_eq, fun h hr => ?_, fun h job hj hidle => hd.ready_of_idle hj hidle⟩
  obtain ⟨job, hj, hidle, -⟩ := hd.ready_idle h hr
  exact ⟨job, hj, hidle⟩

/-! ## Tracked hashes -/

section Tracked

variable (limits : SchedulerLimits) {s : Scheduler ω} {h : InfoHash} {job : HashJob}
  (peers : List PeerContact)

/-- The job of a tracked hash with the discovered peers merged in. -/
def mergedJob (job : HashJob) : HashJob :=
  ({ job with attemptCount := max job.attemptCount 0 }.mergePeers peers limits.maxPeersPerHash).1

theorem mergedJob_peers : (mergedJob limits peers job).peers =
    job.admissible peers limits.maxPeersPerHash ++ job.peers :=
  (HashJob.mergePeers_admissible { job with attemptCount := max job.attemptCount 0 } peers
    limits.maxPeersPerHash).1

/-- An idle tracked job is in the queue already, so that an admission leaves the queue alone. -/
theorem QueueOk.admit_tracked (hq : QueueOk s) (hj : s.jobs.lookup h = some job) :
    s.admitJobPeers limits h peers 0 =
      ({ s with jobs := s.jobs.insert h (mergedJob limits peers job) },
        if 0 < (job.admissible peers limits.maxPeersPerHash).length then .accepted
        else .unchanged) := by
  have hcount := (HashJob.mergePeers_admissible { job with attemptCount := max job.attemptCount 0 }
    peers limits.maxPeersPerHash).2
  let merged : Scheduler ω := { s with jobs := s.jobs.insert h (mergedJob limits peers job) }
  have hqueue : job.running = false → merged.enqueue h = merged := by
    intro hidle
    have hmem : h ∈ s.readySet := hq.mem_readySet.mpr (hq.idle_ready h job hj hidle)
    exact if_pos hmem
  unfold admitJobPeers
  simp only [hj, hcount]
  refine Prod.ext ?_ rfl
  split
  · next hc => exact hqueue hc.2
  · rfl

theorem QueueOk.discovery_tracked (hq : QueueOk s) (hj : s.jobs.lookup h = some job) :
    s.admitDiscovery limits h peers =
      { s with
        jobs := s.jobs.insert h (mergedJob limits peers job)
        ready := if job.admissible peers limits.maxPeersPerHash ≠ [] ∧ job.running = false then
          h :: s.ready.filter fun queued => queued ≠ h else s.ready } := by
  have hflag : h ∈ s.readySet ↔ job.running = false := by
    rw [hq.mem_readySet]
    refine ⟨fun hr => ?_, hq.idle_ready h job hj⟩
    obtain ⟨found, hf, hidle⟩ := hq.ready_idle h hr
    rw [hj] at hf
    cases hf
    exact hidle
  unfold admitDiscovery
  rw [hq.admit_tracked limits peers hj]
  unfold prioritizeReadyJob
  simp only [hflag, ← List.length_pos_iff]
  by_cases hadded : 0 < (job.admissible peers limits.maxPeersPerHash).length
  · simp only [hadded, if_true, true_and]
    split <;> rfl
  · simp [hadded]

/-- The merge of a tracked job adds a peer if some address is admissible. -/
theorem gainsPeer_tracked {s' : Scheduler ω} (hj : s.jobs.lookup h = some job)
    (hjobs : s'.jobs = s.jobs.insert h (mergedJob limits peers job)) :
    GainsPeer s s' h ↔ job.admissible peers limits.maxPeersPerHash ≠ [] := by
  have hold : s.pending h = some job.peers := by
    rw [pending, hj, Option.map_some]
  have hnew : s'.pending h =
      some (job.admissible peers limits.maxPeersPerHash ++ job.peers) := by
    rw [pending, hjobs, AList.lookup_insert, Option.map_some, mergedJob_peers]
  constructor
  · rintro ⟨p, ⟨now, hnow, hp⟩, hfresh⟩ hnone
    rw [hnew, hnone, List.nil_append] at hnow
    cases hnow
    exact hfresh _ hold hp
  · intro hadded
    obtain ⟨p, hp⟩ := List.exists_mem_of_ne_nil _ hadded
    refine ⟨p, ⟨_, hnew, List.mem_append_left _ hp⟩, fun old ho => ?_⟩
    rw [hold] at ho
    cases ho
    exact job.not_pending_of_admissible peers _ hp

end Tracked

theorem isRunning_iff {s : Scheduler ω} {h : InfoHash} {job : HashJob}
    (hj : s.jobs.lookup h = some job) : s.isRunning h ↔ job.running = true := by
  refine ⟨?_, fun hrun => ⟨job, hj, hrun⟩⟩
  rintro ⟨found, hf, hrun⟩
  rw [hj] at hf
  cases hf
  exact hrun

theorem not_isRunning_of_none {s : Scheduler ω} {h : InfoHash} (hj : s.jobs.lookup h = none) :
    ¬ s.isRunning h := by
  rintro ⟨job, hjob, -⟩
  rw [hj] at hjob
  cases hjob

/-! ## New hashes -/

/-- A new hash is refused, or tracked with a pending peer and put at the head. -/
theorem discovery_untracked (limits : SchedulerLimits) {s : Scheduler ω} {h : InfoHash}
    (peers : List PeerContact) (hnone : s.jobs.lookup h = none) :
    s.admitDiscovery limits h peers = s ∨
      ∃ job : HashJob, job.running = false ∧ job.peers ≠ [] ∧
        (s.admitJobPeers limits h peers 0).2 = .accepted ∧
        s.admitDiscovery limits h peers = { s with
          jobs := s.jobs.insert h job
          readySet := insert h s.readySet
          ready := h :: s.ready.filter fun queued => queued ≠ h } := by
  unfold admitDiscovery admitJobPeers
  simp only [hnone]
  by_cases hpeers : peers.isEmpty = true
  · rw [if_pos hpeers]
    exact Or.inl rfl
  · rw [if_neg hpeers]
    by_cases hfull : limits.maxActiveHashJobs ≤ s.jobs.count
    · rw [if_pos hfull]
      exact Or.inl rfl
    · rw [if_neg hfull]
      obtain ⟨hmerged, hcount⟩ :=
        (HashJob.new 0).mergePeers_admissible peers limits.maxPeersPerHash
      by_cases hadded : ((HashJob.new 0).mergePeers peers limits.maxPeersPerHash).2 = 0
      · rw [if_pos hadded]
        exact Or.inl rfl
      · rw [if_neg hadded]
        refine Or.inr ⟨((HashJob.new 0).mergePeers peers limits.maxPeersPerHash).1, rfl, ?_, rfl, ?_⟩
        · intro hnil
          rw [hmerged, List.append_eq_nil_iff] at hnil
          rw [hcount, hnil.1] at hadded
          exact hadded rfl
        · have hmem : h ∈ insert h s.readySet := Finset.mem_insert_self h s.readySet
          unfold prioritizeReadyJob
          rw [if_pos ⟨rfl, hmem⟩]
          simp

theorem not_gainsPeer_self (s : Scheduler ω) (h : InfoHash) : ¬ GainsPeer s s h := by
  rintro ⟨p, ⟨peers, hnow, hp⟩, hfresh⟩
  exact hfresh peers hnow hp

theorem Unmoved.refl {s : Scheduler ω} {h : InfoHash} {admitted : HashJob → List PeerContact}
    (hidle : ¬ s.isRunning h) : Unmoved s s h admitted :=
  ⟨rfl, rfl, fun _ _ => rfl, fun job hj hrun => absurd ⟨job, hj, hrun⟩ hidle⟩

variable {limits : SchedulerLimits} {s : Scheduler RoundArgs}

/-- A discovery that brings a hash without a worker a new peer puts it at the head of the queue.
Any other discovery leaves the queue alone, and the pending peers but for those that it adds to a
running job. -/
theorem discovery_promotes
    (hs : Transition.Reachable (fun s => s = empty) (MortalStep limits) s) (h : InfoHash)
    (peers : List PeerContact) :
    let t := s.admitDiscovery limits h peers
    (t.isRunning h ↔ s.isRunning h) ∧
    (GainsPeer s t h ∧ ¬ s.isRunning h → Promoted s t h) ∧
    (¬ (GainsPeer s t h ∧ ¬ s.isRunning h) →
      Unmoved s t h (HashJob.admissible peers limits.maxPeersPerHash)) ∧
    ((s.admitJobPeers limits h peers 0).2 = .atCapacity → t.jobs = s.jobs) := by
  intro t
  have hq := reachable_queueOk hs
  cases hj : s.jobs.lookup h with
  | none =>
    have hidle : ¬ s.isRunning h := not_isRunning_of_none hj
    obtain hsame | ⟨job, hnew, hne, haccepted, ht⟩ := discovery_untracked limits peers hj
    · have ht : t = s := hsame
      rw [ht]
      exact ⟨Iff.rfl, fun hg => absurd hg.1 (not_gainsPeer_self s h), fun _ => .refl hidle,
        fun _ => rfl⟩
    · have hjobs : t.jobs = s.jobs.insert h job := by
        show (s.admitDiscovery limits h peers).jobs = _
        rw [ht]
      have hgain : GainsPeer s t h := by
        obtain ⟨p, hp⟩ := List.exists_mem_of_ne_nil _ hne
        refine ⟨p, ⟨job.peers, ?_, hp⟩, fun old ho => ?_⟩
        · rw [pending, hjobs, AList.lookup_insert, Option.map_some]
        · rw [pending, hj] at ho
          cases ho
      have hlookup : t.jobs.lookup h = some job := by
        rw [hjobs, AList.lookup_insert]
      refine ⟨iff_of_false ?_ hidle, fun _ => ⟨?_, ?_, ?_⟩,
        fun hn => absurd ⟨hgain, hidle⟩ hn, fun hcap => ?_⟩
      · rw [isRunning_iff hlookup, hnew]
        exact Bool.false_ne_true
      · exact congrArg Scheduler.ready ht
      · exact congrArg Scheduler.readySet ht
      · intro k hk
        rw [hjobs, AList.lookup_insert_ne hk]
      · rw [haccepted] at hcap
        cases hcap
  | some job =>
    have ht : t = _ := hq.discovery_tracked limits peers hj
    have hjobs : t.jobs = s.jobs.insert h (mergedJob limits peers job) := by
      rw [ht]
    have hrunning : s.isRunning h ↔ job.running = true := isRunning_iff hj
    have hlookup : t.jobs.lookup h = some (mergedJob limits peers job) := by
      rw [hjobs, AList.lookup_insert]
    have hgain := gainsPeer_tracked limits peers hj hjobs
    have hready : t.ready = if job.admissible peers limits.maxPeersPerHash ≠ [] ∧
        job.running = false then h :: s.ready.filter (fun queued => queued ≠ h) else s.ready :=
      congrArg Scheduler.ready ht
    have hset : t.readySet = s.readySet := by
      rw [ht]
    have hcond : GainsPeer s t h ∧ ¬ s.isRunning h ↔
        job.admissible peers limits.maxPeersPerHash ≠ [] ∧ job.running = false := by
      rw [hgain, hrunning, Bool.not_eq_true]
    refine ⟨?_, fun hg => ⟨?_, ?_, ?_⟩, fun hn => ⟨?_, hset, ?_, ?_⟩, fun hcap => ?_⟩
    · exact (isRunning_iff hlookup).trans hrunning.symm
    · rw [hready, if_pos (hcond.mp hg)]
    · rw [hset]
      exact (Finset.insert_eq_of_mem
        (hq.mem_readySet.mpr (hq.idle_ready h job hj (hcond.mp hg).2))).symm
    · intro k hk
      rw [hjobs, AList.lookup_insert_ne hk]
    · rw [hready, if_neg (fun hc => hn (hcond.mpr hc))]
    · intro k hidle
      unfold pending
      rw [hjobs, AList.lookup_insert_eq]
      by_cases hk : k = h
      · -- An idle job without new peers.
        have hnone : job.admissible peers limits.maxPeersPerHash = [] := by
          by_contra hne
          exact hn ⟨hgain.mpr hne, hidle hk⟩
        rw [if_pos hk, hk, hj, Option.map_some, Option.map_some, mergedJob_peers, hnone,
          List.nil_append]
      · rw [if_neg hk]
    · intro found hf hrun
      rw [hj] at hf
      cases hf
      rw [pending, hjobs, AList.lookup_insert, Option.map_some, mergedJob_peers]
    · rw [hq.admit_tracked limits peers hj] at hcap
      split at hcap
      · cases hcap
      · cases hcap

/-- The queue of two hashes, of which the second gets a new peer. -/
theorem discovery_promotes_second :
    let limits : SchedulerLimits := ⟨1, 2, 2, 1, by decide, by decide, by decide, by decide⟩
    let peer : PeerContact := ⟨⟨⟨10, 0, 0, 1⟩, 6881⟩⟩
    let peer' : PeerContact := ⟨⟨⟨10, 0, 0, 2⟩, 6881⟩⟩
    let s : Scheduler RoundArgs :=
      (empty.admitDiscovery limits 7 [peer]).admitDiscovery limits 8 [peer]
    s.ready = [8, 7] ∧ Promoted s (s.admitDiscovery limits 7 [peer, peer']) 7 ∧
      Unmoved s (s.admitDiscovery limits 7 [peer]) 7
        (HashJob.admissible [peer] limits.maxPeersPerHash) := by
  intro limits peer peer' s
  have hinit : Transition.Reachable (fun s => s = empty) (MortalStep limits) empty := .of_init rfl
  have hs : Transition.Reachable (fun s => s = empty) (MortalStep limits) s :=
    (hinit.next (.lived (.discovered empty 7 [peer]))).next (.lived (.discovered _ 8 [peer]))
  have hidle : ¬ s.isRunning 7 := by
    rintro ⟨job, hj, hrun⟩
    have hflag : (s.jobs.lookup 7).map HashJob.running = some false := by decide
    rw [hj, Option.map_some, hrun] at hflag
    cases hflag
  have hold : s.pending 7 = some [peer] := by decide
  have hnew : (s.admitDiscovery limits 7 [peer, peer']).pending 7 = some [peer', peer] := by
    decide
  have hsame : (s.admitDiscovery limits 7 [peer]).pending 7 = some [peer] := by decide
  obtain ⟨-, hpromotes, -⟩ := discovery_promotes hs 7 [peer, peer']
  obtain ⟨-, -, hunmoved, -⟩ := discovery_promotes hs 7 [peer]
  refine ⟨by decide, hpromotes ⟨?_, hidle⟩, hunmoved fun hg => ?_⟩
  · refine ⟨peer', ⟨[peer', peer], hnew, List.mem_cons_self⟩, fun old ho => ?_⟩
    rw [hold, Option.some.injEq] at ho
    rw [← ho]
    decide
  · obtain ⟨p, ⟨now, hnow, hp⟩, hfresh⟩ := hg.1
    rw [hsame, ← hold] at hnow
    exact hfresh now hnow hp

end Btfind.Scheduler
