import Btfind.Metadata.Scheduler

/-!
# The scheduler invariant

The four collections of the scheduler and the workers in flight stay in step
under every operation. The invariant is stated for any worker type with a hash,
so the system model reuses the preservation lemmas for its running rounds.
-/

namespace Btfind.Scheduler

variable {ω : Type}

structure Inv (hashOf : ω → InfoHash) (limits : SchedulerLimits) (s : Scheduler ω) : Prop where
  ready_nodup : s.ready.Nodup
  readySet_eq : s.readySet = s.ready.toFinset
  ready_idle : ∀ h ∈ s.ready, ∃ job, s.jobs.lookup h = some job ∧ job.running = false ∧
    job.peers ≠ []
  tracked : ∀ h job, s.jobs.lookup h = some job →
    h ∈ s.ready ∨ (job.running = true ∧ h ∈ s.workers.map hashOf)
  worker_running : ∀ h ∈ s.workers.map hashOf, ∃ job, s.jobs.lookup h = some job ∧
    job.running = true
  workers_nodup : (s.workers.map hashOf).Nodup
  jobs_bounded : s.jobs.count ≤ limits.maxActiveHashJobs
  workers_bounded : s.workers.length ≤ limits.maxConcurrent
  peers_bounded : ∀ h job, s.jobs.lookup h = some job → job.peers.length ≤ limits.maxPeersPerHash

variable {hashOf : ω → InfoHash} {limits : SchedulerLimits} {s : Scheduler ω}

theorem Inv.empty : Inv hashOf limits (Scheduler.empty : Scheduler ω) where
  ready_nodup := List.nodup_nil
  readySet_eq := rfl
  ready_idle := by simp [Scheduler.empty]
  tracked := by simp [Scheduler.empty]
  worker_running := by simp [Scheduler.empty]
  workers_nodup := List.nodup_nil
  jobs_bounded := Nat.zero_le _
  workers_bounded := Nat.zero_le _
  peers_bounded := by simp [Scheduler.empty]

theorem Inv.mem_readySet (hi : Inv hashOf limits s) {h : InfoHash} :
    h ∈ s.readySet ↔ h ∈ s.ready := by
  rw [hi.readySet_eq, List.mem_toFinset]

/-- A ready hash has no worker. -/
theorem Inv.ready_no_worker (hi : Inv hashOf limits s) {h : InfoHash} (hr : h ∈ s.ready) :
    h ∉ s.workers.map hashOf := by
  intro hw
  obtain ⟨job, hj, hidle, -⟩ := hi.ready_idle h hr
  obtain ⟨job', hj', hrun⟩ := hi.worker_running h hw
  rw [hj] at hj'
  cases hj'
  rw [hidle] at hrun
  cases hrun

/-- An idle tracked job is ready. -/
theorem Inv.ready_of_idle (hi : Inv hashOf limits s) {h : InfoHash} {job : HashJob}
    (hj : s.jobs.lookup h = some job) (hidle : job.running = false) : h ∈ s.ready := by
  rcases hi.tracked h job hj with hr | ⟨hrun, -⟩
  · exact hr
  · rw [hidle] at hrun
    cases hrun

/-- A running tracked job is not ready. -/
theorem Inv.not_ready_of_running (hi : Inv hashOf limits s) {h : InfoHash} {job : HashJob}
    (hj : s.jobs.lookup h = some job) (hrun : job.running = true) : h ∉ s.ready := by
  intro hr
  obtain ⟨job', hj', hidle, -⟩ := hi.ready_idle h hr
  rw [hj] at hj'
  cases hj'
  rw [hidle] at hrun
  cases hrun

/-- A job that is written has no more peers than the limit, and the others are as they were. -/
theorem Inv.peers_bounded_insert (hi : Inv hashOf limits s) (h : InfoHash) {job : HashJob}
    (hlen : job.peers.length ≤ limits.maxPeersPerHash) (k : InfoHash) (found : HashJob)
    (hf : (s.jobs.insert h job).lookup k = some found) :
    found.peers.length ≤ limits.maxPeersPerHash := by
  by_cases hkh : k = h
  · subst hkh
    simp only [AList.lookup_insert, Option.some.injEq] at hf
    exact hf ▸ hlen
  · simp only [AList.lookup_insert_eq, hkh, if_false] at hf
    exact hi.peers_bounded k found hf

/-- An idle job with a pending peer may go to the end of the ready queue. -/
theorem Inv.ready_idle_insert (hi : Inv hashOf limits s) (h : InfoHash) {job : HashJob}
    (hidle : job.running = false) (hne : job.peers ≠ []) :
    ∀ k ∈ s.ready ++ [h], ∃ found, (s.jobs.insert h job).lookup k = some found ∧
      found.running = false ∧ found.peers ≠ [] := by
  intro k hk
  by_cases hkh : k = h
  · subst hkh
    exact ⟨job, by simp, hidle, hne⟩
  · have hks : k ∈ s.ready := by
      rcases List.mem_append.mp hk with hk | hk
      · exact hk
      · exact absurd (List.mem_singleton.mp hk) hkh
    obtain ⟨found, hf, hrest⟩ := hi.ready_idle k hks
    exact ⟨found, by simp [hkh, hf], hrest⟩

/-- Replacing a tracked job by one with the same flag and no fewer peers. -/
theorem Inv.replace_job (hi : Inv hashOf limits s) {h : InfoHash} {job job' : HashJob}
    (hj : s.jobs.lookup h = some job) (hrun : job'.running = job.running)
    (hpeers : job.peers ≠ [] → job'.peers ≠ [])
    (hlen : job'.peers.length ≤ limits.maxPeersPerHash) :
    Inv hashOf limits { s with jobs := s.jobs.insert h job' } where
  ready_nodup := hi.ready_nodup
  readySet_eq := hi.readySet_eq
  ready_idle := by
    intro k hk
    obtain ⟨found, hf, hidle, hne⟩ := hi.ready_idle k hk
    by_cases hkh : k = h
    · subst hkh
      rw [hj] at hf
      cases hf
      exact ⟨job', by simp, hrun.trans hidle, hpeers hne⟩
    · exact ⟨found, by simp [hkh, hf], hidle, hne⟩
  tracked := by
    intro k found hf
    by_cases hkh : k = h
    · subst hkh
      simp only [AList.lookup_insert, Option.some.injEq] at hf
      subst hf
      rw [hrun]
      exact hi.tracked k job hj
    · simp only [AList.lookup_insert_eq, hkh, if_false] at hf
      exact hi.tracked k found hf
  worker_running := by
    intro k hk
    obtain ⟨found, hf, hr⟩ := hi.worker_running k hk
    by_cases hkh : k = h
    · subst hkh
      rw [hj] at hf
      cases hf
      exact ⟨job', by simp, hrun.trans hr⟩
    · exact ⟨found, by simp [hkh, hf], hr⟩
  workers_nodup := hi.workers_nodup
  jobs_bounded := by
    rw [AList.count_insert_of_some hj]
    exact hi.jobs_bounded
  workers_bounded := hi.workers_bounded
  peers_bounded := hi.peers_bounded_insert h hlen

/-- An idle job of a tracked hash is ready already, so enqueueing it again changes nothing. -/
theorem Inv.enqueue_idle (hi : Inv hashOf limits s) {h : InfoHash} {job : HashJob}
    (hj : s.jobs.lookup h = some job) (hidle : job.running = false) : s.enqueue h = s := by
  have hr : h ∈ s.readySet := hi.mem_readySet.mpr (hi.ready_of_idle hj hidle)
  simp [Scheduler.enqueue, hr]

/-- Tracking a new job with a pending peer. -/
theorem Inv.track (hi : Inv hashOf limits s) {h : InfoHash} {job : HashJob}
    (hnone : s.jobs.lookup h = none) (hidle : job.running = false) (hne : job.peers ≠ [])
    (hlen : job.peers.length ≤ limits.maxPeersPerHash)
    (hroom : s.jobs.count < limits.maxActiveHashJobs) :
    Inv hashOf limits { s with
      jobs := s.jobs.insert h job
      readySet := insert h s.readySet
      ready := s.ready ++ [h] } := by
  -- A hash without a job is in no queue and has no worker.
  have hready : h ∉ s.ready := by
    intro hr
    obtain ⟨found, hf, -⟩ := hi.ready_idle h hr
    rw [hnone] at hf
    cases hf
  have hworker : h ∉ s.workers.map hashOf := by
    intro hw
    obtain ⟨found, hf, -⟩ := hi.worker_running h hw
    rw [hnone] at hf
    cases hf
  constructor
  case ready_nodup =>
    rw [← List.concat_eq_append]
    exact hi.ready_nodup.concat hready
  case readySet_eq =>
    ext k
    rw [Finset.mem_insert, hi.mem_readySet, List.mem_toFinset, List.mem_append, List.mem_singleton]
    exact or_comm
  case ready_idle => exact hi.ready_idle_insert h hidle hne
  case tracked =>
    intro k found hf
    by_cases hkh : k = h
    · exact Or.inl (by simp [hkh])
    · simp only [AList.lookup_insert_eq, hkh, if_false] at hf
      exact (hi.tracked k found hf).imp (fun hr => List.mem_append_left _ hr) id
  case worker_running =>
    intro k hk
    have hkh : k ≠ h := fun he => hworker (he ▸ hk)
    obtain ⟨found, hf, hrun⟩ := hi.worker_running k hk
    exact ⟨found, by simp [hkh, hf], hrun⟩
  case workers_nodup => exact hi.workers_nodup
  case jobs_bounded =>
    simp only [AList.count_insert_of_none hnone]
    omega
  case workers_bounded => exact hi.workers_bounded
  case peers_bounded => exact hi.peers_bounded_insert h hlen

theorem Inv.admitJobPeers (hi : Inv hashOf limits s) (h : InfoHash) (peers : List PeerContact)
    (attemptCount : Nat) : Inv hashOf limits (s.admitJobPeers limits h peers attemptCount).1 := by
  unfold Scheduler.admitJobPeers
  cases hl : s.jobs.lookup h with
  | some job =>
    simp only
    let base : HashJob := { job with attemptCount := max job.attemptCount attemptCount }
    obtain ⟨admitted, hp, -, -, -⟩ := base.mergePeers_peers peers limits.maxPeersPerHash
    have hne : job.peers ≠ [] → (base.mergePeers peers limits.maxPeersPerHash).1.peers ≠ [] := by
      intro hne hnil
      rw [hp, List.append_eq_nil_iff] at hnil
      exact hne hnil.2
    have hi' : Inv hashOf limits { s with
        jobs := s.jobs.insert h (base.mergePeers peers limits.maxPeersPerHash).1 } :=
      hi.replace_job hl rfl hne (base.mergePeers_length peers _ (hi.peers_bounded h job hl))
    split
    · next hc =>
      -- an idle tracked job is in the ready queue already
      rw [hi'.enqueue_idle (AList.lookup_insert _) hc.2]
      exact hi'
    · exact hi'
  | none =>
    simp only
    split
    · exact hi
    · split
      · exact hi
      · next hroom =>
        split
        · exact hi
        · next hadded =>
          obtain ⟨admitted, hp, hn, -, -⟩ :=
            (HashJob.new attemptCount).mergePeers_peers peers limits.maxPeersPerHash
          refine hi.track hl rfl ?_ ?_ (by omega)
          · intro hnil
            rw [hp, List.append_eq_nil_iff] at hnil
            rw [hn, hnil.1] at hadded
            exact hadded rfl
          · exact HashJob.mergePeers_length _ _ _ (Nat.zero_le _)

theorem Inv.prioritizeReadyJob (hi : Inv hashOf limits s) (h : InfoHash)
    (admission : MetadataJobAdmission) :
    Inv hashOf limits (s.prioritizeReadyJob h admission) := by
  unfold Scheduler.prioritizeReadyJob
  split
  · next hc =>
    have hr : h ∈ s.ready := hi.mem_readySet.mp hc.2
    have hmem : ∀ k, k ∈ h :: s.ready.filter (fun queued => queued ≠ h) ↔ k ∈ s.ready := by
      intro k
      by_cases hk : k = h
      · simp [hk, hr]
      · simp [hk]
    constructor
    case ready_nodup => exact List.nodup_cons.mpr ⟨by simp, hi.ready_nodup.filter _⟩
    case readySet_eq =>
      ext k
      rw [hi.mem_readySet, List.mem_toFinset]
      exact (hmem k).symm
    case ready_idle => exact fun k hk => hi.ready_idle k ((hmem k).mp hk)
    case tracked => exact fun k job hj => (hi.tracked k job hj).imp (hmem k).mpr id
    case worker_running => exact hi.worker_running
    case workers_nodup => exact hi.workers_nodup
    case jobs_bounded => exact hi.jobs_bounded
    case workers_bounded => exact hi.workers_bounded
    case peers_bounded => exact hi.peers_bounded
  · exact hi

theorem Inv.admitDiscovery (hi : Inv hashOf limits s) (h : InfoHash)
    (peers : List PeerContact) : Inv hashOf limits (s.admitDiscovery limits h peers) :=
  (hi.admitJobPeers h peers 0).prioritizeReadyJob h _

/-- Spawning the worker of the first ready hash. -/
theorem Inv.spawn (hi : Inv hashOf limits s) {h : InfoHash} {ready : List InfoHash}
    {job job' : HashJob} {w : ω} {n : Nat} (hready : s.ready = h :: ready)
    (hj : s.jobs.lookup h = some job) (hw : hashOf w = h) (hrun : job'.running = true)
    (hlen : job'.peers.length ≤ limits.maxPeersPerHash)
    (hroom : s.workers.length < limits.maxConcurrent) :
    Inv hashOf limits { s with
      ready := ready
      readySet := s.readySet.erase h
      jobs := s.jobs.insert h job'
      workers := s.workers ++ [w]
      spawned := n } := by
  have hnd := hi.ready_nodup
  rw [hready] at hnd
  obtain ⟨hnot, hnd'⟩ := List.nodup_cons.mp hnd
  -- No second worker for the hash: a ready job is idle.
  have hfree := hi.ready_no_worker (h := h) (by simp [hready])
  constructor
  case ready_nodup => exact hnd'
  case readySet_eq =>
    ext k
    rw [Finset.mem_erase, hi.mem_readySet, hready, List.mem_cons, List.mem_toFinset]
    constructor
    · rintro ⟨hne, rfl | hk⟩
      · exact absurd rfl hne
      · exact hk
    · intro hk
      exact ⟨fun he => hnot (he ▸ hk), Or.inr hk⟩
  case ready_idle =>
    intro k hk
    have hkh : k ≠ h := fun he => hnot (he ▸ hk)
    obtain ⟨found, hf, hrest⟩ := hi.ready_idle k (by simp [hready, hk])
    exact ⟨found, by simp [hkh, hf], hrest⟩
  case tracked =>
    intro k found hf
    by_cases hkh : k = h
    · subst hkh
      simp only [AList.lookup_insert, Option.some.injEq] at hf
      exact Or.inr ⟨hf ▸ hrun, by simp [hw]⟩
    · simp only [AList.lookup_insert_eq, hkh, if_false] at hf
      rcases hi.tracked k found hf with hr | ⟨hr, hm⟩
      · rw [hready, List.mem_cons] at hr
        exact Or.inl (hr.resolve_left hkh)
      · exact Or.inr ⟨hr, by rw [List.map_append]; exact List.mem_append_left _ hm⟩
  case worker_running =>
    intro k hk
    rw [List.map_append, List.mem_append, List.map_singleton, List.mem_singleton, hw] at hk
    by_cases hkh : k = h
    · subst hkh
      exact ⟨job', by simp, hrun⟩
    · obtain ⟨found, hf, hr⟩ := hi.worker_running k (hk.resolve_right hkh)
      exact ⟨found, by simp [hkh, hf], hr⟩
  case workers_nodup =>
    rw [List.map_append, List.map_singleton, hw, ← List.concat_eq_append]
    exact hi.workers_nodup.concat hfree
  case jobs_bounded =>
    simp only [AList.count_insert_of_some hj]
    exact hi.jobs_bounded
  case workers_bounded =>
    simp only [List.length_append, List.length_singleton]
    omega
  case peers_bounded => exact hi.peers_bounded_insert h hlen

theorem Inv.dispatchStep {spawn : RoundArgs → ω} (hspawn : ∀ a, hashOf (spawn a) = a.infoHash)
    {s' : Scheduler ω} (hi : Inv hashOf limits s)
    (h : Scheduler.dispatchStep limits spawn s = some s') : Inv hashOf limits s' := by
  obtain ⟨hroom, hash, ready, hr, hcases⟩ := dispatchStep_cases h
  obtain ⟨job, hj, hidle, hne⟩ := hi.ready_idle hash (by simp [hr])
  rcases hcases with ⟨-, hrun⟩ | ⟨job', hj', -, ⟨-, htake⟩ | rfl⟩
  · -- the invariant excludes a ready hash without an idle job
    rw [hrun job hj] at hidle
    cases hidle
  · -- and a ready job whose round would be empty
    rw [hj] at hj'
    cases hj'
    have hpos := limits.maxPeerAttemptsPerRound_pos
    rcases List.take_eq_nil_iff.mp htake with hz | hnil
    · omega
    · exact absurd hnil hne
  · refine hi.spawn hr hj' (hspawn _) rfl ?_ hroom
    have hlen := hi.peers_bounded hash job' hj'
    simp only [HashJob.takeRound_peers, List.length_drop]
    omega

/-- Only the hashes of the workers matter to the invariant. -/
theorem Inv.of_workers_map (hi : Inv hashOf limits s) {workers : List ω}
    (hmap : workers.map hashOf = s.workers.map hashOf) :
    Inv hashOf limits { s with workers := workers } where
  ready_nodup := hi.ready_nodup
  readySet_eq := hi.readySet_eq
  ready_idle := hi.ready_idle
  tracked := by
    simp only [hmap]
    exact hi.tracked
  worker_running := by
    simp only [hmap]
    exact hi.worker_running
  workers_nodup := by
    simp only [hmap]
    exact hi.workers_nodup
  jobs_bounded := hi.jobs_bounded
  workers_bounded := by
    have hlen := congrArg List.length hmap
    simp only [List.length_map] at hlen
    simp only [hlen]
    exact hi.workers_bounded
  peers_bounded := hi.peers_bounded

section Join

variable {h : InfoHash} {workers : List ω}

/-- A joined worker is gone, and the workers of other hashes stay. -/
theorem Inv.mem_rest (hi : Inv hashOf limits s)
    (hperm : (h :: workers.map hashOf).Perm (s.workers.map hashOf)) {k : InfoHash} :
    k ∈ workers.map hashOf ↔ k ∈ s.workers.map hashOf ∧ k ≠ h := by
  have hnd := hperm.nodup_iff.mpr hi.workers_nodup
  obtain ⟨hnot, -⟩ := List.nodup_cons.mp hnd
  rw [← hperm.mem_iff, List.mem_cons]
  constructor
  · intro hk
    exact ⟨Or.inr hk, fun he => hnot (he ▸ hk)⟩
  · rintro ⟨hk, hne⟩
    exact hk.resolve_left hne

/-- The job of a joined worker is dropped. -/
theorem Inv.join_drop (hi : Inv hashOf limits s)
    (hperm : (h :: workers.map hashOf).Perm (s.workers.map hashOf)) :
    Inv hashOf limits { s with
      workers := workers
      jobs := s.jobs.erase h
      readySet := s.readySet.erase h } := by
  have hwork : h ∈ s.workers.map hashOf := hperm.mem_iff.mp List.mem_cons_self
  obtain ⟨running, hrl, hrun⟩ := hi.worker_running h hwork
  have hready := hi.not_ready_of_running hrl hrun
  -- The code erases the hash from the ready set all the same; a running job is not in it.
  have hset : s.readySet.erase h = s.readySet :=
    Finset.erase_eq_of_notMem fun hm => hready (hi.mem_readySet.mp hm)
  constructor
  case ready_nodup => exact hi.ready_nodup
  case readySet_eq => exact hset.trans hi.readySet_eq
  case ready_idle =>
    intro k hk
    have hkh : k ≠ h := fun he => hready (he ▸ hk)
    obtain ⟨found, hf, hrest⟩ := hi.ready_idle k hk
    exact ⟨found, by simp [hkh, hf], hrest⟩
  case tracked =>
    intro k found hf
    by_cases hkh : k = h
    · rw [hkh, AList.lookup_erase] at hf
      cases hf
    · simp only [AList.lookup_erase_eq, hkh, if_false] at hf
      exact (hi.tracked k found hf).imp id fun ⟨hr, hm⟩ =>
        ⟨hr, (hi.mem_rest hperm).mpr ⟨hm, hkh⟩⟩
  case worker_running =>
    intro k hk
    obtain ⟨hm, hkh⟩ := (hi.mem_rest hperm).mp hk
    obtain ⟨found, hf, hr⟩ := hi.worker_running k hm
    exact ⟨found, by simp [hkh, hf], hr⟩
  case workers_nodup => exact (List.nodup_cons.mp (hperm.nodup_iff.mpr hi.workers_nodup)).2
  case jobs_bounded => exact (AList.count_erase_le _ _).trans hi.jobs_bounded
  case workers_bounded =>
    have hlen := hperm.length_eq
    simp only [List.length_cons, List.length_map] at hlen
    have := hi.workers_bounded
    simp only
    omega
  case peers_bounded =>
    intro k found hf
    by_cases hkh : k = h
    · rw [hkh, AList.lookup_erase] at hf
      cases hf
    · simp only [AList.lookup_erase_eq, hkh, if_false] at hf
      exact hi.peers_bounded k found hf

/-- The job of a joined worker goes back to the ready queue with its pending peers. -/
theorem Inv.join_keep (hi : Inv hashOf limits s)
    (hperm : (h :: workers.map hashOf).Perm (s.workers.map hashOf)) {job job' : HashJob}
    (hj : s.jobs.lookup h = some job) (hidle : job'.running = false)
    (hpeers : job'.peers = job.peers) (hne : job.peers ≠ []) :
    Inv hashOf limits
      (({ s with workers := workers, jobs := s.jobs.insert h job' } : Scheduler ω).enqueue h) := by
  have hwork : h ∈ s.workers.map hashOf := hperm.mem_iff.mp List.mem_cons_self
  obtain ⟨running, hrl, hrun⟩ := hi.worker_running h hwork
  have hready := hi.not_ready_of_running hrl hrun
  have hset : h ∉ s.readySet := fun hm => hready (hi.mem_readySet.mp hm)
  -- The hash is not in the ready set, so `enqueue` appends it.
  have hqueue : (({ s with workers := workers, jobs := s.jobs.insert h job' } :
      Scheduler ω).enqueue h) = { s with
        workers := workers
        jobs := s.jobs.insert h job'
        readySet := insert h s.readySet
        ready := s.ready ++ [h] } := by
    simp [Scheduler.enqueue, hset]
  rw [hqueue]
  constructor
  case ready_nodup =>
    rw [← List.concat_eq_append]
    exact hi.ready_nodup.concat hready
  case readySet_eq =>
    ext k
    rw [Finset.mem_insert, hi.mem_readySet, List.mem_toFinset, List.mem_append, List.mem_singleton]
    exact or_comm
  case ready_idle => exact hi.ready_idle_insert h hidle (hpeers ▸ hne)
  case tracked =>
    intro k found hf
    by_cases hkh : k = h
    · exact Or.inl (by simp [hkh])
    · simp only [AList.lookup_insert_eq, hkh, if_false] at hf
      rcases hi.tracked k found hf with hr | ⟨hr, hm⟩
      · exact Or.inl (List.mem_append_left _ hr)
      · exact Or.inr ⟨hr, (hi.mem_rest hperm).mpr ⟨hm, hkh⟩⟩
  case worker_running =>
    intro k hk
    obtain ⟨hm, hkh⟩ := (hi.mem_rest hperm).mp hk
    obtain ⟨found, hf, hr⟩ := hi.worker_running k hm
    exact ⟨found, by simp [hkh, hf], hr⟩
  case workers_nodup => exact (List.nodup_cons.mp (hperm.nodup_iff.mpr hi.workers_nodup)).2
  case jobs_bounded =>
    simp only [AList.count_insert_of_some hj]
    exact hi.jobs_bounded
  case workers_bounded =>
    have hlen := hperm.length_eq
    simp only [List.length_cons, List.length_map] at hlen
    have := hi.workers_bounded
    simp only
    omega
  case peers_bounded => exact hi.peers_bounded_insert h (hpeers ▸ hi.peers_bounded h job hj)

end Join

theorem Inv.joinWorker (hi : Inv hashOf limits s) {index : Nat} {w : ω} {outcome : JobOutcome}
    (hw : s.workers[index]? = some w) (hash : hashOf w = outcome.infoHash) :
    Inv hashOf limits (s.joinWorker index outcome) := by
  obtain ⟨hlt, hget⟩ := List.getElem?_eq_some_iff.mp hw
  have hperm : (outcome.infoHash :: (s.workers.eraseIdx index).map hashOf).Perm
      (s.workers.map hashOf) := by
    have hp := (List.getElem_cons_eraseIdx_perm hlt).map hashOf
    rwa [List.map_cons, hget, hash] at hp
  unfold Scheduler.joinWorker Scheduler.applyJobOutcome
  simp only
  split
  · exact hi.join_drop hperm
  · -- the worker's hash is tracked
    obtain ⟨job, hj, -⟩ := hi.worker_running outcome.infoHash
      (hperm.mem_iff.mp List.mem_cons_self)
    simp only [hj]
    split
    · simp only [AList.erase_insert_self]
      exact hi.join_drop hperm
    · next hne => exact hi.join_keep hperm hj rfl rfl (by simpa using hne)

end Btfind.Scheduler
