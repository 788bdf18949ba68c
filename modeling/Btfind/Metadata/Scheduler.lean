import Btfind.Library.Transition
import Btfind.Library.KeyedTable
import Btfind.Metadata.HashJob

/-!
# The metadata scheduler

The collections of `run_metadata_fetcher` and the operations on them. The type
of a worker in flight is a parameter: the scheduler only spawns workers and
reads the hash of an outcome, so the same operations serve the scheduler alone
and the whole system, in which a worker is a running round.
-/

namespace Btfind

/-- The limits that `Config::validate` requires to be positive. -/
structure SchedulerLimits where
  maxConcurrent : Nat
  maxActiveHashJobs : Nat
  maxPeersPerHash : Nat
  maxPeerAttemptsPerRound : Nat
  maxConcurrent_pos : 1 ≤ maxConcurrent
  maxActiveHashJobs_pos : 1 ≤ maxActiveHashJobs
  maxPeersPerHash_pos : 1 ≤ maxPeersPerHash
  maxPeerAttemptsPerRound_pos : 1 ≤ maxPeerAttemptsPerRound

/-- What a worker is spawned with. `task` numbers the spawned workers. -/
structure RoundArgs where
  task : Nat
  infoHash : InfoHash
  peers : List PeerContact
  priorAttemptCount : Nat

structure JobOutcome where
  infoHash : InfoHash
  attempts : Nat
  complete : Bool
  terminal : Bool
  parked : Bool

structure Scheduler (ω : Type) where
  jobs : KeyedTable InfoHash HashJob
  ready : List InfoHash
  readySet : Finset InfoHash
  workers : List ω
  spawned : Nat

namespace Scheduler

variable {ω : Type}

def empty : Scheduler ω := ⟨∅, [], ∅, [], 0⟩

/-- `if ready_set.insert(hash) { ready.push_back(hash) }` -/
def enqueue (hash : InfoHash) (s : Scheduler ω) : Scheduler ω :=
  if hash ∈ s.readySet then s
  else { s with readySet := insert hash s.readySet, ready := s.ready ++ [hash] }

def admitJobPeers (limits : SchedulerLimits) (hash : InfoHash) (peers : List PeerContact)
    (attemptCount : Nat) (s : Scheduler ω) : Scheduler ω × MetadataJobAdmission :=
  match s.jobs.lookup hash with
  | some job =>
    let merged := { job with attemptCount := max job.attemptCount attemptCount }.mergePeers
      peers limits.maxPeersPerHash
    let s := { s with jobs := s.jobs.insert hash merged.1 }
    let s := if 0 < merged.2 ∧ merged.1.running = false then s.enqueue hash else s
    (s, if 0 < merged.2 then .accepted else .unchanged)
  | none =>
    if peers.isEmpty then (s, .noPeers)
    else if limits.maxActiveHashJobs ≤ s.jobs.count then (s, .atCapacity)
    else
      let merged := (HashJob.new attemptCount).mergePeers peers limits.maxPeersPerHash
      if merged.2 = 0 then (s, .noPeers)
      else
        ({ s with
            jobs := s.jobs.insert hash merged.1
            readySet := insert hash s.readySet
            ready := s.ready ++ [hash] }, .accepted)

def prioritizeReadyJob (hash : InfoHash) (admission : MetadataJobAdmission)
    (s : Scheduler ω) : Scheduler ω :=
  if admission = .accepted ∧ hash ∈ s.readySet then
    { s with ready := hash :: s.ready.filter (fun queued => queued ≠ hash) }
  else s

/-- What a received discovery does to the collections, after it is persisted. -/
def admitDiscovery (limits : SchedulerLimits) (hash : InfoHash) (peers : List PeerContact)
    (s : Scheduler ω) : Scheduler ω :=
  let admitted := s.admitJobPeers limits hash peers 0
  admitted.1.prioritizeReadyJob hash admitted.2

def applyJobOutcome (outcome : JobOutcome) (s : Scheduler ω) : Scheduler ω :=
  let drop (s : Scheduler ω) : Scheduler ω :=
    { s with jobs := s.jobs.erase outcome.infoHash
             readySet := s.readySet.erase outcome.infoHash }
  if outcome.complete || outcome.terminal || outcome.parked then drop s
  else
    match s.jobs.lookup outcome.infoHash with
    | none => s
    | some job =>
      let job := { job with
        running := false
        attemptCount := saturatingAddU32 job.attemptCount outcome.attempts }
      let s := { s with jobs := s.jobs.insert outcome.infoHash job }
      if job.peers.isEmpty then drop s else s.enqueue outcome.infoHash

/-- `join_next` hands over the outcome of the worker at an index. -/
def joinWorker (index : Nat) (outcome : JobOutcome) (s : Scheduler ω) : Scheduler ω :=
  { s with workers := s.workers.eraseIdx index }.applyJobOutcome outcome

/-- One turn of the dispatch loop; `none` when the loop ends. -/
def dispatchStep (limits : SchedulerLimits) (spawn : RoundArgs → ω) (s : Scheduler ω) :
    Option (Scheduler ω) :=
  if limits.maxConcurrent ≤ s.workers.length then none
  else
    match s.ready with
    | [] => none
    | hash :: ready =>
      let s := { s with ready := ready, readySet := s.readySet.erase hash }
      match s.jobs.lookup hash with
      | none => some s
      | some job =>
        if job.running then some s
        else
          let taken := job.takeRound limits.maxPeerAttemptsPerRound
          if taken.1.isEmpty then some { s with jobs := s.jobs.insert hash taken.2 }
          else
            some { s with
              jobs := s.jobs.insert hash { taken.2 with running := true }
              workers := s.workers ++ [spawn ⟨s.spawned, hash, taken.1, taken.2.attemptCount⟩]
              spawned := s.spawned + 1 }

def dispatchLoop (limits : SchedulerLimits) (spawn : RoundArgs → ω) :
    Nat → Scheduler ω → Scheduler ω
  | 0, s => s
  | fuel + 1, s =>
    match dispatchStep limits spawn s with
    | none => s
    | some s' => dispatchLoop limits spawn fuel s'

/-- The dispatch loop. Every turn pops one ready hash, so the fuel suffices. -/
def dispatch (limits : SchedulerLimits) (spawn : RoundArgs → ω) (s : Scheduler ω) :
    Scheduler ω :=
  dispatchLoop limits spawn (s.ready.length + 1) s

/-- What one turn of the dispatch loop can do. -/
theorem dispatchStep_cases {limits : SchedulerLimits} {spawn : RoundArgs → ω}
    {s s' : Scheduler ω} (h : dispatchStep limits spawn s = some s') :
    s.workers.length < limits.maxConcurrent ∧ ∃ hash ready, s.ready = hash :: ready ∧
      ((s' = { s with ready := ready, readySet := s.readySet.erase hash } ∧
          ∀ job, s.jobs.lookup hash = some job → job.running = true) ∨
        ∃ job, s.jobs.lookup hash = some job ∧ job.running = false ∧
          ((s' = { s with
              ready := ready
              readySet := s.readySet.erase hash
              jobs := s.jobs.insert hash (job.takeRound limits.maxPeerAttemptsPerRound).2 } ∧
              job.peers.take limits.maxPeerAttemptsPerRound = []) ∨
            s' = { s with
              ready := ready
              readySet := s.readySet.erase hash
              jobs := s.jobs.insert hash
                { (job.takeRound limits.maxPeerAttemptsPerRound).2 with running := true }
              workers := s.workers ++ [spawn ⟨s.spawned, hash,
                job.peers.take limits.maxPeerAttemptsPerRound, job.attemptCount⟩]
              spawned := s.spawned + 1 })) := by
  unfold dispatchStep at h
  split at h
  · cases h
  · next hlen =>
    refine ⟨by omega, ?_⟩
    split at h
    · cases h
    · next hash ready hr =>
      refine ⟨hash, ready, hr, ?_⟩
      -- A ready hash without an idle job is taken out of the queue and left alone.
      simp only at h
      split at h
      · next hl =>
        refine Or.inl ⟨(Option.some.inj h).symm, ?_⟩
        intro job hj
        rw [hl] at hj
        cases hj
      · next job hl =>
        split at h
        · next hrun =>
          refine Or.inl ⟨(Option.some.inj h).symm, ?_⟩
          intro job' hj
          rw [hl] at hj
          cases hj
          exact hrun
        · next hrun =>
          refine Or.inr ⟨job, hl, by simpa using hrun, ?_⟩
          split at h
          · next hempty => exact Or.inl ⟨(Option.some.inj h).symm, by simpa using hempty⟩
          · refine Or.inr ?_
            simpa using (Option.some.inj h).symm

/-- A turn of the dispatch loop gives no job a peer. -/
theorem dispatchStep_lookup {limits : SchedulerLimits} {spawn : RoundArgs → ω}
    {s s' : Scheduler ω} {k : InfoHash} {job' : HashJob}
    (h : dispatchStep limits spawn s = some s') (hj : s'.jobs.lookup k = some job') :
    ∃ job, s.jobs.lookup k = some job ∧ job'.peers ⊆ job.peers := by
  obtain ⟨-, hash, ready, -, ⟨rfl, -⟩ | ⟨job, hjob, -, hcases⟩⟩ := dispatchStep_cases h
  · exact ⟨job', hj, List.Subset.refl _⟩
  · have hinsert : ∀ taken : HashJob, taken.peers ⊆ job.peers →
        (s.jobs.insert hash taken).lookup k = some job' →
        ∃ job, s.jobs.lookup k = some job ∧ job'.peers ⊆ job.peers := by
      intro taken hsub hl
      rw [AList.lookup_insert_eq] at hl
      split at hl
      · next hk =>
        cases hl
        exact ⟨job, by rw [hk, hjob], hsub⟩
      · exact ⟨job', hl, List.Subset.refl _⟩
    obtain ⟨rfl, -⟩ | rfl := hcases
    · refine hinsert _ ?_ hj
      rw [HashJob.takeRound_peers]
      exact List.drop_subset _ _
    · refine hinsert _ ?_ hj
      simp only [HashJob.takeRound_peers]
      exact List.drop_subset _ _

theorem dispatchStep_ready_length {limits : SchedulerLimits} {spawn : RoundArgs → ω}
    {s s' : Scheduler ω} (h : dispatchStep limits spawn s = some s') :
    s.ready.length = s'.ready.length + 1 := by
  obtain ⟨-, hash, ready, hr, hc⟩ := dispatchStep_cases h
  rcases hc with ⟨rfl, -⟩ | ⟨job, -, -, ⟨rfl, -⟩ | rfl⟩ <;> simp [hr]

/-! ## What the operations leave alone -/

@[simp] theorem enqueue_workers (hash : InfoHash) (s : Scheduler ω) :
    (s.enqueue hash).workers = s.workers := by
  unfold enqueue
  split <;> rfl

@[simp] theorem admitJobPeers_workers (limits : SchedulerLimits) (hash : InfoHash)
    (peers : List PeerContact) (attemptCount : Nat) (s : Scheduler ω) :
    (s.admitJobPeers limits hash peers attemptCount).1.workers = s.workers := by
  unfold admitJobPeers
  split
  · simp only
    split
    · rw [enqueue_workers]
    · rfl
  · split
    · rfl
    · split
      · rfl
      · simp only
        split <;> rfl

@[simp] theorem enqueue_spawned (hash : InfoHash) (s : Scheduler ω) :
    (s.enqueue hash).spawned = s.spawned := by
  unfold enqueue
  split <;> rfl

@[simp] theorem admitJobPeers_spawned (limits : SchedulerLimits) (hash : InfoHash)
    (peers : List PeerContact) (attemptCount : Nat) (s : Scheduler ω) :
    (s.admitJobPeers limits hash peers attemptCount).1.spawned = s.spawned := by
  unfold admitJobPeers
  split
  · simp only
    split
    · rw [enqueue_spawned]
    · rfl
  · split
    · rfl
    · split
      · rfl
      · simp only
        split <;> rfl

@[simp] theorem enqueue_jobs (hash : InfoHash) (s : Scheduler ω) :
    (s.enqueue hash).jobs = s.jobs := by
  unfold enqueue
  split <;> rfl

/-- What an admission leaves of the jobs: the job of its hash with peers merged in,
or a new job for peers of a hash without one. -/
theorem admitJobPeers_jobs (limits : SchedulerLimits) (hash : InfoHash)
    (peers : List PeerContact) (attemptCount : Nat) (s : Scheduler ω) :
    (s.admitJobPeers limits hash peers attemptCount).1.jobs = s.jobs ∨
      (∃ job, s.jobs.lookup hash = some job ∧
        (s.admitJobPeers limits hash peers attemptCount).1.jobs = s.jobs.insert hash
          ({ job with attemptCount := max job.attemptCount attemptCount }.mergePeers peers
            limits.maxPeersPerHash).1) ∨
      (s.jobs.lookup hash = none ∧ peers ≠ [] ∧
        (s.admitJobPeers limits hash peers attemptCount).1.jobs = s.jobs.insert hash
          ((HashJob.new attemptCount).mergePeers peers limits.maxPeersPerHash).1) := by
  unfold admitJobPeers
  split
  · next job hj =>
    refine Or.inr (Or.inl ⟨job, hj, ?_⟩)
    simp only
    split
    · rw [enqueue_jobs]
    · rfl
  · next hnone =>
    split
    · exact Or.inl rfl
    · next hpeers =>
      split
      · exact Or.inl rfl
      · simp only
        split
        · exact Or.inl rfl
        · exact Or.inr (Or.inr ⟨hnone, by simpa using hpeers, rfl⟩)

@[simp] theorem admitDiscovery_jobs (limits : SchedulerLimits) (hash : InfoHash)
    (peers : List PeerContact) (s : Scheduler ω) :
    (s.admitDiscovery limits hash peers).jobs =
      (s.admitJobPeers limits hash peers 0).1.jobs := by
  unfold admitDiscovery prioritizeReadyJob
  simp only
  split <;> rfl

/-- An admission starts no job and stops none. -/
theorem admitJobPeers_running {limits : SchedulerLimits} {hash k : InfoHash}
    {peers : List PeerContact} {attemptCount : Nat} {s : Scheduler ω} {job' : HashJob}
    (h : (s.admitJobPeers limits hash peers attemptCount).1.jobs.lookup k = some job') :
    (∃ job, s.jobs.lookup k = some job ∧ job'.running = job.running) ∨
      (k = hash ∧ s.jobs.lookup hash = none ∧ peers ≠ []) := by
  obtain hsame | ⟨job, hj, hjobs⟩ | ⟨hnone, hpeers, hjobs⟩ :=
    admitJobPeers_jobs limits hash peers attemptCount s
  · rw [hsame] at h
    exact Or.inl ⟨job', h, rfl⟩
  · rw [hjobs, AList.lookup_insert_eq] at h
    split at h
    · next hk =>
      cases h
      exact Or.inl ⟨job, by rw [hk, hj], rfl⟩
    · exact Or.inl ⟨job', h, rfl⟩
  · rw [hjobs, AList.lookup_insert_eq] at h
    split at h
    · next hk => exact Or.inr ⟨hk, hnone, hpeers⟩
    · exact Or.inl ⟨job', h, rfl⟩

/-- Only an admission of peers gives a job peers. -/
theorem admitJobPeers_lookup {limits : SchedulerLimits} {hash k : InfoHash}
    {peers : List PeerContact} {attemptCount : Nat} {s : Scheduler ω} {job' : HashJob}
    (h : (s.admitJobPeers limits hash peers attemptCount).1.jobs.lookup k = some job') :
    (∃ job, s.jobs.lookup k = some job ∧ job'.peers ⊆ job.peers) ∨ (k = hash ∧ peers ≠ []) := by
  obtain hsame | ⟨job, hj, hjobs⟩ | ⟨-, hpeers, hjobs⟩ :=
    admitJobPeers_jobs limits hash peers attemptCount s
  · rw [hsame] at h
    exact Or.inl ⟨job', h, List.Subset.refl _⟩
  · rw [hjobs, AList.lookup_insert_eq] at h
    split at h
    · next hk =>
      cases h
      by_cases hpeers : peers = []
      · obtain ⟨admitted, hmerged, -, hsub, -⟩ :=
          HashJob.mergePeers_peers { job with attemptCount := max job.attemptCount attemptCount }
            peers limits.maxPeersPerHash
        have hnone : admitted = [] := by
          rw [hpeers] at hsub
          exact List.eq_nil_iff_forall_not_mem.mpr fun p hp => List.not_mem_nil (hsub p hp)
        refine Or.inl ⟨job, by rw [hk, hj], ?_⟩
        rw [hmerged, hnone, List.nil_append]
        exact List.Subset.refl _
      · exact Or.inr ⟨hk, hpeers⟩
    · exact Or.inl ⟨job', h, List.Subset.refl _⟩
  · rw [hjobs, AList.lookup_insert_eq] at h
    split at h
    · next hk => exact Or.inr ⟨hk, hpeers⟩
    · exact Or.inl ⟨job', h, List.Subset.refl _⟩

@[simp] theorem admitDiscovery_workers (limits : SchedulerLimits) (hash : InfoHash)
    (peers : List PeerContact) (s : Scheduler ω) :
    (s.admitDiscovery limits hash peers).workers = s.workers := by
  unfold admitDiscovery prioritizeReadyJob
  simp only
  split <;> rw [← admitJobPeers_workers limits hash peers 0 s]

@[simp] theorem joinWorker_workers (index : Nat) (outcome : JobOutcome) (s : Scheduler ω) :
    (s.joinWorker index outcome).workers = s.workers.eraseIdx index := by
  unfold joinWorker applyJobOutcome
  simp only
  split
  · rfl
  · split
    · rfl
    · split
      · rfl
      · rw [enqueue_workers]

@[simp] theorem admitDiscovery_spawned (limits : SchedulerLimits) (hash : InfoHash)
    (peers : List PeerContact) (s : Scheduler ω) :
    (s.admitDiscovery limits hash peers).spawned = s.spawned := by
  unfold admitDiscovery prioritizeReadyJob
  simp only
  split <;> rw [← admitJobPeers_spawned limits hash peers 0 s]

@[simp] theorem joinWorker_spawned (index : Nat) (outcome : JobOutcome) (s : Scheduler ω) :
    (s.joinWorker index outcome).spawned = s.spawned := by
  unfold joinWorker applyJobOutcome
  simp only
  split
  · rfl
  · split
    · rfl
    · split
      · rfl
      · rw [enqueue_spawned]

theorem joinWorker_lookup_other {index : Nat} {outcome : JobOutcome} {s : Scheduler ω}
    {k : InfoHash} (hk : k ≠ outcome.infoHash) :
    (s.joinWorker index outcome).jobs.lookup k = s.jobs.lookup k := by
  unfold joinWorker applyJobOutcome
  simp only
  split
  · exact AList.lookup_erase_ne hk
  · split
    · rfl
    · split
      · simp only [AList.erase_insert_self]
        exact AList.lookup_erase_ne hk
      · rw [enqueue_jobs]
        exact AList.lookup_insert_ne hk

/-- A joined round gives no job a peer. -/
theorem joinWorker_lookup {index : Nat} {outcome : JobOutcome} {s : Scheduler ω} {k : InfoHash}
    {job' : HashJob} (h : (s.joinWorker index outcome).jobs.lookup k = some job') :
    ∃ job, s.jobs.lookup k = some job ∧ job'.peers = job.peers := by
  by_cases hk : k = outcome.infoHash
  · subst hk
    unfold joinWorker applyJobOutcome at h
    simp only at h
    split at h
    · simp at h
    · split at h
      · exact ⟨job', h, rfl⟩
      · next job hjob =>
        split at h
        · simp at h
        · rw [enqueue_jobs, AList.lookup_insert] at h
          cases h
          exact ⟨job, hjob, rfl⟩
  · rw [joinWorker_lookup_other hk] at h
    exact ⟨job', h, rfl⟩

/-- Another round's job loses its running flag and is dropped if no peer is pending. -/
theorem joinWorker_lookup_kept {index : Nat} {outcome : JobOutcome} {s : Scheduler ω}
    {job : HashJob} (h : (outcome.complete || outcome.terminal || outcome.parked) = false)
    (hj : s.jobs.lookup outcome.infoHash = some job) :
    (s.joinWorker index outcome).jobs.lookup outcome.infoHash =
      if job.peers.isEmpty then none
      else some { job with
        running := false
        attemptCount := saturatingAddU32 job.attemptCount outcome.attempts } := by
  unfold joinWorker applyJobOutcome
  simp only [h, hj, Bool.false_eq_true, if_false]
  split
  · exact AList.lookup_erase _ _
  · rw [enqueue_jobs, AList.lookup_insert]

/-- The job of a round that completed, ended for good or parked is dropped. -/
theorem joinWorker_lookup_dropped {index : Nat} {outcome : JobOutcome} {s : Scheduler ω}
    (h : (outcome.complete || outcome.terminal || outcome.parked) = true) :
    (s.joinWorker index outcome).jobs.lookup outcome.infoHash = none := by
  unfold joinWorker applyJobOutcome
  simp only [h, if_true]
  exact AList.lookup_erase _ _

end Scheduler

end Btfind
