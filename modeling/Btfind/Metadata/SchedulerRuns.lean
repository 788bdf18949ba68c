import Btfind.Metadata.SchedulerInvariant

/-!
# Runs of the scheduler

The events of `run_metadata_fetcher` as steps of a transition relation, in any
order and with any arguments: the records that a retry scan loads and the
outcomes that workers return are arbitrary here.
-/

namespace Btfind

inductive SchedulerEvent
  | discovered (hash : InfoHash) (peers : List PeerContact)
  | restored (hash : InfoHash) (peers : List PeerContact) (attemptCount : Nat)
  | dispatched
  | joined (index : Nat) (outcome : JobOutcome)

namespace Scheduler

inductive Step (limits : SchedulerLimits) :
    Scheduler RoundArgs → SchedulerEvent → Scheduler RoundArgs → Prop
  | discovered (s : Scheduler RoundArgs) (hash : InfoHash) (peers : List PeerContact) :
      Step limits s (.discovered hash peers) (s.admitDiscovery limits hash peers)
  | restored (s : Scheduler RoundArgs) (hash : InfoHash) (peers : List PeerContact)
      (attemptCount : Nat) :
      Step limits s (.restored hash peers attemptCount)
        (s.admitJobPeers limits hash peers attemptCount).1
  | dispatched {s s' : Scheduler RoundArgs} (h : dispatchStep limits id s = some s') :
      Step limits s .dispatched s'
  | joined {s : Scheduler RoundArgs} {index : Nat} {args : RoundArgs} {outcome : JobOutcome}
      (hw : s.workers[index]? = some args) (hash : args.infoHash = outcome.infoHash) :
      Step limits s (.joined index outcome) (s.joinWorker index outcome)

/-- The collections, the running flags and the workers in flight agree. -/
structure Consistent (limits : SchedulerLimits) (s : Scheduler RoundArgs) : Prop where
  ready_distinct : s.ready.Nodup
  ready_is_readySet : s.readySet = s.ready.toFinset
  ready_pending : ∀ h ∈ s.ready, ∃ job, s.jobs.lookup h = some job ∧ job.running = false ∧
    job.peers ≠ []
  not_stranded : ∀ h job, s.jobs.lookup h = some job →
    h ∈ s.ready ∨ (job.running = true ∧ (s.workers.map RoundArgs.infoHash).count h = 1)
  worker_tracked : ∀ args ∈ s.workers, ∃ job, s.jobs.lookup args.infoHash = some job ∧
    job.running = true
  one_worker : ∀ h, (s.workers.map RoundArgs.infoHash).count h ≤ 1
  jobs_bounded : s.jobs.count ≤ limits.maxActiveHashJobs
  workers_bounded : s.workers.length ≤ limits.maxConcurrent
  peers_bounded : ∀ h job, s.jobs.lookup h = some job →
    job.peers.length ≤ limits.maxPeersPerHash ∧ (peerAddrs job.peers).Nodup ∧
      job.peerSet = (peerAddrs job.peers).toFinset

variable {limits : SchedulerLimits} {s s' : Scheduler RoundArgs}

theorem Inv.consistent (hi : Inv RoundArgs.infoHash limits s) : Consistent limits s where
  ready_distinct := hi.ready_nodup
  ready_is_readySet := hi.readySet_eq
  ready_pending := hi.ready_idle
  not_stranded := by
    intro h job hj
    refine (hi.tracked h job hj).imp id ?_
    rintro ⟨hrun, hm⟩
    exact ⟨hrun, List.count_eq_one_of_mem hi.workers_nodup hm⟩
  worker_tracked := by
    intro args ha
    exact hi.worker_running args.infoHash (List.mem_map_of_mem ha)
  one_worker := fun h => List.nodup_iff_count_le_one.mp hi.workers_nodup h
  jobs_bounded := hi.jobs_bounded
  workers_bounded := hi.workers_bounded
  peers_bounded := by
    intro h job hj
    exact ⟨hi.peers_bounded h job hj, job.nodup, job.synced⟩

theorem Step.inv {e : SchedulerEvent} (hi : Inv RoundArgs.infoHash limits s)
    (h : Step limits s e s') : Inv RoundArgs.infoHash limits s' := by
  cases h with
  | discovered hash peers => exact hi.admitDiscovery hash peers
  | restored hash peers attemptCount => exact hi.admitJobPeers hash peers attemptCount
  | dispatched hd => exact hi.dispatchStep (fun _ => rfl) hd
  | joined hw hash => exact hi.joinWorker hw hash

/-- The dispatch loop is a run of its turns, and it goes on until every slot is taken or nothing is
ready. -/
theorem dispatch_run (limits : SchedulerLimits) (s : Scheduler RoundArgs) :
    (∃ events, Transition.Run (Step limits) s events (s.dispatch limits id)) ∧
      dispatchStep limits id (s.dispatch limits id) = none := by
  have hloop : ∀ fuel (s : Scheduler RoundArgs), s.ready.length < fuel →
      (∃ events, Transition.Run (Step limits) s events (dispatchLoop limits id fuel s)) ∧
        dispatchStep limits id (dispatchLoop limits id fuel s) = none := by
    intro fuel
    induction fuel with
    | zero =>
      intro s h
      omega
    | succ fuel ih =>
      intro s h
      unfold dispatchLoop
      cases hs : dispatchStep limits id s with
      | none => exact ⟨⟨[], .refl s⟩, hs⟩
      | some s' =>
        have hlen := dispatchStep_ready_length hs
        obtain ⟨⟨events, hrun⟩, hdone⟩ := ih s' (by omega)
        exact ⟨⟨_, ((Transition.Run.refl s).snoc (.dispatched hs)).append hrun⟩, hdone⟩
  exact hloop _ s (by omega)

/-- Whatever the order of discoveries, scans, dispatches and outcomes, the
scheduler stays consistent. -/
theorem reachable_consistent
    (h : Transition.Reachable (fun s => s = empty) (Step limits) s) : Consistent limits s := by
  have hi : Inv RoundArgs.infoHash limits s := by
    refine h.invariant ?_ (fun _ _ _ hi hs => Step.inv hi hs)
    rintro _ rfl
    exact Inv.empty
  exact hi.consistent

/-- A discovery is admitted and its worker spawned. -/
theorem reachable_consistent_spawned :
    let limits : SchedulerLimits := ⟨1, 1, 1, 1, by decide, by decide, by decide, by decide⟩
    let peer : PeerContact := ⟨⟨⟨10, 0, 0, 1⟩, 6881⟩⟩
    let s := (empty.admitDiscovery limits 7 [peer]).dispatch limits id
    s.workers.map RoundArgs.infoHash = [7] ∧ Consistent limits s := by
  intro limits peer s
  refine ⟨by decide, reachable_consistent ?_⟩
  have hinit : Transition.Reachable (fun s => s = empty) (Step limits) empty := .of_init rfl
  obtain ⟨⟨events, hrun⟩, -⟩ := dispatch_run limits (empty.admitDiscovery limits 7 [peer])
  exact (hinit.next (.discovered empty 7 [peer])).run hrun

end Scheduler

end Btfind
