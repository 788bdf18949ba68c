import Btfind.Metadata.SchedulerRuns

/-!
# Workers that die

`join_next` reports a worker that panicked or was aborted as a join error, without an outcome,
and the scheduler only logs it. To the other collections a dead worker is thus one that never
ends, and the invariant of the scheduler holds of the scheduler in which it still runs.
-/

namespace Btfind

/-- The limits of a scheduler with more slots for workers. -/
def SchedulerLimits.withSlots (limits : SchedulerLimits) (extra : Nat) : SchedulerLimits :=
  { limits with
    maxConcurrent := limits.maxConcurrent + extra
    maxConcurrent_pos := Nat.le_add_right_of_le limits.maxConcurrent_pos }

inductive MortalEvent
  | lived (event : SchedulerEvent)
  | died (index : Nat)

namespace Scheduler

variable {ω : Type}

/-- The `Some(Err(error))` branch: the worker is gone, and the collections stay as they are. -/
def joinError (index : Nat) (s : Scheduler ω) : Scheduler ω :=
  { s with workers := s.workers.eraseIdx index }

/-- The steps of the scheduler, and the death of any worker at any time. -/
inductive MortalStep (limits : SchedulerLimits) :
    Scheduler RoundArgs → MortalEvent → Scheduler RoundArgs → Prop
  | lived {s s' : Scheduler RoundArgs} {event : SchedulerEvent} (h : Step limits s event s') :
      MortalStep limits s (.lived event) s'
  | died {s : Scheduler RoundArgs} {index : Nat} {args : RoundArgs}
      (hw : s.workers[index]? = some args) :
      MortalStep limits s (.died index) (s.joinError index)

/-- The scheduler with other workers in flight. -/
def withWorkers (workers : List ω) (s : Scheduler ω) : Scheduler ω := { s with workers := workers }

theorem admitJobPeers_withWorkers (limits : SchedulerLimits) (extra : Nat) (h : InfoHash)
    (peers : List PeerContact) (attemptCount : Nat) (workers : List ω) (s : Scheduler ω) :
    (s.withWorkers workers).admitJobPeers (limits.withSlots extra) h peers attemptCount =
      ((s.admitJobPeers limits h peers attemptCount).1.withWorkers workers,
        (s.admitJobPeers limits h peers attemptCount).2) := by
  unfold admitJobPeers enqueue withWorkers SchedulerLimits.withSlots
  cases s.jobs.lookup h with
  | some job =>
    simp only
    split_ifs <;> rfl
  | none =>
    simp only
    split_ifs <;> rfl

theorem admitDiscovery_withWorkers (limits : SchedulerLimits) (extra : Nat) (h : InfoHash)
    (peers : List PeerContact) (workers : List ω) (s : Scheduler ω) :
    (s.withWorkers workers).admitDiscovery (limits.withSlots extra) h peers =
      (s.admitDiscovery limits h peers).withWorkers workers := by
  unfold admitDiscovery
  rw [admitJobPeers_withWorkers]
  show prioritizeReadyJob h _ _ = _
  unfold prioritizeReadyJob
  by_cases hp : (s.admitJobPeers limits h peers 0).2 = .accepted ∧
      h ∈ (s.admitJobPeers limits h peers 0).1.readySet
  · rw [if_pos hp]
    exact if_pos hp
  · rw [if_neg hp]
    exact if_neg hp

theorem applyJobOutcome_withWorkers (outcome : JobOutcome) (workers : List ω) (s : Scheduler ω) :
    (s.withWorkers workers).applyJobOutcome outcome =
      (s.applyJobOutcome outcome).withWorkers workers := by
  unfold applyJobOutcome enqueue withWorkers
  cases s.jobs.lookup outcome.infoHash with
  | some job =>
    simp only
    split_ifs <;> rfl
  | none =>
    simp only
    split_ifs <;> rfl

/-! ## The scheduler in which the dead still run -/

/-- Only the hashes of the workers matter to the invariant, and not their order. -/
theorem Inv.of_workers_perm {hashOf : ω → InfoHash} {limits : SchedulerLimits} {s : Scheduler ω}
    (hi : Inv hashOf limits s) {workers : List ω} (extra : Nat) (hperm : workers.Perm s.workers) :
    Inv hashOf (limits.withSlots extra) (s.withWorkers workers) := by
  have hmem : ∀ h, h ∈ workers.map hashOf ↔ h ∈ s.workers.map hashOf :=
    fun h => (hperm.map hashOf).mem_iff
  constructor
  case ready_nodup => exact hi.ready_nodup
  case readySet_eq => exact hi.readySet_eq
  case ready_idle => exact hi.ready_idle
  case tracked =>
    intro h job hj
    exact (hi.tracked h job hj).imp id fun ⟨hrun, hw⟩ => ⟨hrun, (hmem h).mpr hw⟩
  case worker_running => exact fun h hw => hi.worker_running h ((hmem h).mp hw)
  case workers_nodup => exact (hperm.map hashOf).nodup_iff.mpr hi.workers_nodup
  case jobs_bounded => exact hi.jobs_bounded
  case workers_bounded =>
    show workers.length ≤ limits.maxConcurrent + extra
    rw [hperm.length_eq]
    exact Nat.le_add_right_of_le hi.workers_bounded
  case peers_bounded => exact hi.peers_bounded

/-- The invariant holds of the scheduler with the dead workers among its workers, each in a slot
of its own. -/
def Haunted (limits : SchedulerLimits) (dead : List RoundArgs) (s : Scheduler RoundArgs) : Prop :=
  Inv RoundArgs.infoHash (limits.withSlots dead.length) (s.withWorkers (s.workers ++ dead))

variable {limits : SchedulerLimits} {dead : List RoundArgs} {s s' : Scheduler RoundArgs}

/-- A turn of the dispatch loop is one with the dead workers too: they take slots of their own. -/
theorem dispatchStep_haunted (dead : List RoundArgs) (h : dispatchStep limits id s = some s') :
    ∃ t, dispatchStep (limits.withSlots dead.length) id (s.withWorkers (s.workers ++ dead)) =
        some t ∧
      s'.withWorkers (s'.workers ++ dead) = t.withWorkers (s'.workers ++ dead) ∧
      (s'.workers ++ dead).Perm t.workers := by
  obtain ⟨hroom, -⟩ := dispatchStep_cases h
  have hfree : ¬ (limits.withSlots dead.length).maxConcurrent ≤ (s.workers ++ dead).length := by
    show ¬ limits.maxConcurrent + dead.length ≤ (s.workers ++ dead).length
    rw [List.length_append]
    omega
  unfold dispatchStep at h ⊢
  rw [if_neg (by omega)] at h
  rw [if_neg (by exact hfree)]
  have hready : (s.withWorkers (s.workers ++ dead)).ready = s.ready := rfl
  rw [hready]
  cases hr : s.ready with
  | nil =>
    rw [hr] at h
    cases h
  | cons hash ready =>
    rw [hr] at h
    have hjobs : (s.withWorkers (s.workers ++ dead)).jobs.lookup hash = s.jobs.lookup hash := rfl
    simp only [hjobs] at h ⊢
    cases hj : s.jobs.lookup hash with
    | none =>
      rw [hj] at h
      cases h
      exact ⟨_, rfl, rfl, .refl _⟩
    | some job =>
      rw [hj] at h
      simp only at h ⊢
      by_cases hrun : job.running = true
      · rw [if_pos hrun] at h ⊢
        cases h
        exact ⟨_, rfl, rfl, .refl _⟩
      · rw [if_neg hrun] at h ⊢
        by_cases hempty : (job.takeRound limits.maxPeerAttemptsPerRound).1.isEmpty = true
        · rw [if_pos hempty] at h
          cases h
          exact ⟨_, if_pos hempty, rfl, .refl _⟩
        · rw [if_neg hempty] at h
          cases h
          refine ⟨_, if_neg hempty, rfl, ?_⟩
          -- The new worker stands before the dead workers here and behind them there.
          show (s.workers ++ [_] ++ dead).Perm (s.workers ++ dead ++ [_])
          rw [List.append_assoc, List.append_assoc]
          exact List.perm_append_comm.append_left s.workers

theorem Haunted.step {event : SchedulerEvent} (hd : Haunted limits dead s)
    (h : Step limits s event s') : Haunted limits dead s' := by
  cases h with
  | discovered hash peers =>
    have hi := Inv.admitDiscovery hd hash peers
    rw [admitDiscovery_withWorkers] at hi
    show Inv _ _ _
    rw [admitDiscovery_workers]
    exact hi
  | restored hash peers attemptCount =>
    have hi := Inv.admitJobPeers hd hash peers attemptCount
    rw [admitJobPeers_withWorkers] at hi
    show Inv _ _ _
    rw [admitJobPeers_workers]
    exact hi
  | dispatched h =>
    obtain ⟨t, ht, hsame, hperm⟩ := dispatchStep_haunted dead h
    have hi := (Inv.dispatchStep (fun _ => rfl) hd ht).of_workers_perm 0 hperm
    rw [← hsame] at hi
    exact hi
  | @joined index args outcome hw hash =>
    have hlt : index < s.workers.length := (List.getElem?_eq_some_iff.mp hw).1
    have hfound : (s.workers ++ dead)[index]? = some args := by
      rw [List.getElem?_append_left hlt]
      exact hw
    have hi := Inv.joinWorker hd hfound hash
    have herase : (s.workers ++ dead).eraseIdx index = s.workers.eraseIdx index ++ dead :=
      List.eraseIdx_append_of_lt_length hlt dead
    have hjoin : (s.withWorkers (s.workers ++ dead)).joinWorker index outcome =
        (s.joinWorker index outcome).withWorkers (s.workers.eraseIdx index ++ dead) := by
      show (s.withWorkers ((s.workers ++ dead).eraseIdx index)).applyJobOutcome outcome =
        ((s.withWorkers (s.workers.eraseIdx index)).applyJobOutcome outcome).withWorkers _
      rw [herase, applyJobOutcome_withWorkers, applyJobOutcome_withWorkers]
      rfl
    rw [hjoin] at hi
    show Inv _ _ _
    rw [joinWorker_workers]
    exact hi

/-- A worker that dies joins the dead. -/
theorem Haunted.joinError (hd : Haunted limits dead s) {index : Nat} {args : RoundArgs}
    (hw : s.workers[index]? = some args) : Haunted limits (args :: dead) (s.joinError index) := by
  obtain ⟨hlt, hget⟩ := List.getElem?_eq_some_iff.mp hw
  have hperm : (s.workers.eraseIdx index ++ args :: dead).Perm (s.workers ++ dead) := by
    rw [← hget]
    exact List.perm_middle.trans ((List.getElem_cons_eraseIdx_perm hlt).append_right dead)
  exact hd.of_workers_perm 1 hperm

theorem MortalStep.haunted {event : MortalEvent} (hd : Haunted limits dead s)
    (h : MortalStep limits s event s') :
    ∃ dead', dead ⊆ dead' ∧ Haunted limits dead' s' := by
  cases h with
  | lived h => exact ⟨dead, List.Subset.refl _, hd.step h⟩
  | @died index args hw => exact ⟨args :: dead, List.subset_cons_self _ _, hd.joinError hw⟩

theorem run_haunted {events : List MortalEvent} (hd : Haunted limits dead s)
    (h : Transition.Run (MortalStep limits) s events s') :
    ∃ dead', dead ⊆ dead' ∧ Haunted limits dead' s' := by
  refine h.invariant (I := fun t => ∃ dead', dead ⊆ dead' ∧ Haunted limits dead' t) ?_
    ⟨dead, List.Subset.refl _, hd⟩
  rintro t event u ⟨dead', hsub, ht⟩ hstep
  obtain ⟨dead'', hsub', hu⟩ := hstep.haunted ht
  exact ⟨dead'', List.Subset.trans hsub hsub', hu⟩

theorem reachable_haunted
    (h : Transition.Reachable (fun s => s = empty) (MortalStep limits) s) :
    ∃ dead, Haunted limits dead s := by
  obtain ⟨-, events, rfl, hrun⟩ := h
  have hempty : Haunted limits [] empty := Inv.empty
  obtain ⟨dead, -, hd⟩ := run_haunted hempty hrun
  exact ⟨dead, hd⟩

/-! ## The job of a dead worker -/

/-- Nothing tracks the hash, or a worker for it can start: its job is idle or ready. -/
def Recovered (s : Scheduler ω) (h : InfoHash) : Prop :=
  ∀ job, s.jobs.lookup h = some job → job.running = false ∨ h ∈ s.ready

/-- The job of a hash is running without a worker and keeps its slot among the jobs. -/
structure Stranded (s : Scheduler RoundArgs) (h : InfoHash) : Prop where
  running : ∃ job, s.jobs.lookup h = some job ∧ job.running = true
  not_ready : h ∉ s.ready
  no_worker : ∀ args ∈ s.workers, args.infoHash ≠ h

theorem Stranded.not_recovered {h : InfoHash} (hs : Stranded s h) : ¬ Recovered s h := by
  intro hr
  obtain ⟨job, hj, hrun⟩ := hs.running
  rcases hr job hj with hidle | hready
  · rw [hrun] at hidle
    cases hidle
  · exact hs.not_ready hready

/-- The job of a dead worker is stranded: it keeps the flag of a running worker. -/
theorem Haunted.stranded (hd : Haunted limits dead s) {args : RoundArgs} (ha : args ∈ dead) :
    Stranded s args.infoHash := by
  have hworker : args.infoHash ∈ (s.workers ++ dead).map RoundArgs.infoHash :=
    List.mem_map_of_mem (List.mem_append_right _ ha)
  obtain ⟨job, hj, hrun⟩ := hd.worker_running _ hworker
  refine ⟨⟨job, hj, hrun⟩, hd.not_ready_of_running hj hrun, ?_⟩
  intro living hl hsame
  have hnodup : ((s.workers ++ dead).map RoundArgs.infoHash).Nodup := hd.workers_nodup
  rw [List.map_append, List.nodup_append] at hnodup
  exact hnodup.2.2 _ (List.mem_map_of_mem hl) _ (List.mem_map_of_mem ha) hsame

/-- Whatever happens before and after the death of a worker, its job is never schedulable
again: neither discoveries nor retry scans nor the deaths of other workers free it. -/
theorem dead_worker_strands
    (hs : Transition.Reachable (fun s => s = empty) (MortalStep limits) s) {index : Nat}
    {args : RoundArgs} (hw : s.workers[index]? = some args) {events : List MortalEvent}
    {t : Scheduler RoundArgs}
    (ht : Transition.Run (MortalStep limits) (s.joinError index) events t) :
    ¬ Recovered t args.infoHash ∧ Stranded t args.infoHash := by
  obtain ⟨dead, hd⟩ := reachable_haunted hs
  obtain ⟨dead', hsub, hd'⟩ := run_haunted (hd.joinError hw) ht
  have hstranded := hd'.stranded (hsub List.mem_cons_self)
  exact ⟨hstranded.not_recovered, hstranded⟩

/-- The one worker dies, and its job takes the only slot for ever. -/
theorem dead_worker_strands_slot :
    let limits : SchedulerLimits := ⟨1, 1, 1, 1, by decide, by decide, by decide, by decide⟩
    let peer : PeerContact := ⟨⟨⟨10, 0, 0, 1⟩, 6881⟩⟩
    let s := (empty.admitDiscovery limits 7 [peer]).dispatch limits id
    s.workers.map RoundArgs.infoHash = [7] ∧ Stranded (s.joinError 0) 7 ∧
      ((s.joinError 0).admitJobPeers limits 8 [peer] 0).2 = .atCapacity := by
  intro limits peer s
  have hstep : dispatchStep limits id (empty.admitDiscovery limits 7 [peer]) = some s := rfl
  have hinit : Transition.Reachable (fun s => s = empty) (MortalStep limits) empty := .of_init rfl
  have hs := (hinit.next (.lived (.discovered empty 7 [peer]))).next (.lived (.dispatched hstep))
  have hw : s.workers[0]? = some ⟨0, 7, [peer], 0⟩ := rfl
  exact ⟨rfl, (dead_worker_strands hs hw (.refl _)).2, rfl⟩

/-- A worker whose job is not schedulable after its death. -/
theorem not_every_dead_worker_recovers :
    ¬ ∀ (limits : SchedulerLimits) (s : Scheduler RoundArgs),
      Transition.Reachable (fun s => s = empty) (MortalStep limits) s →
      ∀ index args, s.workers[index]? = some args → Recovered (s.joinError index) args.infoHash := by
  intro hclaim
  let limits : SchedulerLimits := ⟨1, 1, 1, 1, by decide, by decide, by decide, by decide⟩
  let peer : PeerContact := ⟨⟨⟨10, 0, 0, 1⟩, 6881⟩⟩
  let s := (empty.admitDiscovery limits 7 [peer]).dispatch limits id
  have hstep : dispatchStep limits id (empty.admitDiscovery limits 7 [peer]) = some s := rfl
  have hinit : Transition.Reachable (fun s => s = empty) (MortalStep limits) empty := .of_init rfl
  have hs := (hinit.next (.lived (.discovered empty 7 [peer]))).next (.lived (.dispatched hstep))
  have hw : s.workers[0]? = some ⟨0, 7, [peer], 0⟩ := rfl
  have hflag : ((s.joinError 0).jobs.lookup 7).map HashJob.running = some true := rfl
  obtain ⟨job, hj, hrun⟩ := Option.map_eq_some_iff.mp hflag
  rcases hclaim limits s hs 0 _ hw job hj with hidle | hready
  · rw [hrun] at hidle
    cases hidle
  · have hnone : (s.joinError 0).ready = [] := rfl
    rw [hnone] at hready
    cases hready

end Scheduler

end Btfind
