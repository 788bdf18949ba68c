import Btfind.Metadata.SystemSteps

/-!
# The scheduler inside the system

The scheduler invariant with rounds as workers. A hash that is being loaded by the
retry scan has no job and no round, since the scan keeps the select loop busy.
-/

namespace Btfind.System

open Transition

variable {env : SystemEnv} {y y' z : System} {e : SystemEvent}

/-- The hashes that the retry scan is loading. -/
def scanned (y : System) : List InfoHash :=
  match y.arm with
  | .scanning todo loaded => (todo ++ loaded.map Prod.fst).map HashJobRecord.infoHash
  | _ => []

structure SchedOk (env : SystemEnv) (y : System) : Prop where
  inv : Scheduler.Inv Round.infoHash env.limits y.sched
  outcomes : ∀ r ∈ y.sched.workers, ∀ outcome, r.phase = .finished outcome →
    outcome.infoHash = r.infoHash
  untracked : ∀ h ∈ y.scanned, y.sched.jobs.lookup h = none

theorem scanned_of_ne {y : System} (h : ∀ todo loaded, y.arm ≠ .scanning todo loaded) :
    y.scanned = [] := by
  unfold scanned
  split
  · next todo loaded harm => exact absurd harm (h todo loaded)
  · rfl

theorem lookUp_arm (d : HashDiscovery) (receipt : Uuid) (y : System)
    (harm : ∀ todo loaded, y.arm ≠ .scanning todo loaded) :
    ∀ todo loaded, (y.lookUp d receipt).arm ≠ .scanning todo loaded := by
  unfold lookUp
  split
  · exact harm
  · nofun
  · nofun

theorem attempt_arm (turn : Turn) (d : HashDiscovery) (receipt : Uuid) (y : System) :
    ∀ todo loaded, (y.attempt env turn d receipt).arm ≠ .scanning todo loaded := by
  unfold attempt
  split <;> nofun

/-- What the scan loads is due and has no job. -/
theorem mem_loadable {now : Int} {record : HashJobRecord} (h : record ∈ y.loadable env now) :
    record ∈ dueHashJobs now env.limits.maxActiveHashJobs y.store.catalogue ∧
      y.sched.jobs.lookup record.infoHash = none := by
  unfold loadable at h
  simp only at h
  split at h
  · cases h
  · obtain ⟨hdue, hfree⟩ := List.mem_filter.mp (List.mem_of_mem_take h)
    exact ⟨hdue, by simpa using hfree⟩

/-- The outcome of a round is about its hash. -/
theorem finished_infoHash {r : Round} {choice : Choice} {s : Store} {outcome : JobOutcome}
    (hold : ∀ outcome, r.phase = .finished outcome → outcome.infoHash = r.infoHash)
    (h : (r.step env.round choice s).1.phase = .finished outcome) :
    outcome.infoHash = (r.step env.round choice s).1.infoHash := by
  have hmoves := Round.step_moves env.round choice r s
  rw [h] at hmoves
  rw [Round.step_infoHash]
  generalize hp : r.phase = phase at hmoves
  cases hmoves with
  | stays => exact hold outcome hp
  | _ => rfl

theorem SchedOk.outcomes_fires (hi : SchedOk env y) (h : Fires env y e z) :
    ∀ r ∈ z.sched.workers, ∀ outcome, r.phase = .finished outcome →
      outcome.infoHash = r.infoHash := by
  intro r hr outcome hphase
  cases h.workers hr with
  | kept hold => exact hi.outcomes r hold outcome hphase
  | spawned => cases hphase
  | stepped hw => exact finished_infoHash (hi.outcomes _ (List.mem_of_getElem? hw)) hphase

theorem work_infoHashes {index : Nat} {r : Round} {choice : Choice}
    (hw : y.sched.workers[index]? = some r) :
    (y.work env index r choice).sched.workers.map Round.infoHash =
      y.sched.workers.map Round.infoHash := by
  obtain ⟨hlt, hget⟩ := List.getElem?_eq_some_iff.mp hw
  unfold work
  simp only [List.map_set, Round.step_infoHash]
  have hbound : index < (y.sched.workers.map Round.infoHash).length := by simpa using hlt
  have hkept : (y.sched.workers.map Round.infoHash)[index] = r.infoHash := by
    rw [List.getElem_map, hget]
  rw [← hkept, List.set_getElem_self]

theorem SchedOk.inv_fires (hi : SchedOk env y) (h : Fires env y e z) :
    Scheduler.Inv Round.infoHash env.limits z.sched := by
  cases h with
  | attempted =>
    rw [attempt_sched]
    exact hi.inv
  | lookedUp =>
    rw [lookUp_sched]
    exact hi.inv
  | admitted => exact hi.inv.admitDiscovery _ _
  | @scanAdmitted loaded harm =>
    exact List.foldlRecOn (motive := Scheduler.Inv Round.infoHash env.limits) loaded _ hi.inv
      fun _ hs l _ => hs.admitJobPeers _ _ _
  | dispatched harm hd =>
    have hspawn : ∀ args, Round.infoHash (Round.spawn args) = args.infoHash := fun _ => rfl
    exact hi.inv.dispatchStep hspawn hd
  | worked choice hw => exact hi.inv.of_workers_map (work_infoHashes hw)
  | joined harm hw hphase =>
    exact hi.inv.joinWorker hw (hi.outcomes _ (List.mem_of_getElem? hw) _ hphase).symm
  | restarted =>
    have hempty : Scheduler.Inv Round.infoHash env.limits (Scheduler.empty : Scheduler Round) :=
      .empty
    exact ⟨hempty.ready_nodup, hempty.readySet_eq, hempty.ready_idle, hempty.tracked,
      hempty.worker_running, hempty.workers_nodup, hempty.jobs_bounded, hempty.workers_bounded,
      hempty.peers_bounded⟩
  | _ => exact hi.inv

/-- What the arm of the select loop can do to the jobs: nothing while it scans. -/
theorem SchedOk.untracked_fires (hi : SchedOk env y) (h : Fires env y e z) :
    ∀ k ∈ z.scanned, z.sched.jobs.lookup k = none := by
  cases h with
  | discovered =>
    rintro k ⟨⟩
  | lookedUp harm =>
    intro k hk
    rw [scanned_of_ne (lookUp_arm _ _ y (by simp [harm]))] at hk
    cases hk
  | attempted =>
    intro k hk
    rw [scanned_of_ne (attempt_arm _ _ _ y)] at hk
    cases hk
  | removed => rintro k ⟨⟩
  | admitted => rintro k ⟨⟩
  | @scanStarted turn harm =>
    intro k hk
    -- The scan loads hashes that have no job.
    cases hread : Round.readError turn.fate with
    | some _ =>
      rw [hread] at hk
      cases hk
    | none =>
      simp only [scanned, hread, List.map_nil, List.append_nil, List.mem_map] at hk
      obtain ⟨record, hrecord, rfl⟩ := hk
      exact (mem_loadable hrecord).2
  | @scanRead record todo loaded turn harm =>
    intro k hk
    cases hread : Round.readError turn.fate with
    | some _ =>
      rw [hread] at hk
      cases hk
    | none =>
      refine hi.untracked k ?_
      simp only [scanned, hread, harm] at hk ⊢
      simp only [List.map_append, List.map_cons, List.map_nil, List.mem_append, List.mem_cons,
        List.not_mem_nil, or_false] at hk ⊢
      tauto
  | scanAdmitted => rintro k ⟨⟩
  | dispatched harm =>
    intro k hk
    rw [scanned_of_ne (by simp [harm])] at hk
    cases hk
  | joined harm =>
    intro k hk
    rw [scanned_of_ne (by simp [harm])] at hk
    cases hk
  | restarted => rintro k ⟨⟩
  | _ => exact hi.untracked

theorem SchedOk.fires (hi : SchedOk env y) (h : Fires env y e z) : SchedOk env z :=
  ⟨hi.inv_fires h, hi.outcomes_fires h, hi.untracked_fires h⟩

/-- A hash has one round. -/
theorem SchedOk.unique (hi : SchedOk env y) {r r' : Round} (hr : r ∈ y.sched.workers)
    (hr' : r' ∈ y.sched.workers) (hhash : r.infoHash = r'.infoHash) : r = r' :=
  List.inj_on_of_nodup_map hi.inv.workers_nodup hr hr' hhash

/-- The hash of a round has a running job. -/
theorem SchedOk.worker_job (hi : SchedOk env y) {r : Round} (hr : r ∈ y.sched.workers) :
    ∃ job, y.sched.jobs.lookup r.infoHash = some job ∧ job.running = true :=
  hi.inv.worker_running _ (List.mem_map_of_mem hr)

/-- After a round takes a step, it is the round of its hash. -/
theorem SchedOk.stepped_eq (hi : SchedOk env y) {index : Nat} {choice : Choice} {r r' : Round}
    (h : Fires env y (.worked index choice) z) (hw : y.sched.workers[index]? = some r)
    (hr' : r' ∈ z.sched.workers) (hhash : r'.infoHash = r.infoHash) :
    r' = (r.step env.round choice y.store).1 := by
  have hz := hi.fires h
  cases h with
  | worked _ hw' =>
    rw [hw] at hw'
    cases hw'
    obtain ⟨hlt, -⟩ := List.getElem?_eq_some_iff.mp hw
    exact hz.unique hr' (List.mem_set hlt _) (by rw [Round.step_infoHash, hhash])

theorem SchedOk.clock (hi : SchedOk env z) (now : Int) : SchedOk env { z with clock := now } :=
  ⟨hi.inv, hi.outcomes, hi.untracked⟩

theorem SchedOk.starts (h : Starts y) : SchedOk env y where
  inv := by
    rw [h.sched]
    exact .empty
  outcomes := by
    rw [h.sched]
    rintro r ⟨⟩
  untracked := by
    rw [scanned, h.arm]
    rintro k ⟨⟩

/-- The number of spawned rounds only grows. -/
theorem Fires.spawned_le (h : Fires env y e z) : y.sched.spawned ≤ z.sched.spawned := by
  cases h with
  | attempted => rw [attempt_sched]
  | lookedUp => rw [lookUp_sched]
  | admitted => rw [Scheduler.admitDiscovery_spawned]
  | @scanAdmitted loaded =>
    refine List.foldlRecOn (motive := fun s : Scheduler Round =>
      y.sched.spawned ≤ s.spawned) loaded _ (le_refl _) ?_
    intro s hs l _
    rwa [admitLoaded, Scheduler.admitJobPeers_spawned]
  | dispatched harm hd =>
    obtain ⟨-, hash, ready, -, ⟨rfl, -⟩ | ⟨job, -, -, ⟨rfl, -⟩ | rfl⟩⟩ :=
      Scheduler.dispatchStep_cases hd
    · exact le_refl _
    · exact le_refl _
    · exact Nat.le_succ _
  | joined => rw [Scheduler.joinWorker_spawned]
  | _ => exact le_refl _

/-- The rounds in flight are numbered among the spawned ones. -/
theorem Fires.tasks (h : Fires env y e z)
    (hi : ∀ r ∈ y.sched.workers, r.args.task < y.sched.spawned) :
    ∀ r ∈ z.sched.workers, r.args.task < z.sched.spawned := by
  intro r hr
  have hle := h.spawned_le
  cases h.workers hr with
  | kept hkept => exact (hi r hkept).trans_le hle
  | stepped hw =>
    rw [Round.step_args]
    exact (hi _ (List.mem_of_getElem? hw)).trans_le hle
  | spawned hready hjob =>
    cases h with
    | dispatched harm hd =>
      obtain ⟨-, hash, ready, -, ⟨rfl, -⟩ | ⟨job, -, -, ⟨rfl, -⟩ | rfl⟩⟩ :=
        Scheduler.dispatchStep_cases hd
      · exact hi _ hr
      · exact hi _ hr
      · exact Nat.lt_succ_self _

end Btfind.System
