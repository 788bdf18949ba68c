import Btfind.Metadata.Integrity
import Btfind.Metadata.SystemInvariant
import Btfind.Store.JobRows

/-!
# Terminal and waiting jobs

A round checks the status of its job once, at its start, and writes a status at
its end. That this is enough rests on two facts about all interleavings: the round
of a job that is invalid or unsupported has nothing left to do, and a waiting job
is out of the hands of the scheduler.
-/

namespace Btfind

def PersistPhase.hasResult : PersistPhase → Bool
  | .cleaning _ | .returned _ => true
  | _ => false

/-- The phases in which a round fetches nothing and writes no open status. -/
def RoundPhase.settled : RoundPhase → Bool
  | .checkTerminal | .markUnsupported _ | .finished _ => true
  | _ => false

/-- A complete torrent has a complete job, so that of an open job is not complete. -/
theorem CompletedOk.incomplete {u : Unicode} {allowed : InfoHash → TorrentMetadata → Prop}
    {c : Catalogue} {h : InfoHash} (hc : CompletedOk u allowed c h)
    (hopen : hashJobIsTerminal h c = false) :
    (c.torrents.lookup h).map TorrentRow.metadataComplete ≠ some true := by
  intro hdone
  obtain ⟨row, hrow, hcomplete⟩ := Option.map_eq_some_iff.mp hdone
  have hjob := hc.agree
  rw [completedRow_isSome.mpr ⟨row, hrow, hcomplete⟩] at hjob
  obtain ⟨job, hl, hstatus⟩ := jobComplete_iff.mp hjob.symm
  have hterminal : hashJobIsTerminal h c = true :=
    hashJobIsTerminal_iff.mpr ⟨_, by rw [jobStatus, hl]; rfl, by rw [hstatus]; rfl⟩
  rw [hopen] at hterminal
  cases hterminal

namespace System

open Transaction Transition

variable {env : SystemEnv} {y y' z : System} {e : SystemEvent} {k : InfoHash} {c : Catalogue}

/-- The discovery of the arm has been committed: the request has its result, or
the receipt is stored. -/
def Persisted (y : System) (d : HashDiscovery) : Prop :=
  ∃ receipt phase, y.arm = .persisting d receipt phase ∧ (phase.hasResult = true ∨
    (y.store.persistenceReceipts.lookup receipt).isSome = true)

/-- The scheduler will do nothing about a hash, once its round is joined. -/
structure Parked (y : System) (k : InfoHash) : Prop where
  workers : ∀ r ∈ y.sched.workers, r.infoHash = k →
    ∃ outcome, r.phase = .finished outcome ∧ outcome.parked = true
  running : ∀ job, y.sched.jobs.lookup k = some job → job.running = true
  unscanned : k ∉ y.scanned
  admitting : ∀ d, y.Persisted d → d.infoHash = k → d.peers ≠ [] →
    (y.sched.jobs.lookup k).isSome = true

structure JobsOk (env : SystemEnv) (y : System) : Prop where
  sched : SchedOk env y
  closed : ∀ k s, jobStatus k y.store.catalogue = some s → s = .invalid ∨ s = .unsupported →
    ∀ r ∈ y.sched.workers, r.infoHash = k → r.phase.settled = true
  parked : ∀ k, jobStatus k y.store.catalogue = some .waitingPeers → y.Parked k

/-! ## Statuses -/

/-- A status of a round's result is written by the round of the hash. -/
theorem Changes.roundResult {s : JobStatus} (hc : Changes env y e c)
    (hs : s.isRoundResult = true) (hstatus : jobStatus k c = some s) :
    jobStatus k y.store.catalogue = some s ∨
      ∃ index r choice, e = .worked index choice ∧ y.sched.workers[index]? = some r ∧
        r.infoHash = k ∧ r.phase.writes = some s := by
  cases hc with
  | kept => exact Or.inl hstatus
  | recorded =>
    rw [jobStatus_recordDiscovery] at hstatus
    exact Or.inl (discover_roundResult hs hstatus)
  | batched => exact Or.inl (batch_roundResult hs hstatus)
  | @worked index r choice _ hw hwrites =>
    cases hwrites with
    | attempt => exact Or.inl hstatus
    | commit hphase hcommit =>
      obtain ⟨old, hcommitted⟩ := commitMetadataTx_ok hcommit
      rw [hcommitted.jobStatus] at hstatus
      split at hstatus
      · cases hstatus
        cases hs
      · exact Or.inl hstatus
    | update hphase heffect hupdate =>
      rw [jobStatus_update hupdate] at hstatus
      split at hstatus
      · next hk =>
        cases hstatus
        exact Or.inr ⟨index, r, choice, rfl, hw, hk.1.symm, hphase⟩
      · exact Or.inl hstatus
  | prunedTorrents =>
    rw [jobStatus_pruneBatch] at hstatus
    split at hstatus
    · cases hstatus
    · exact Or.inl hstatus
  | prunedAttempts => exact Or.inl hstatus
  | reconciled => exact Or.inl hstatus

/-- A settled round of a terminal job stays settled. -/
theorem settled_step {r : Round} {choice : Choice} {s : Store} (hsettled : r.phase.settled = true)
    (hterminal : hashJobIsTerminal r.infoHash s.catalogue = true) :
    (r.step env.round choice s).1.phase.settled = true := by
  have hmoves := Round.step_moves env.round choice r s
  generalize hp : r.phase = phase at hmoves hsettled
  generalize (r.step env.round choice s).1.phase = next at hmoves
  cases hmoves with
  | admitted hopen =>
    rw [Round.infoHash, hopen] at hterminal
    cases hterminal
  | recheck | alreadyTerminal | remark | marked | stays => rfl
  | _ => cases hsettled

/-- A round that writes `invalid` or `unsupported` is settled. -/
theorem settled_of_writes {r : Round} {choice : Choice} {s : Store} {status : JobStatus}
    (hwrites : r.phase.writes = some status) (hs : status = .invalid ∨ status = .unsupported) :
    (r.step env.round choice s).1.phase.settled = true := by
  have hmoves := Round.step_moves env.round choice r s
  generalize hp : r.phase = phase at hmoves hwrites
  generalize (r.step env.round choice s).1.phase = next at hmoves
  cases hmoves with
  | remark | marked | markedTerminal => rfl
  | parkedJob | scheduledJob =>
    cases hwrites
    rcases hs with hs | hs <;> cases hs
  | stays => rfl
  | _ => cases hwrites

theorem JobsOk.closed_fires (hi : JobsOk env y) (h : Fires env y e z) :
    ∀ k s, jobStatus k z.store.catalogue = some s → s = .invalid ∨ s = .unsupported →
      ∀ r ∈ z.sched.workers, r.infoHash = k → r.phase.settled = true := by
  intro k s hstatus hs r hr hk
  have hresult : s.isRoundResult = true := by rcases hs with rfl | rfl <;> rfl
  have hterminal : s.isTerminal = true := by rcases hs with rfl | rfl <;> rfl
  obtain hold | ⟨index, r₀, choice, rfl, hw, hhash, hwrites⟩ :=
    h.changes.roundResult hresult hstatus
  · cases h.workers hr with
    | kept hkept => exact hi.closed k s hold hs r hkept hk
    | spawned => rfl
    | @stepped index r₀ choice hw =>
      rw [Round.step_infoHash] at hk
      refine settled_step (hi.closed k s hold hs r₀ (List.mem_of_getElem? hw) hk) ?_
      rw [hk, hashJobIsTerminal_iff]
      exact ⟨s, hold, hterminal⟩
  · rw [hi.sched.stepped_eq h hw hr (hk.trans hhash.symm)]
    exact settled_of_writes hwrites hs

/-! ## Waiting jobs -/

theorem attempt_arm_discovery {d d' : HashDiscovery} {turn : Turn} {receipt own : Uuid}
    {phase : PersistPhase}
    (harm : (y.attempt env turn d' receipt).arm = .persisting d own phase) : d = d' := by
  unfold attempt at harm
  split at harm <;> cases harm <;> rfl

theorem lookUp_persisted {d d' : HashDiscovery} {receipt own : Uuid} {phase : PersistPhase}
    (hready : y.arm = .persisting d receipt .ready)
    (harm : (y.lookUp d receipt).arm = .persisting d' own phase)
    (hdone : phase.hasResult = true ∨
      ((y.lookUp d receipt).store.persistenceReceipts.lookup own).isSome = true) :
    d' = d ∧ own = receipt ∧
      (y.store.persistenceReceipts.lookup receipt).isSome = true := by
  rw [lookUp_store] at hdone
  unfold lookUp at harm
  split at harm
  · rw [hready] at harm
    cases harm
    exact ⟨rfl, rfl, hdone.resolve_left Bool.false_ne_true⟩
  · next persisted hfound =>
    cases harm
    refine ⟨rfl, rfl, ?_⟩
    unfold replayedDiscovery at hfound
    split at hfound
    · cases hfound
    · next row hrow => simp [hrow]
  · cases harm
    exact ⟨rfl, rfl, hdone.resolve_left Bool.false_ne_true⟩

/-- A discovery becomes persisted by the commit of its transaction. -/
theorem Fires.persisted {d : HashDiscovery} (h : Fires env y e z) (hp : z.Persisted d) :
    y.Persisted d ∨ ∃ turn, e = .attempted turn ∧
      z.store.catalogue = (recordDiscovery turn.now d.infoHash d.source.asStr d.peers
        env.limits.maxPeersPerHash y.store.catalogue).2 := by
  obtain ⟨own, phase, harm, hdone⟩ := hp
  cases h with
  | discovered _ _ fresh =>
    cases harm
    rw [fresh] at hdone
    obtain hp | hp := hdone <;> cases hp
  | lookupFailed => exact Or.inl ⟨own, phase, harm, hdone⟩
  | @lookedUp d receipt hready =>
    obtain ⟨rfl, rfl, hrow⟩ := lookUp_persisted hready harm hdone
    exact Or.inl ⟨_, _, hready, Or.inr hrow⟩
  | @attempted d' receipt turn hlooked =>
    cases hrow : y.store.persistenceReceipts.lookup receipt with
    | some row =>
      have hown : d = d' := attempt_arm_discovery harm
      exact Or.inl ⟨receipt, _, hown ▸ hlooked, Or.inr (by rw [hrow]; rfl)⟩
    | none =>
      let req := PersistRequest.ofDiscovery env.limits d' receipt
      have hbody := PersistTask.tx_of_free (show y.store.persistenceReceipts.lookup req.receipt =
        none from hrow) turn.now
      obtain ⟨e, he⟩ | ⟨a, s', hb, hr⟩ := transact_cases turn.fate (req.tx turn.now) y.store
      · -- the transaction was rolled back
        simp only [attempt, req, he] at harm hdone
        cases harm
        rw [hrow] at hdone
        obtain hp | hp := hdone <;> cases hp
      · rw [hbody] at hb
        cases hb
        have hown : d = d' := attempt_arm_discovery harm
        refine Or.inr ⟨turn, rfl, ?_⟩
        rw [attempt_store, hown]
        obtain hr | ⟨e, hr⟩ := hr <;> rw [hr] <;> rfl
  | @removed d' receipt persisted _ hcleaning =>
    cases harm
    exact Or.inl ⟨own, _, hcleaning, Or.inl rfl⟩
  | admitted => cases harm
  | scanStarted _ hidle =>
    simp only at harm
    split at harm <;> cases harm
  | scanRead =>
    simp only at harm
    split at harm <;> cases harm
  | scanAdmitted => cases harm
  | dispatched => exact Or.inl ⟨own, phase, harm, hdone⟩
  | worked =>
    rw [work_receipts] at hdone
    exact Or.inl ⟨own, phase, harm, hdone⟩
  | joined => exact Or.inl ⟨own, phase, harm, hdone⟩
  | batched _ _ _ hother =>
    simp only at hdone
    rw [batch_receipts (hother d own phase harm)] at hdone
    exact Or.inl ⟨own, phase, harm, hdone⟩
  | prunedTorrents =>
    simp only [transact_receipts] at hdone
    exact Or.inl ⟨own, phase, harm, hdone⟩
  | prunedAttempts => exact Or.inl ⟨own, phase, harm, hdone⟩
  | reconciled =>
    simp only [reconcile, transact_receipts] at hdone
    exact Or.inl ⟨own, phase, harm, hdone⟩
  | receiptsChanged _ hother =>
    refine Or.inl ⟨own, phase, harm, hdone.imp id ?_⟩
    intro hrow
    obtain hnone | hsame := hother d own phase harm
    · simp only [hnone] at hrow
      cases hrow
    · rwa [← hsame]
  | restarted => cases harm

/-- The jobs do not change while a discovery is being persisted. -/
theorem Fires.jobs_of_persisting {d : HashDiscovery} {receipt : Uuid} {phase : PersistPhase}
    (h : Fires env y e z) (harm : z.arm = .persisting d receipt phase) :
    z.sched.jobs = y.sched.jobs := by
  cases h with
  | lookedUp => rw [lookUp_sched]
  | attempted => rw [attempt_sched]
  | admitted => cases harm
  | scanAdmitted => cases harm
  | dispatched hidle =>
    rw [hidle] at harm
    cases harm
  | joined hidle =>
    rw [hidle] at harm
    cases harm
  | restarted => cases harm
  | _ => rfl

/-- Nothing starts an idle job for a hash that is parked. -/
theorem JobsOk.running_fires (hi : JobsOk env y) (h : Fires env y e z) (hp : y.Parked k) :
    ∀ job, z.sched.jobs.lookup k = some job → job.running = true := by
  intro job hjob
  cases h with
  | lookedUp =>
    rw [lookUp_sched] at hjob
    exact hp.running job hjob
  | attempted =>
    rw [attempt_sched] at hjob
    exact hp.running job hjob
  | @admitted d receipt persisted harm =>
    simp only [Scheduler.admitDiscovery_jobs] at hjob
    obtain ⟨old, hold, hrun⟩ | ⟨hk, hnone, hpeers⟩ := Scheduler.admitJobPeers_running hjob
    · rw [hrun]
      exact hp.running old hold
    · -- a committed discovery with peers finds the hash tracked
      have hpersisted : y.Persisted d := ⟨receipt, _, harm, Or.inl rfl⟩
      have htracked := hp.admitting d hpersisted hk.symm hpeers
      rw [hk, hnone] at htracked
      cases htracked
  | @scanAdmitted loaded harm =>
    have hfold : ∀ job, (loaded.foldl (admitLoaded env) y.sched).jobs.lookup k = some job →
        job.running = true := by
      refine List.foldlRecOn (motive := fun s : Scheduler Round =>
        ∀ job, s.jobs.lookup k = some job → job.running = true) loaded _ hp.running ?_
      intro s hs l hl job hjob
      obtain ⟨old, hold, hrun⟩ | ⟨hk, -, -⟩ := Scheduler.admitJobPeers_running hjob
      · rw [hrun]
        exact hs old hold
      · refine absurd ?_ hp.unscanned
        rw [scanned, harm, hk]
        exact List.mem_map_of_mem (List.mem_map_of_mem hl)
    exact hfold job hjob
  | @dispatched sched harm hd =>
    obtain ⟨-, hash, ready, hready, hcases⟩ := Scheduler.dispatchStep_cases hd
    have hk : k ≠ hash := by
      rintro rfl
      obtain ⟨old, hold, hidle, -⟩ := hi.sched.inv.ready_idle k (by simp [hready])
      rw [hp.running old hold] at hidle
      cases hidle
    obtain ⟨rfl, -⟩ | ⟨old, -, -, ⟨rfl, -⟩ | rfl⟩ := hcases
    · exact hp.running job hjob
    · exact hp.running job (by simpa [hk] using hjob)
    · exact hp.running job (by simpa [hk] using hjob)
  | @joined index r outcome harm hw hphase =>
    by_cases hk : k = outcome.infoHash
    · have hhash : r.infoHash = k :=
        (hi.sched.outcomes r (List.mem_of_getElem? hw) outcome hphase).symm.trans hk.symm
      obtain ⟨outcome', hphase', hparked⟩ := hp.workers r (List.mem_of_getElem? hw) hhash
      rw [hphase] at hphase'
      cases hphase'
      rw [hk, Scheduler.joinWorker_lookup_dropped (by simp [hparked])] at hjob
      cases hjob
    · rw [Scheduler.joinWorker_lookup_other hk] at hjob
      exact hp.running job hjob
  | restarted => simp [Scheduler.empty] at hjob
  | _ => exact hp.running job hjob

/-- A hash that starts to be scanned is due. -/
theorem Fires.scanned (h : Fires env y e z) (hk : k ∈ z.scanned) :
    k ∈ y.scanned ∨ (z.store = y.store ∧ ∃ now, DueAt now k y.store.catalogue) := by
  cases h with
  | discovered => cases hk
  | lookedUp harm =>
    rw [scanned_of_ne (lookUp_arm _ _ y (by simp [harm]))] at hk
    cases hk
  | attempted =>
    rw [scanned_of_ne (attempt_arm _ _ _ y)] at hk
    cases hk
  | removed => cases hk
  | admitted => cases hk
  | @scanStarted turn harm =>
    cases hread : Round.readError turn.fate with
    | some _ =>
      rw [hread] at hk
      cases hk
    | none =>
      simp only [System.scanned, hread, List.map_nil, List.append_nil, List.mem_map] at hk
      obtain ⟨record, hrecord, rfl⟩ := hk
      exact Or.inr ⟨rfl, turn.now, mem_dueHashJobs (mem_loadable hrecord).1⟩
  | @scanRead record todo loaded turn harm =>
    cases hread : Round.readError turn.fate with
    | some _ =>
      rw [hread] at hk
      cases hk
    | none =>
      left
      simp only [System.scanned, hread, harm] at hk ⊢
      simp only [List.map_append, List.map_cons, List.map_nil, List.mem_append, List.mem_cons,
        List.not_mem_nil, or_false] at hk ⊢
      tauto
  | scanAdmitted => cases hk
  | restarted => cases hk
  | _ => exact Or.inl hk

/-- A job that stays waiting stays parked. -/
theorem JobsOk.parked_kept (hi : JobsOk env y) (h : Fires env y e z) (hp : y.Parked k)
    (hold : jobStatus k y.store.catalogue = some .waitingPeers)
    (hnew : jobStatus k z.store.catalogue = some .waitingPeers) : z.Parked k where
  workers := by
    intro r hr hk
    cases h.workers hr with
    | kept hkept => exact hp.workers r hkept hk
    | @spawned hash job hready hjob =>
      obtain ⟨job', hjob', hidle, -⟩ := hi.sched.inv.ready_idle hash hready
      have hk : hash = k := hk
      rw [hp.running job' (hk ▸ hjob')] at hidle
      cases hidle
    | @stepped index r₀ choice hw =>
      rw [Round.step_infoHash] at hk
      obtain ⟨outcome, hphase, hparked⟩ := hp.workers r₀ (List.mem_of_getElem? hw) hk
      have hmoves := Round.step_moves env.round choice r₀ y.store
      rw [hphase] at hmoves
      generalize hnext : (r₀.step env.round choice y.store).1.phase = next at hmoves
      cases hmoves with
      | stays => exact ⟨outcome, rfl, hparked⟩
  running := hi.running_fires h hp
  unscanned := by
    intro hk
    obtain hs | ⟨-, now, hdue⟩ := h.scanned hk
    · exact hp.unscanned hs
    · obtain ⟨s, hs, hsched⟩ := hdue.schedulable
      rw [hold] at hs
      cases hs
      cases hsched
  admitting := by
    intro d hd hk hpeers
    obtain ⟨receipt, phase, harm, -⟩ := id hd
    rw [h.jobs_of_persisting harm]
    obtain hd | ⟨turn, -, hcat⟩ := h.persisted hd
    · exact hp.admitting d hd hk hpeers
    · -- the commit of a discovery with peers leaves no job waiting
      rw [hcat, ← hk] at hnew
      exact absurd hnew (recordDiscovery_ne_waiting env.limits.maxPeersPerHash_pos hpeers)

theorem JobsOk.parked_fires (hi : JobsOk env y) (h : Fires env y e z)
    (hstatus : jobStatus k z.store.catalogue = some .waitingPeers) : z.Parked k := by
  obtain hold | ⟨index, r₀, choice, rfl, hw, hhash, hwrites⟩ := h.changes.roundResult rfl hstatus
  · exact hi.parked_kept h (hi.parked k hold) hold hstatus
  · have hr₀ := List.mem_of_getElem? hw
    obtain ⟨job, hjob, hrun⟩ := hi.sched.worker_job hr₀
    rw [hhash] at hjob
    have hjobs : z.sched.jobs = y.sched.jobs := by cases h with | worked => rfl
    have harm : z.arm = y.arm := by cases h with | worked => rfl
    constructor
    case workers =>
      -- the round has just parked
      intro r hr hk
      rw [hi.sched.stepped_eq h hw hr (hk.trans hhash.symm)]
      have hmoves := Round.step_moves env.round choice r₀ y.store
      generalize r₀.phase = phase at hmoves hwrites
      generalize (r₀.step env.round choice y.store).1.phase = next at hmoves
      cases hmoves with
      | parkedJob => exact ⟨_, rfl, rfl⟩
      | markedTerminal error =>
        simp only [RoundPhase.writes, Option.some.injEq] at hwrites
        split at hwrites <;> cases hwrites
      | _ => cases hwrites
    case running =>
      intro job' hjob'
      rw [hjobs, hjob] at hjob'
      cases hjob'
      exact hrun
    case unscanned =>
      intro hs
      have hs : k ∈ y.scanned := by rwa [scanned, harm] at hs
      rw [hi.sched.untracked k hs] at hjob
      cases hjob
    case admitting =>
      intro _ _ _ _
      rw [hjobs, hjob]
      rfl

theorem JobsOk.fires (hi : JobsOk env y) (h : Fires env y e z) : JobsOk env z :=
  ⟨hi.sched.fires h, hi.closed_fires h, fun _ hs => hi.parked_fires h hs⟩

theorem JobsOk.clock (hi : JobsOk env z) (now : Int) : JobsOk env { z with clock := now } where
  sched := hi.sched.clock now
  closed := hi.closed
  parked := fun k hk => ⟨(hi.parked k hk).workers, (hi.parked k hk).running,
    (hi.parked k hk).unscanned, (hi.parked k hk).admitting⟩

theorem JobsOk.step (hi : JobsOk env y) (h : Step env y e y') : JobsOk env y' :=
  h.lift (fun _ now hz => hz.clock now) fun _ hz => hi.fires hz

theorem JobsOk.starts (h : Starts y) : JobsOk env y where
  sched := .starts h
  closed := by
    rw [h.sched]
    rintro k s - - r ⟨⟩
  parked := by
    rintro k -
    constructor
    case workers =>
      rw [h.sched]
      rintro r ⟨⟩
    case running =>
      rw [h.sched]
      simp [Scheduler.empty]
    case unscanned =>
      rw [scanned, h.arm]
      exact List.not_mem_nil
    case admitting =>
      rintro d ⟨receipt, phase, harm, -⟩
      rw [h.arm] at harm
      cases harm

/-! ## Terminal jobs -/

/-- The event does not prune the torrent of the hash. -/
def Spares (k : InfoHash) (y : System) (e : SystemEvent) : Prop :=
  ∀ turn cutoff, e = .prunedTorrents turn cutoff →
    k ∉ (oldTorrents cutoff y.store.catalogue).map Sigma.fst

/-- A round of the hash has passed its check of the job status. -/
def Started (y : System) (k : InfoHash) (task : Nat) : Prop :=
  ∃ r ∈ y.sched.workers, r.infoHash = k ∧ r.args.task = task ∧ r.phase ≠ .checkTerminal

/-- Apart from prunes, only a round can take a job out of a terminal status. -/
theorem Changes.terminal (hc : Changes env y e c) (hspares : Spares k y e)
    (ht : hashJobIsTerminal k y.store.catalogue = true) :
    hashJobIsTerminal k c = true ∨
      ∃ r ∈ y.sched.workers, ∃ s, r.infoHash = k ∧ r.phase.writes = some s ∧
        s.isTerminal = false ∧ jobStatus k y.store.catalogue ≠ some .complete := by
  have hkept : jobStatus k c = jobStatus k y.store.catalogue → hashJobIsTerminal k c = true := by
    intro hsame
    rw [hashJobIsTerminal_iff] at ht ⊢
    rwa [hsame]
  cases hc with
  | kept => exact Or.inl ht
  | recorded =>
    left
    rw [hashJobIsTerminal, recordDiscovery_hashJobs]
    exact discover_terminal ht
  | batched => exact Or.inl (batch_terminal ht)
  | @worked index r choice _ hw hwrites =>
    cases hwrites with
    | attempt => exact Or.inl ht
    | commit hphase hcommit =>
      obtain ⟨old, hcommitted⟩ := commitMetadataTx_ok hcommit
      have hstatus := hcommitted.jobStatus (k := k)
      split at hstatus
      · exact Or.inl (hashJobIsTerminal_iff.mpr ⟨_, hstatus, rfl⟩)
      · exact Or.inl (hkept hstatus)
    | @update status _ _ _ _ _ hphase heffect hupdate =>
      have hstatus := jobStatus_update hupdate (k := k)
      split at hstatus
      · next hk =>
        cases hopen : status.isTerminal with
        | true => exact Or.inl (hashJobIsTerminal_iff.mpr ⟨_, hstatus, hopen⟩)
        | false =>
          refine Or.inr ⟨r, List.mem_of_getElem? hw, status, hk.1.symm, hphase, hopen, ?_⟩
          intro hcomplete
          rw [hk.1] at hcomplete
          simp [hcomplete] at hk
      · exact Or.inl (hkept hstatus)
  | prunedTorrents turn cutoff =>
    have hstatus := jobStatus_pruneBatch (k := k) cutoff y.store.catalogue
    rw [if_neg (hspares turn cutoff rfl)] at hstatus
    exact Or.inl (hkept hstatus)
  | prunedAttempts => exact Or.inl (hkept rfl)
  | reconciled => exact Or.inl (hkept rfl)

theorem JobsOk.terminal_fires (hi : JobsOk env y) (h : Fires env y e z) (hspares : Spares k y e)
    (ht : hashJobIsTerminal k y.store.catalogue = true) :
    hashJobIsTerminal k z.store.catalogue = true := by
  obtain hz | ⟨r, hr, s, hk, hwrites, hopen, hne⟩ := h.changes.terminal hspares ht
  · exact hz
  · -- the round of a job that is invalid or unsupported writes no open status
    obtain ⟨s', hs', hterminal⟩ := hashJobIsTerminal_iff.mp ht
    have hclosed : s' = .invalid ∨ s' = .unsupported := by
      cases s' with
      | complete => exact absurd hs' hne
      | invalid => exact Or.inl rfl
      | unsupported => exact Or.inr rfl
      | _ => cases hterminal
    have hsettled := hi.closed k s' hs' hclosed r hr hk
    cases hp : r.phase with
    | markUnsupported message =>
      rw [hp] at hwrites
      cases hwrites
      cases hopen
    | checkTerminal | finished =>
      rw [hp] at hwrites
      cases hwrites
    | _ =>
      rw [hp] at hsettled
      cases hsettled

/-- Since a job became terminal it has stayed so, and only rounds that had passed
their check before have fetched for it. -/
structure TerminalSince (env : SystemEnv) (k : InfoHash) (y z : System) : Prop where
  jobs : JobsOk env z
  terminal : hashJobIsTerminal k z.store.catalogue = true
  rounds : ∀ r ∈ z.sched.workers, r.infoHash = k → y.Started k r.args.task ∨
    r.phase = .checkTerminal ∨ ∃ outcome, r.phase = .finished outcome
  fetches : ∃ more, z.log = y.log ++ more ∧
    ∀ task addr, PeerLog.fetch task k addr ∈ more → y.Started k task

/-- A round that finds its job terminal ends. -/
theorem terminal_round_step {r : Round} {choice : Choice} {s : Store}
    (hphase : r.phase = .checkTerminal ∨ ∃ outcome, r.phase = .finished outcome)
    (hterminal : hashJobIsTerminal r.infoHash s.catalogue = true) :
    (r.step env.round choice s).1.phase = .checkTerminal ∨
      ∃ outcome, (r.step env.round choice s).1.phase = .finished outcome := by
  have hmoves := Round.step_moves env.round choice r s
  generalize (r.step env.round choice s).1.phase = next at hmoves
  obtain hphase | ⟨outcome, hphase⟩ := hphase <;> rw [hphase] at hmoves
  · cases hmoves with
    | recheck => exact Or.inl rfl
    | alreadyTerminal => exact Or.inr ⟨_, rfl⟩
    | admitted hopen =>
      rw [Round.infoHash, hopen] at hterminal
      cases hterminal
  · cases hmoves with
    | stays => exact Or.inr ⟨outcome, rfl⟩

theorem TerminalSince.fires {x : System} (hi : TerminalSince env k x y) (h : Fires env y e z)
    (hspares : Spares k y e) : TerminalSince env k x z where
  jobs := hi.jobs.fires h
  terminal := hi.jobs.terminal_fires h hspares hi.terminal
  rounds := by
    intro r hr hk
    cases h.workers hr with
    | kept hkept => exact hi.rounds r hkept hk
    | spawned => exact Or.inr (Or.inl rfl)
    | @stepped index r₀ choice hw =>
      rw [Round.step_infoHash] at hk
      rw [Round.step_args]
      obtain hstarted | hphase := hi.rounds r₀ (List.mem_of_getElem? hw) hk
      · exact Or.inl hstarted
      · exact Or.inr (terminal_round_step hphase (hk ▸ hi.terminal))
  fetches := by
    obtain ⟨more, hlog, hfetches⟩ := hi.fetches
    obtain hsame | ⟨index, r, choice, -, hw, hgrown⟩ := h.log
    · exact ⟨more, hsame.trans hlog, hfetches⟩
    · refine ⟨_, by rw [hgrown, hlog, List.append_assoc], ?_⟩
      intro task addr hm
      obtain hm | hm := List.mem_append.mp hm
      · exact hfetches task addr hm
      · obtain ⟨rfl, hk, peer, todo, hphase, -⟩ := fetch_mem_logged hm
        obtain hstarted | hp | ⟨outcome, hp⟩ := hi.rounds r (List.mem_of_getElem? hw) hk.symm
        · exact hstarted
        · rw [hphase] at hp
          cases hp
        · rw [hphase] at hp
          cases hp

theorem TerminalSince.run {x : System} {es : List SystemEvent} (hi : JobsOk env x)
    (ht : hashJobIsTerminal k x.store.catalogue = true)
    (h : Run (Guarded (Spares k) (Step env)) x es y) : TerminalSince env k x y := by
  refine h.invariant (I := TerminalSince env k x) ?_ ⟨hi, ht, ?_, [], by simp⟩
  · rintro a e b ha ⟨hspares, hstep⟩
    exact hstep.lift (fun _ now hz => ⟨hz.jobs.clock now, hz.terminal, hz.rounds, hz.fetches⟩)
      fun _ hz => ha.fires hz hspares
  · intro r hr hk
    by_cases hphase : r.phase = .checkTerminal
    · exact Or.inr (Or.inl hphase)
    · exact Or.inl ⟨r, hr, hk, rfl, hphase⟩

/-! ## The times from which jobs are due -/

/-- A discovery without peers, alone or in a batch. -/
def Peerless (y : System) (e : SystemEvent) : Prop :=
  (∃ turn events snapshot receipt, e = .batched turn events snapshot receipt) ∨
    ∃ turn d receipt, e = .attempted turn ∧ y.arm = .persisting d receipt .looked ∧ d.peers = []

/-- What a step does to the jobs that are not terminal. -/
structure Reschedules (y : System) (e : SystemEvent) (y' : System) : Prop where
  waiting : ∀ k s, jobStatus k y.store.catalogue = some .waitingPeers →
    jobStatus k y'.store.catalogue = some s → s.isSchedulable = true →
    ∃ turn d receipt, e = .attempted turn ∧ y.arm = .persisting d receipt .looked ∧
      d.infoHash = k ∧ d.peers ≠ []
  peerless : y.Peerless e → ∀ k t, DueAt t k y'.store.catalogue → DueAt t k y.store.catalogue
  bearing : ∀ d, ¬ y.Persisted d → y'.Persisted d → d.peers ≠ [] →
    hashJobIsTerminal d.infoHash y.store.catalogue = false →
    ∀ t, 0 ≤ t → DueAt t d.infoHash y'.store.catalogue

theorem JobsOk.waiting_fires {s : JobStatus} (hi : JobsOk env y) (h : Fires env y e z)
    (hw : jobStatus k y.store.catalogue = some .waitingPeers)
    (hs : jobStatus k z.store.catalogue = some s) (hsched : s.isSchedulable = true) :
    ∃ turn d receipt, e = .attempted turn ∧ y.arm = .persisting d receipt .looked ∧
      d.infoHash = k ∧ d.peers ≠ [] := by
  have hkept : jobStatus k z.store.catalogue = some .waitingPeers → False := by
    intro hsame
    rw [hs] at hsame
    cases hsame
    cases hsched
  have hc := h.changes
  generalize z.store.catalogue = c at hc hs hkept
  cases hc with
  | kept => exact (hkept hw).elim
  | @recorded d receipt turn harm =>
    by_cases hk : d.infoHash = k
    · refine ⟨turn, d, receipt, rfl, harm, hk, ?_⟩
      intro hpeers
      refine hkept ?_
      rw [hpeers, jobStatus_recordDiscovery, discoveredAddrs_nil]
      exact discover_waiting hw
    · refine (hkept ?_).elim
      rw [jobStatus_recordDiscovery, jobStatus_discover, if_neg (Ne.symm hk)]
      exact hw
  | batched => exact (hkept (batch_waiting hw)).elim
  | @worked index r choice _ hworker hwrites =>
    -- the round of a parked job has finished
    have hfinished : r.infoHash = k → ∃ outcome, r.phase = .finished outcome := fun hk =>
      ((hi.parked k hw).workers r (List.mem_of_getElem? hworker) hk).imp fun _ h => h.1
    cases hwrites with
    | attempt => exact (hkept hw).elim
    | commit hphase hcommit =>
      obtain ⟨old, hcommitted⟩ := commitMetadataTx_ok hcommit
      rw [hcommitted.jobStatus] at hs hkept
      split at hs
      · cases hs
        cases hsched
      · next hk => exact (hkept (by rw [if_neg hk, hw])).elim
    | update hphase heffect hupdate =>
      rw [jobStatus_update hupdate] at hs hkept
      split at hs
      · next hk =>
        obtain ⟨outcome, hp⟩ := hfinished hk.1.symm
        rw [hp] at hphase
        cases hphase
      · next hk => exact (hkept (by rw [if_neg hk, hw])).elim
  | prunedTorrents =>
    rw [jobStatus_pruneBatch] at hs hkept
    split at hs
    · cases hs
    · next hk => exact (hkept (by rw [if_neg hk, hw])).elim
  | prunedAttempts => exact (hkept hw).elim
  | reconciled => exact (hkept hw).elim

theorem Fires.peerless {t : Int} (h : Fires env y e z) (hp : y.Peerless e)
    (hd : DueAt t k z.store.catalogue) : DueAt t k y.store.catalogue := by
  have hc := h.changes
  generalize z.store.catalogue = c at hc hd
  cases hc with
  | kept => exact hd
  | @recorded d receipt turn harm =>
    obtain ⟨_, _, _, _, he⟩ | ⟨_, d', receipt', he, harm', hpeers⟩ := hp
    · cases he
    · rw [harm] at harm'
      cases harm'
      rw [hpeers] at hd
      exact recordDiscovery_dueAt hd
  | batched => exact batch_dueAt hd
  | _ => obtain ⟨_, _, _, _, he⟩ | ⟨_, _, _, he, _⟩ := hp <;> cases he

theorem Authentic.bearing {d : HashDiscovery} {t : Int} (hi : Authentic env y)
    (h : Fires env y e z) (hnew : ¬ y.Persisted d) (hp : z.Persisted d) (hpeers : d.peers ≠ [])
    (hopen : hashJobIsTerminal d.infoHash y.store.catalogue = false) (ht : 0 ≤ t) :
    DueAt t d.infoHash z.store.catalogue := by
  obtain hold | ⟨turn, -, hcat⟩ := h.persisted hp
  · exact absurd hold hnew
  · rw [hcat]
    exact recordDiscovery_due env.limits.maxPeersPerHash_pos hpeers
      ((hi.torrents d.infoHash).incomplete hopen) hopen ht

theorem Reschedules.of_step (hi : JobsOk env y) (ha : Authentic env y) (h : Step env y e y') :
    Reschedules y e y' :=
  h.lift (fun _ _ hz => ⟨hz.waiting, hz.peerless, hz.bearing⟩) fun _ hz =>
    ⟨fun _ _ hw hs hsched => hi.waiting_fires hz hw hs hsched, fun hp _ _ hd => hz.peerless hp hd,
      fun _ hnew hp hpeers hopen _ ht => ha.bearing hz hnew hp hpeers hopen ht⟩

/-- From any reachable state: a terminal job stays terminal until its torrent is
pruned, is never due and is fetched by no round that starts later; a waiting job
waits for a discovery with peers, which makes any open job due at once, while a
discovery without peers makes none due earlier. -/
theorem reachable_terminal_stays (hr : Reachable StartsMigrated (Step env) y) :
    (∀ k es y', hashJobIsTerminal k y.store.catalogue = true →
      Run (Guarded (Spares k) (Step env)) y es y' →
      hashJobIsTerminal k y'.store.catalogue = true ∧
      (∀ now limit, ∀ record ∈ dueHashJobs now limit y'.store.catalogue, record.infoHash ≠ k) ∧
      ∃ more, y'.log = y.log ++ more ∧
        ∀ task addr, PeerLog.fetch task k addr ∈ more → y.Started k task) ∧
    ∀ e y', Step env y e y' → Reschedules y e y' := by
  have hjobs : JobsOk env y :=
    hr.invariant (fun _ hs => .starts hs.1) fun _ _ _ hs hst => hs.step hst
  have hauthentic : Authentic env y :=
    hr.invariant (fun _ hs => .starts hs) fun _ _ _ hs hst => hs.step hst
  refine ⟨?_, fun e y' hst => .of_step hjobs hauthentic hst⟩
  intro k es y' ht hrun
  have hsince := TerminalSince.run hjobs ht hrun
  refine ⟨hsince.terminal, ?_, hsince.fetches⟩
  rintro now limit record hrecord rfl
  exact not_dueAt_of_terminal hsince.terminal (mem_dueHashJobs hrecord)

/-- The metadata of a discovered hash is unsupported; the hash is discovered again. -/
theorem reachable_terminal_stays_unsupported :
    let info : BencodeDict :=
      [(asBytes "name", .bytes [97]), (asBytes "piece length", .int 16384),
        (asBytes "meta version", .int 3)]
    let env : SystemEnv :=
      ⟨⟨.ascii, ⟨fun _ => 7, fun _ => .ok (.dict info)⟩, 24⟩,
        ⟨1, 1, 1, 1, by decide, by decide, by decide, by decide⟩⟩
    let turn : Turn := ⟨1, 1048576, .commits⟩
    let start : System := ⟨.migrated, .empty, .idle, 0, [], []⟩
    let found (receipt : Uuid) : List SystemEvent :=
      [.discovered ⟨7, [⟨⟨⟨10, 0, 0, 1⟩, 6881⟩⟩], .announcePeer⟩ receipt, .lookedUp,
        .attempted turn, .removed .commits, .admitted, .dispatched]
    let round : List SystemEvent := List.replicate 6 (.worked 0 ⟨turn, .ok [], 0⟩)
    ∃ y y', play env (found 1 ++ round ++ [.joined 0]) start = some y ∧
      play env (found 2 ++ round) y = some y' ∧
      jobStatus 7 y.store.catalogue = some .unsupported ∧
      hashJobIsTerminal 7 y'.store.catalogue = true := by
  intro info env turn start found round
  have hfirst : (play env (found 1 ++ round ++ [.joined 0]) start).any (fun y =>
      jobStatus 7 y.store.catalogue = some .unsupported ∧
        (play env (found 2 ++ round) y).isSome) = true := by
    decide
  obtain ⟨y, hplay, hy⟩ := (Option.any_eq_true _ _).mp hfirst
  obtain ⟨hstatus, hsecond⟩ := of_decide_eq_true hy
  obtain ⟨y', hplay'⟩ := Option.isSome_iff_exists.mp hsecond
  have hinit : Reachable StartsMigrated (Step env) start := .of_init ⟨⟨rfl, rfl, rfl, rfl⟩, rfl⟩
  have hspares : ∀ e ∈ found 2 ++ round, ∀ s, Spares 7 s e := by
    intro e he s turn cutoff hprune
    subst hprune
    simp [found, round] at he
  have hstays := (reachable_terminal_stays (hinit.run (play_run hplay))).1 7 _ y'
    (hashJobIsTerminal_iff.mpr ⟨_, hstatus, rfl⟩) ((play_run hplay').guarded hspares)
  exact ⟨y, y', hplay, hplay', hstatus, hstays.1⟩

end System

end Btfind
