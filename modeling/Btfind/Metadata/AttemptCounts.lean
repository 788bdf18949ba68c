import Btfind.Metadata.SystemInvariant
import Btfind.Metadata.Verdict

/-!
# Attempt counts

How often the peers of a hash were attempted is stored in its job row, and the job in memory
and the round in flight count on from a copy. The copies never fall behind the row, unless a
discovery starts a job anew.
-/

namespace Btfind

open Transaction Transition

/-- The stored attempt count of a hash that has a job row. -/
def storedCount (h : InfoHash) (c : Catalogue) : Option Int :=
  (c.hashJobs.lookup h).map HashJobRow.attemptCount

section Writes

variable {c c' : Catalogue} {h k : InfoHash} {now : Int} {source : String} {peers : Bool} {n : Int}

/-- The count of the row is as before, or the row is new and has none. -/
def CountKept (h : InfoHash) (c c' : Catalogue) : Prop :=
  storedCount h c' = storedCount h c ∨ (storedCount h c = none ∧ storedCount h c' = some 0)

theorem CountKept.trans {c'' : Catalogue} (h₁ : CountKept h c c') (h₂ : CountKept h c' c'') :
    CountKept h c c'' := by
  obtain hsame | ⟨hnone, hzero⟩ := h₁
  · rw [CountKept, ← hsame]
    exact h₂
  · obtain hsame | ⟨hnone', -⟩ := h₂
    · exact Or.inr ⟨hnone, hsame.trans hzero⟩
    · rw [hzero] at hnone'
      cases hnone'

theorem discoveredRow_count {done : Option Bool} {old : Option HashJobRow} :
    (discoveredRow now source peers done old).map HashJobRow.attemptCount =
        old.map HashJobRow.attemptCount ∨
      (old = none ∧ (discoveredRow now source peers done old).map HashJobRow.attemptCount =
        some 0) := by
  cases peers with
  | false => cases old <;> exact Or.inl rfl
  | true =>
    cases old with
    | none => obtain _ | (_ | _) := done <;> exact Or.inr ⟨rfl, rfl⟩
    | some row => obtain _ | (_ | _) := done <;> exact Or.inl rfl

theorem countKept_discover : CountKept k c (discover now h source peers c).2 := by
  rw [CountKept, storedCount, storedCount]
  by_cases hk : k = h
  · subst hk
    rw [discover_lookup_self]
    obtain hsame | ⟨hnone, hzero⟩ := discoveredRow_count
    · exact Or.inl hsame
    · exact Or.inr ⟨by rw [hnone]; rfl, hzero⟩
  · rw [discover_lookup_other hk]
    exact Or.inl rfl

theorem countKept_recordDiscovery {contacts : List PeerContact} {limit : Nat} :
    CountKept k c (recordDiscovery now h source contacts limit c).2 := by
  rw [CountKept, storedCount, storedCount, recordDiscovery_hashJobs]
  exact countKept_discover

theorem countKept_batch {events : List CrawlStatsEvent} {snapshot : Option RuntimeSnapshot} :
    CountKept k c (recordRuntimeBatch now events snapshot c).2 := by
  refine recordRuntimeBatch_induction (P := CountKept k c) (Or.inl rfl)
    (fun _ _ _ hc => hc.trans countKept_discover) ?_
  intro c₁ c₂ hc hsame
  rwa [CountKept, storedCount, hsame.hashJobs]

theorem countKept_commit {u : Unicode} {m : TorrentMetadata} {old : TorrentRow}
    (hc : Committed u now h m c c' old) : CountKept k c c' := by
  have hdiscovered : CountKept k c (discover now h "dht" false c).2 := countKept_discover
  refine hdiscovered.trans ?_
  rw [CountKept, storedCount, storedCount, hc.hashJobs, AList.lookup_upsert]
  split
  · next hk =>
    rw [hk]
    cases (discover now h "dht" false c).2.hashJobs.lookup h with
    | none => exact Or.inr ⟨rfl, rfl⟩
    | some row => exact Or.inl rfl
  · exact Or.inl rfl

theorem storedCount_pruneBatch {cutoff : Int}
    (hn : storedCount k (pruneBatch cutoff c) = some n) : storedCount k c = some n := by
  refine List.foldlRecOn (motive := fun c' => storedCount k c' = some n → storedCount k c = some n)
    (oldTorrents cutoff c) pruneTorrent id ?_ hn
  intro c₁ hc selected _ hpruned
  refine hc ?_
  simp only [storedCount, pruneTorrent, Catalogue.deleteTorrent, AList.lookup_erase_eq] at hpruned
  split at hpruned
  · cases hpruned
  · exact hpruned

theorem storedCount_update {status : JobStatus} {attempts rows : Nat} {next : Int}
    {failure : String}
    (hu : updateHashJobFailureTx now h status attempts next failure c = .ok (rows, c')) :
    storedCount k c' = storedCount k c ∨
      (k = h ∧ (storedCount k c).isSome = true ∧ storedCount k c' = some attempts) := by
  rw [updateHashJobFailureTx] at hu
  split at hu
  · cases hu
    exact Or.inl rfl
  · next row hrow =>
    split at hu
    · cases hu
      exact Or.inl rfl
    · cases hu
      rw [storedCount, storedCount, AList.lookup_insert_eq]
      split
      · next hk =>
        subst hk
        rw [hrow]
        exact Or.inr ⟨rfl, rfl, rfl⟩
      · exact Or.inl rfl

/-- The scan reads the count of a due row. -/
theorem dueHashJobs_count {record : HashJobRecord} {limit : Nat}
    (hr : record ∈ dueHashJobs now limit c) :
    ∃ row, c.hashJobs.lookup record.infoHash = some row ∧
      record.attemptCount = row.attemptCount.toNat := by
  obtain ⟨e, he, rfl⟩ := List.mem_map.mp hr
  have hmem := List.mem_of_mem_take he
  rw [List.mem_insertionSort, List.mem_filter] at hmem
  exact ⟨e.2, AList.lookup_eq_some_iff.mpr hmem.1, rfl⟩

end Writes

theorem saturatingAddU32_mono {a a' b b' : Nat} (ha : a ≤ a') (hb : b ≤ b') :
    saturatingAddU32 a b ≤ saturatingAddU32 a' b' := by
  rw [saturatingAddU32, saturatingAddU32]
  omega

theorem le_saturatingAddU32 {n : Int} {a b : Nat} (hn : n ≤ a) (hbound : n ≤ u32Max) :
    n ≤ saturatingAddU32 a b := by
  rw [saturatingAddU32]
  omega

/-! ## Rounds -/

/-- What a round will write as the count, and what it hands over as its attempts. -/
def RoundPhase.Counts (args : RoundArgs) (attempts : Nat) : RoundPhase → Prop
  | .parking n | .scheduling n _ => n = saturatingAddU32 args.priorAttemptCount attempts
  | .finished outcome => outcome.attempts = attempts
  | _ => True

namespace Round

variable {env : RoundEnv} {choice : Choice} {r : Round} {s s' : Store}
  {phase phase' : RoundPhase} {attempts : Nat} {events : List RoundEvent}

theorem Logs.counts (h : Logs env choice r s phase phase' attempts s' events)
    (hcounts : phase.Counts r.args r.attempts) : phase'.Counts r.args attempts := by
  cases h with
  | stays => exact hcounts
  | alreadyTerminal | parked | scheduled | committed | marked | markedTerminal | parkedJob
  | scheduledJob => exact rfl
  | _ => trivial

theorem Logs.attempts_le (h : Logs env choice r s phase phase' attempts s' events)
    (hbound : r.attempts ≤ u32Max) : r.attempts ≤ attempts ∧ attempts ≤ u32Max := by
  cases h with
  | refused | recorded =>
    rw [saturatingAddU32]
    omega
  | _ => exact ⟨Nat.le_refl _, hbound⟩

/-- A phase that writes the job row writes the attempts of all rounds of the hash. -/
theorem step_updates (env : RoundEnv) (choice : Choice) (s : Store) {status : JobStatus}
    (hcounts : r.phase.Counts r.args r.attempts) (h : r.phase.writes = some status) : ∃ status next failure,
    (r.step env choice s).2 = (updateJob choice.turn r.args.infoHash status
      (saturatingAddU32 r.args.priorAttemptCount r.attempts) next failure s).2 := by
  rw [step]
  simp only
  cases hp : r.phase with
  | markUnsupported message =>
    refine ⟨.unsupported, 0, message, ?_⟩
    simp only
    split <;> next hr => rw [hr]
  | markTerminal error => exact ⟨_, 0, error, rfl⟩
  | parking n =>
    rw [hp] at hcounts
    cases hcounts
    exact ⟨.waitingPeers, 0, _, rfl⟩
  | scheduling n next =>
    rw [hp] at hcounts
    cases hcounts
    exact ⟨.retryAt, next, _, rfl⟩
  | _ =>
    rw [hp] at h
    cases h

theorem step_count (hcounts : r.phase.Counts r.args r.attempts) (k : InfoHash) :
    CountKept k s.catalogue (r.step env choice s).2.catalogue ∨
      (k = r.args.infoHash ∧ (storedCount k s.catalogue).isSome = true ∧
        storedCount k (r.step env choice s).2.catalogue =
          some (saturatingAddU32 r.args.priorAttemptCount r.attempts : Nat)) := by
  cases hwrites : r.phase.writes with
  | some status =>
    obtain ⟨status, next, failure, hstore⟩ :=
      step_updates env choice s hcounts hwrites
    rw [hstore, updateJob]
    obtain hsame | ⟨rows, hok⟩ := System.transact_catalogue choice.turn.fate
      (updateHashJobFailureTx choice.turn.now r.args.infoHash status
        (saturatingAddU32 r.args.priorAttemptCount r.attempts) next failure) s
    · rw [hsame]
      exact Or.inl (Or.inl rfl)
    · obtain hkept | hwritten := storedCount_update (k := k) hok
      · exact Or.inl (Or.inl hkept)
      · exact Or.inr hwritten
  | none =>
    obtain hsame | ⟨-, hwritten⟩ := step_written env choice r s
    · rw [hsame]
      exact Or.inl (Or.inl rfl)
    · left
      generalize (r.step env choice s).2.catalogue = c at hwritten ⊢
      cases hwritten with
      | attempt => exact Or.inl rfl
      | commit _ hok =>
        obtain ⟨old, hcommitted⟩ := commitMetadataTx_ok hok
        exact countKept_commit hcommitted
      | update hphase =>
        rw [hwrites] at hphase
        cases hphase

end Round

/-! ## The scheduler -/

namespace Scheduler

variable {ω : Type} {limits : SchedulerLimits} {hash k : InfoHash} {peers : List PeerContact}
  {attemptCount : Nat} {s s' : Scheduler ω} {job' : HashJob}

/-- An admission lowers no count, and starts a job with the count it is given. -/
theorem admitJobPeers_count
    (h : (s.admitJobPeers limits hash peers attemptCount).1.jobs.lookup k = some job') :
    (∃ job, s.jobs.lookup k = some job ∧ job'.running = job.running ∧
      job.attemptCount ≤ job'.attemptCount) ∨
    (k = hash ∧ s.jobs.lookup hash = none ∧ peers ≠ [] ∧
      s.jobs.count < limits.maxActiveHashJobs ∧ job'.attemptCount = attemptCount) := by
  obtain hsame | ⟨job, hj, hjobs⟩ | ⟨hnone, hpeers, hjobs⟩ :=
    admitJobPeers_jobs limits hash peers attemptCount s
  · rw [hsame] at h
    exact Or.inl ⟨job', h, rfl, Nat.le_refl _⟩
  · rw [hjobs, AList.lookup_insert_eq] at h
    split at h
    · next hk =>
      cases h
      exact Or.inl ⟨job, hk ▸ hj, rfl, Nat.le_max_left _ _⟩
    · exact Or.inl ⟨job', h, rfl, Nat.le_refl _⟩
  · by_cases hfull : limits.maxActiveHashJobs ≤ s.jobs.count
    · have hsame : (s.admitJobPeers limits hash peers attemptCount).1 = s := by
        rw [admitJobPeers, hnone]
        simp [hpeers, hfull]
      rw [hsame] at h
      exact Or.inl ⟨job', h, rfl, Nat.le_refl _⟩
    · rw [hjobs, AList.lookup_insert_eq] at h
      split at h
      · next hk =>
        cases h
        exact Or.inr ⟨hk, hnone, hpeers, Nat.lt_of_not_le hfull, rfl⟩
      · exact Or.inl ⟨job', h, rfl, Nat.le_refl _⟩

theorem admitJobPeers_tracks {job : HashJob} (h : s.jobs.lookup k = some job) :
    ((s.admitJobPeers limits hash peers attemptCount).1.jobs.lookup k).isSome = true := by
  obtain hsame | ⟨_, -, hjobs⟩ | ⟨-, -, hjobs⟩ :=
    admitJobPeers_jobs limits hash peers attemptCount s
  · rw [hsame, h]
    rfl
  · rw [hjobs, AList.lookup_insert_eq]
    split
    · rfl
    · rw [h]
      rfl
  · rw [hjobs, AList.lookup_insert_eq]
    split
    · rfl
    · rw [h]
      rfl

/-- A joined round adds its attempts to the count of its job. -/
theorem joinWorker_count {index : Nat} {outcome : JobOutcome}
    (h : (s.joinWorker index outcome).jobs.lookup k = some job') :
    (k ≠ outcome.infoHash ∧ s.jobs.lookup k = some job') ∨
      ∃ job, k = outcome.infoHash ∧ s.jobs.lookup k = some job ∧ job'.running = false ∧
        job'.attemptCount = saturatingAddU32 job.attemptCount outcome.attempts := by
  by_cases hk : k = outcome.infoHash
  · subst hk
    cases hdropped : outcome.complete || outcome.terminal || outcome.parked with
    | true =>
      rw [joinWorker_lookup_dropped hdropped] at h
      cases h
    | false =>
      obtain ⟨job, hj, -⟩ := joinWorker_lookup h
      rw [joinWorker_lookup_kept hdropped hj] at h
      split at h
      · cases h
      · cases h
        exact Or.inr ⟨job, rfl, hj, rfl, rfl⟩
  · rw [joinWorker_lookup_other hk] at h
    exact Or.inl ⟨hk, h⟩

/-- A turn of the dispatch loop changes no count and stops no job. -/
theorem dispatchStep_count {spawn : RoundArgs → ω} (hd : dispatchStep limits spawn s = some s')
    (h : s'.jobs.lookup k = some job') :
    ∃ job, s.jobs.lookup k = some job ∧ job'.attemptCount = job.attemptCount ∧
      (job'.running = false → job.running = false) := by
  obtain ⟨-, hash, ready, -, ⟨rfl, -⟩ | ⟨job, hjob, hidle, hcases⟩⟩ := dispatchStep_cases hd
  · exact ⟨job', h, rfl, id⟩
  · have hinsert : ∀ taken : HashJob, taken.attemptCount = job.attemptCount →
        (s.jobs.insert hash taken).lookup k = some job' → ∃ job, s.jobs.lookup k = some job ∧
          job'.attemptCount = job.attemptCount ∧ (job'.running = false → job.running = false) := by
      intro taken htaken hl
      rw [AList.lookup_insert_eq] at hl
      split at hl
      · next hk =>
        cases hl
        exact ⟨job, by rw [hk, hjob], htaken, fun _ => hidle⟩
      · exact ⟨job', hl, rfl, id⟩
    obtain ⟨rfl, -⟩ | rfl := hcases
    · exact hinsert _ (job.takeRound_attemptCount _) h
    · refine hinsert _ ?_ h
      exact job.takeRound_attemptCount limits.maxPeerAttemptsPerRound

end Scheduler

/-! ## The system -/

namespace System

variable {env : SystemEnv} {y y' z : System} {e : SystemEvent} {k : InfoHash} {n : Int}

/-- The records that the retry scan holds. -/
def loading (y : System) : List HashJobRecord :=
  match y.arm with
  | .scanning todo loaded => todo ++ loaded.map Prod.fst
  | _ => []

/-- No copy of a count is behind the stored one. -/
structure CountsOk (env : SystemEnv) (y : System) : Prop where
  sched : SchedOk env y
  phases : ∀ r ∈ y.sched.workers, r.phase.Counts r.args r.attempts ∧ r.attempts ≤ u32Max
  bounded : ∀ k n, storedCount k y.store.catalogue = some n → n ≤ u32Max
  rounds : ∀ r ∈ y.sched.workers, ∀ n, storedCount r.infoHash y.store.catalogue = some n →
    n ≤ saturatingAddU32 r.args.priorAttemptCount r.attempts
  jobs : ∀ k job, y.sched.jobs.lookup k = some job → job.running = false →
    ∀ n, storedCount k y.store.catalogue = some n → n ≤ job.attemptCount
  tracked : ∀ r ∈ y.sched.workers, ∀ job, y.sched.jobs.lookup r.infoHash = some job →
    r.args.priorAttemptCount ≤ job.attemptCount
  scans : ∀ record ∈ y.loading, ∀ n, storedCount record.infoHash y.store.catalogue = some n →
    n ≤ record.attemptCount

/-- A discovery that starts a job starts it for a hash without counted attempts. -/
def StartsFresh (env : SystemEnv) (y : System) (e : SystemEvent) : Prop :=
  e = .admitted → ∀ d receipt phase, y.arm = .persisting d receipt phase → d.peers ≠ [] →
    y.sched.jobs.lookup d.infoHash = none → y.sched.jobs.count < env.limits.maxActiveHashJobs →
      ∀ n, storedCount d.infoHash y.store.catalogue = some n → n ≤ 0

/-- How an event changes a count: only a round raises it. -/
theorem CountsOk.changed (hi : CountsOk env y) (h : Fires env y e z)
    (hn : storedCount k z.store.catalogue = some n) :
    storedCount k y.store.catalogue = some n ∨ (storedCount k y.store.catalogue = none ∧ n = 0) ∨
      ∃ index choice r, e = .worked index choice ∧ y.sched.workers[index]? = some r ∧
        k = r.infoHash ∧ (storedCount k y.store.catalogue).isSome = true ∧
        n = saturatingAddU32 r.args.priorAttemptCount r.attempts := by
  have hkept : ∀ {c : Catalogue}, CountKept k y.store.catalogue c → storedCount k c = some n →
      storedCount k y.store.catalogue = some n ∨
        (storedCount k y.store.catalogue = none ∧ n = 0) := by
    rintro c (hsame | ⟨hnone, hzero⟩) hc
    · exact Or.inl (hsame ▸ hc)
    · rw [hzero] at hc
      cases hc
      exact Or.inr ⟨hnone, rfl⟩
  by_cases hworked : ∃ index choice, e = .worked index choice
  · obtain ⟨index, choice, rfl⟩ := hworked
    cases h with
    | @worked _ r _ hw =>
      have hcounts := (hi.phases r (List.mem_of_getElem? hw)).1
      have hstep : CountKept k y.store.catalogue
          (r.step env.round choice y.store).2.catalogue ∨ _ := Round.step_count hcounts k
      obtain hsame | ⟨hk, hsome, hcount⟩ := hstep
      · exact (hkept hsame hn).imp id Or.inl
      · rw [show (y.work env index r choice).store = (r.step env.round choice y.store).2 from rfl,
          hcount] at hn
        cases hn
        exact Or.inr (Or.inr ⟨index, choice, r, rfl, hw, hk, hsome, rfl⟩)
  · have hchanges := h.changes
    generalize z.store.catalogue = c at hchanges hn
    cases hchanges with
    | kept => exact Or.inl hn
    | recorded => exact (hkept countKept_recordDiscovery hn).imp id Or.inl
    | batched => exact (hkept countKept_batch hn).imp id Or.inl
    | worked => exact absurd ⟨_, _, rfl⟩ hworked
    | prunedTorrents => exact Or.inl (storedCount_pruneBatch hn)
    | prunedAttempts | reconciled => exact Or.inl hn

theorem CountsOk.bounded_fires (hi : CountsOk env y) (h : Fires env y e z) :
    ∀ k n, storedCount k z.store.catalogue = some n → n ≤ u32Max := by
  intro k n hn
  obtain hold | ⟨-, rfl⟩ | ⟨_, _, _, -, -, -, -, rfl⟩ := hi.changed h hn
  · exact hi.bounded k n hold
  · exact Int.natCast_nonneg _
  · exact Int.ofNat_le.mpr (Nat.min_le_right _ _)

theorem CountsOk.phases_fires (hi : CountsOk env y) (h : Fires env y e z) :
    ∀ r ∈ z.sched.workers, r.phase.Counts r.args r.attempts ∧ r.attempts ≤ u32Max := by
  intro r hr
  cases h.workers hr with
  | kept hold => exact hi.phases r hold
  | spawned => exact ⟨trivial, Nat.zero_le _⟩
  | @stepped _ r choice hw =>
    obtain ⟨hcounts, hbound⟩ := hi.phases r (List.mem_of_getElem? hw)
    have hlogs := Round.step_logs env.round choice r y.store
    rw [Round.step_args]
    exact ⟨hlogs.counts hcounts, (hlogs.attempts_le hbound).2⟩

theorem CountsOk.rounds_fires (hi : CountsOk env y) (h : Fires env y e z) :
    ∀ r ∈ z.sched.workers, ∀ n, storedCount r.infoHash z.store.catalogue = some n →
      n ≤ saturatingAddU32 r.args.priorAttemptCount r.attempts := by
  intro r hr n hn
  cases h.workers hr with
  | kept hold =>
    obtain hsame | ⟨-, rfl⟩ | ⟨index, choice, r', rfl, hw, hk, -, rfl⟩ := hi.changed h hn
    · exact hi.rounds r hold n hsame
    · exact Int.natCast_nonneg _
    · -- the round of the hash is the one that took the step
      rw [hi.sched.unique hold (List.mem_of_getElem? hw) hk]
  | @spawned hash job hready hjob =>
    obtain hsame | ⟨-, rfl⟩ | ⟨_, _, _, heq, -⟩ := hi.changed h hn
    · obtain ⟨own, hown, hidle, -⟩ := hi.sched.inv.ready_idle hash hready
      rw [hjob] at hown
      cases hown
      exact le_saturatingAddU32 (hi.jobs hash job hjob hidle n hsame) (hi.bounded _ n hsame)
    · exact Int.natCast_nonneg _
    · cases heq
  | @stepped index r choice hw =>
    have hmem := List.mem_of_getElem? hw
    have hlogs := Round.step_logs env.round choice r y.store
    have hmore := (hlogs.attempts_le (hi.phases r hmem).2).1
    rw [Round.step_infoHash] at hn
    rw [Round.step_args]
    refine le_trans ?_ (Int.ofNat_le.mpr (saturatingAddU32_mono (Nat.le_refl _) hmore))
    obtain hsame | ⟨-, rfl⟩ | ⟨_, _, r', -, hw', hk, -, rfl⟩ := hi.changed h hn
    · exact hi.rounds r hmem n hsame
    · exact Int.natCast_nonneg _
    · rw [hi.sched.unique hmem (List.mem_of_getElem? hw') hk]

/-! ## Jobs -/

/-- Where the count of a job after an event comes from. -/
inductive JobFrom (env : SystemEnv) (y : System) (k : InfoHash) (job' : HashJob) :
    SystemEvent → Prop
  | kept {e : SystemEvent} {job : HashJob} (hjob : y.sched.jobs.lookup k = some job)
      (hrunning : job'.running = false → job.running = false)
      (hcount : job.attemptCount ≤ job'.attemptCount) : JobFrom env y k job' e
  | discovered {d : HashDiscovery} {receipt : Uuid} {phase : PersistPhase}
      (harm : y.arm = .persisting d receipt phase) (hk : k = d.infoHash) (hpeers : d.peers ≠ [])
      (hnone : y.sched.jobs.lookup k = none)
      (hroom : y.sched.jobs.count < env.limits.maxActiveHashJobs) : JobFrom env y k job' .admitted
  | loaded {record : HashJobRecord} (hrecord : record ∈ y.loading) (hk : k = record.infoHash)
      (hnone : y.sched.jobs.lookup k = none) (hcount : record.attemptCount ≤ job'.attemptCount) :
      JobFrom env y k job' .scanAdmitted
  | joined {index : Nat} {r : Round} {outcome : JobOutcome} {job : HashJob}
      (hw : y.sched.workers[index]? = some r) (hphase : r.phase = .finished outcome)
      (hk : k = outcome.infoHash) (hjob : y.sched.jobs.lookup k = some job)
      (hidle : job'.running = false)
      (hcount : job'.attemptCount = saturatingAddU32 job.attemptCount outcome.attempts) :
      JobFrom env y k job' (.joined index)

theorem scanAdmitted_count {loaded : List (HashJobRecord × List PeerContact)}
    {s : Scheduler Round} {job' : HashJob}
    (h : (loaded.foldl (admitLoaded env) s).jobs.lookup k = some job') :
    (∃ job, s.jobs.lookup k = some job ∧ (job'.running = false → job.running = false) ∧
      job.attemptCount ≤ job'.attemptCount) ∨
    (s.jobs.lookup k = none ∧ ∃ record ∈ loaded.map Prod.fst, k = record.infoHash ∧
      record.attemptCount ≤ job'.attemptCount) := by
  induction loaded generalizing s with
  | nil => exact Or.inl ⟨job', h, id, Nat.le_refl _⟩
  | cons l loaded ih =>
    obtain ⟨job, hjob, hrunning, hcount⟩ | ⟨hnone, record, hrecord, hk, hcount⟩ := ih h
    · obtain ⟨old, hold, hsame, hle⟩ | ⟨hk, hnone, -, -, hstart⟩ :=
        Scheduler.admitJobPeers_count hjob
      · exact Or.inl ⟨old, hold, fun hidle => hsame ▸ hrunning hidle, hle.trans hcount⟩
      · refine Or.inr ⟨hk ▸ hnone, l.1, by simp, hk, ?_⟩
        rwa [← hstart]
    · cases hs : s.jobs.lookup k with
      | none => exact Or.inr ⟨rfl, record, List.mem_cons_of_mem _ hrecord, hk, hcount⟩
      | some old =>
        have hkept : ((admitLoaded env s l).jobs.lookup k).isSome = true :=
          Scheduler.admitJobPeers_tracks hs
        rw [hnone] at hkept
        cases hkept

theorem Fires.jobs (h : Fires env y e z) {job' : HashJob}
    (hjob : z.sched.jobs.lookup k = some job') : JobFrom env y k job' e := by
  cases h with
  | lookedUp =>
    rw [lookUp_sched] at hjob
    exact .kept hjob id (Nat.le_refl _)
  | attempted =>
    rw [attempt_sched] at hjob
    exact .kept hjob id (Nat.le_refl _)
  | admitted harm =>
    simp only [Scheduler.admitDiscovery_jobs] at hjob
    obtain ⟨job, hold, hsame, hle⟩ | ⟨hk, hnone, hpeers, hroom, -⟩ :=
      Scheduler.admitJobPeers_count hjob
    · exact .kept hold (fun hidle => hsame ▸ hidle) hle
    · exact .discovered harm hk hpeers (hk ▸ hnone) hroom
  | scanAdmitted harm =>
    obtain ⟨job, hold, hrunning, hle⟩ | ⟨hnone, record, hrecord, hk, hle⟩ :=
      scanAdmitted_count hjob
    · exact .kept hold hrunning hle
    · exact .loaded (by rwa [loading, harm]) hk hnone hle
  | dispatched harm hd =>
    obtain ⟨job, hold, hsame, hrunning⟩ := Scheduler.dispatchStep_count hd hjob
    exact .kept hold hrunning hsame.ge
  | joined harm hw hphase =>
    obtain ⟨-, hold⟩ | ⟨job, hk, hold, hidle, hcount⟩ := Scheduler.joinWorker_count hjob
    · exact .kept hold id (Nat.le_refl _)
    · exact .joined hw hphase hk hold hidle hcount
  | restarted => simp [Scheduler.empty] at hjob
  | _ => exact .kept hjob id (Nat.le_refl _)

theorem CountsOk.jobs_fires (hi : CountsOk env y) (h : Fires env y e z)
    (hfresh : StartsFresh env y e) {job' : HashJob} (hjob : z.sched.jobs.lookup k = some job')
    (hidle : job'.running = false) (hn : storedCount k z.store.catalogue = some n) :
    n ≤ job'.attemptCount := by
  obtain hsame | ⟨-, rfl⟩ | ⟨index, choice, r, rfl, hw, hk, -, rfl⟩ := hi.changed h hn
  · cases h.jobs hjob with
    | @kept _ job hold hrunning hle =>
      exact (hi.jobs k job hold (hrunning hidle) n hsame).trans (Int.ofNat_le.mpr hle)
    | @discovered d receipt phase harm hk hpeers hnone hroom =>
      subst hk
      exact (hfresh rfl d receipt phase harm hpeers hnone hroom n hsame).trans
        (Int.natCast_nonneg _)
    | @loaded record hrecord hk _ hle =>
      subst hk
      exact (hi.scans record hrecord n hsame).trans (Int.ofNat_le.mpr hle)
    | @joined index r outcome job hw hphase hk hold _ hcount =>
      have hr := List.mem_of_getElem? hw
      obtain ⟨hcounts, -⟩ := hi.phases r hr
      rw [hphase] at hcounts
      have hattempts : outcome.attempts = r.attempts := hcounts
      rw [hk, hi.sched.outcomes r hr outcome hphase] at hsame hold
      rw [hcount, hattempts]
      have htracked := hi.tracked r hr job hold
      exact (hi.rounds r hr n hsame).trans
        (Int.ofNat_le.mpr (saturatingAddU32_mono htracked (Nat.le_refl _)))
  · exact Int.natCast_nonneg _
  · -- the job of a hash whose round takes a step is running
    obtain ⟨job, hrun, hrunning⟩ := hi.sched.worker_job (List.mem_of_getElem? hw)
    cases h with
    | worked =>
      rw [← hk] at hrun
      rw [show (y.work env _ _ _).sched.jobs = y.sched.jobs from rfl, hrun] at hjob
      cases hjob
      rw [hidle] at hrunning
      cases hrunning

theorem CountsOk.tracked_fires (hi : CountsOk env y) (h : Fires env y e z) :
    ∀ r ∈ z.sched.workers, ∀ job, z.sched.jobs.lookup r.infoHash = some job →
      r.args.priorAttemptCount ≤ job.attemptCount := by
  intro r hr job' hjob'
  have hrunning : job'.running = true := by
    obtain ⟨own, hown, hrun⟩ := (hi.sched.fires h).worker_job hr
    rw [hjob'] at hown
    cases hown
    exact hrun
  have hworker : ∀ {r' : Round}, r' ∈ y.sched.workers → r'.infoHash = r.infoHash →
      r'.args.priorAttemptCount ≤ job'.attemptCount := by
    intro r' hr' hhash
    cases h.jobs hjob' with
    | kept hjob _ hle => exact (hi.tracked r' hr' _ (hhash ▸ hjob)).trans hle
    | discovered _ _ _ hnone | loaded _ _ hnone =>
      obtain ⟨own, hown, -⟩ := hi.sched.worker_job hr'
      rw [hhash, hnone] at hown
      cases hown
    | joined _ _ _ _ hidle =>
      rw [hrunning] at hidle
      cases hidle
  cases h.workers hr with
  | kept hold => exact hworker hold rfl
  | @spawned hash job hready hjob =>
    cases h.jobs hjob' with
    | kept hold _ hle =>
      rw [show (Round.spawn _).infoHash = hash from rfl, hjob] at hold
      cases hold
      exact hle
  | @stepped index r' choice hw =>
    rw [Round.step_args]
    exact hworker (List.mem_of_getElem? hw) (Round.step_infoHash ..).symm

/-! ## The retry scan -/

theorem loading_of_ne (h : ∀ todo loaded, y.arm ≠ .scanning todo loaded) : y.loading = [] := by
  rw [loading]
  split
  · next todo loaded harm => exact absurd harm (h todo loaded)
  · rfl

theorem scanned_eq : y.scanned = y.loading.map HashJobRecord.infoHash := by
  rw [scanned, loading]
  cases y.arm with
  | scanning => rfl
  | _ => rfl

/-- A record that starts to be loaded holds the count of its row. -/
theorem Fires.loading (h : Fires env y e z) {record : HashJobRecord} (hr : record ∈ z.loading) :
    record ∈ y.loading ∨ (z.store = y.store ∧ ∀ n,
      storedCount record.infoHash y.store.catalogue = some n → n ≤ record.attemptCount) := by
  cases h with
  | discovered => cases hr
  | lookedUp harm =>
    rw [loading_of_ne (lookUp_arm _ _ y (by simp [harm]))] at hr
    cases hr
  | attempted =>
    rw [loading_of_ne (attempt_arm _ _ _ y)] at hr
    cases hr
  | removed => cases hr
  | admitted => cases hr
  | @scanStarted turn harm =>
    cases hread : Round.readError turn.fate with
    | some _ =>
      rw [hread] at hr
      cases hr
    | none =>
      simp only [System.loading, hread, List.map_nil, List.append_nil] at hr
      refine Or.inr ⟨rfl, ?_⟩
      intro n hn
      obtain ⟨row, hrow, hcount⟩ := dueHashJobs_count (mem_loadable hr).1
      rw [storedCount, hrow] at hn
      cases hn
      rw [hcount]
      exact Int.self_le_toNat _
  | @scanRead first todo loaded turn harm =>
    cases hread : Round.readError turn.fate with
    | some _ =>
      rw [hread] at hr
      cases hr
    | none =>
      left
      simp only [System.loading, hread, harm] at hr ⊢
      simp only [List.map_append, List.map_cons, List.map_nil, List.mem_append, List.mem_cons,
        List.not_mem_nil, or_false] at hr ⊢
      tauto
  | scanAdmitted => cases hr
  | restarted => cases hr
  | _ => exact Or.inl hr

theorem CountsOk.scans_fires (hi : CountsOk env y) (h : Fires env y e z) :
    ∀ record ∈ z.loading, ∀ n, storedCount record.infoHash z.store.catalogue = some n →
      n ≤ record.attemptCount := by
  intro record hr n hn
  obtain hsame | ⟨-, rfl⟩ | ⟨index, choice, r, rfl, hw, hk, -, -⟩ := hi.changed h hn
  · obtain hold | ⟨-, hnew⟩ := h.loading hr
    · exact hi.scans record hold n hsame
    · exact hnew n hsame
  · exact Int.natCast_nonneg _
  · -- a hash with a round has a job, so it is not being loaded
    have hscanned : record.infoHash ∈ z.scanned := by
      rw [scanned_eq]
      exact List.mem_map_of_mem hr
    have huntracked := (hi.sched.fires h).untracked _ hscanned
    obtain ⟨job, hjob, -⟩ := hi.sched.worker_job (List.mem_of_getElem? hw)
    cases h with
    | worked =>
      rw [← hk] at hjob
      rw [show (y.work env _ _ _).sched.jobs = y.sched.jobs from rfl, hjob] at huntracked
      cases huntracked

/-! ## Runs -/

theorem CountsOk.fires (hi : CountsOk env y) (h : Fires env y e z) (hfresh : StartsFresh env y e) :
    CountsOk env z where
  sched := hi.sched.fires h
  phases := hi.phases_fires h
  bounded := hi.bounded_fires h
  rounds := hi.rounds_fires h
  jobs := fun _ _ hjob hidle _ hn => hi.jobs_fires h hfresh hjob hidle hn
  tracked := hi.tracked_fires h
  scans := hi.scans_fires h

theorem CountsOk.clock (hi : CountsOk env z) (now : Int) : CountsOk env { z with clock := now } :=
  ⟨hi.sched.clock now, hi.phases, hi.bounded, hi.rounds, hi.jobs, hi.tracked, hi.scans⟩

theorem CountsOk.step (hi : CountsOk env y) (h : Guarded (StartsFresh env) (Step env) y e y') :
    CountsOk env y' :=
  h.2.lift (fun _ now hz => hz.clock now) fun _ hz => hi.fires hz h.1

theorem CountsOk.starts (h : StartsMigrated y) : CountsOk env y where
  sched := .starts h.1
  phases := by
    rw [h.1.sched]
    rintro r ⟨⟩
  bounded := by
    rw [h.2]
    rintro k n ⟨⟩
  rounds := by
    rw [h.1.sched]
    rintro r ⟨⟩
  jobs := by
    rw [h.1.sched]
    rintro k job ⟨⟩
  tracked := by
    rw [h.1.sched]
    rintro r ⟨⟩
  scans := by
    rw [System.loading, h.1.arm]
    rintro record ⟨⟩

/-- A row that an event leaves in place keeps its count or gets a larger one. -/
theorem CountsOk.count_le (hi : CountsOk env y) (h : Step env y e y') {n' : Int}
    (hn : storedCount k y.store.catalogue = some n)
    (hn' : storedCount k y'.store.catalogue = some n') : n ≤ n' := by
  have hfires : ∀ z, Fires env y e z →
      ∀ n', storedCount k z.store.catalogue = some n' → n ≤ n' := by
    intro z hz n' hn'
    obtain hsame | ⟨hnone, -⟩ | ⟨index, choice, r, rfl, hw, rfl, -, rfl⟩ := hi.changed hz hn'
    · rw [hn] at hsame
      cases hsame
      exact le_refl _
    · rw [hn] at hnone
      cases hnone
    · exact hi.rounds r (List.mem_of_getElem? hw) n hn
  exact h.lift (fun _ _ hz => hz) hfires n' hn'

/-- The event starts a job afresh, and the hash has a job row before it. -/
def FreshWithRow (env : SystemEnv) (k : InfoHash) (y : System) (e : SystemEvent) : Prop :=
  StartsFresh env y e ∧ (storedCount k y.store.catalogue).isSome = true

/-- As long as every discovery that starts a job finds no counted attempts, the count of a row
does not fall while the row exists. -/
theorem counts_never_fall {y₀ : System} {es₀ es : List SystemEvent} {n' : Int}
    (hs : StartsMigrated y₀) (h₀ : Run (Guarded (StartsFresh env) (Step env)) y₀ es₀ y)
    (h : Run (Guarded (FreshWithRow env k) (Step env)) y es y')
    (hn : storedCount k y.store.catalogue = some n)
    (hn' : storedCount k y'.store.catalogue = some n') : n ≤ n' := by
  have hi : CountsOk env y := h₀.invariant (fun _ _ _ hy hst => hy.step hst) (.starts hs)
  have hrun : CountsOk env y' ∧
      ∀ n', storedCount k y'.store.catalogue = some n' → n ≤ n' := by
    clear hn'
    induction h with
    | refl =>
      refine ⟨hi, ?_⟩
      intro n' hn'
      rw [hn] at hn'
      cases hn'
      exact le_refl _
    | snoc _ hst ih =>
      obtain ⟨hok, hle⟩ := ih
      obtain ⟨⟨hfresh, hrow⟩, hstep⟩ := hst
      refine ⟨hok.step ⟨hfresh, hstep⟩, ?_⟩
      intro n' hn'
      obtain ⟨m, hm⟩ := Option.isSome_iff_exists.mp hrow
      exact (hle m hm).trans (hok.count_le hstep hm hn')
  exact hrun.2 n' hn'

/-- No admission starts a job for a hash with counted attempts. -/
def startsFresh (y : System) (e : SystemEvent) : Bool :=
  match e, y.arm with
  | .admitted, .persisting d _ _ => (storedCount d.infoHash y.store.catalogue).all (· ≤ 0)
  | _, _ => true

theorem startsFresh_sound (h : startsFresh y e = true) : StartsFresh env y e := by
  rintro rfl d receipt phase harm - - - n hn
  simp only [startsFresh, harm, hn, Option.all_some] at h
  exact of_decide_eq_true h

/-- A hash with two peers is retried, and its job stays in memory between the rounds. -/
theorem counts_never_fall_retried :
    let env : SystemEnv :=
      ⟨⟨.ascii, ⟨fun _ => 8, fun _ => .error "no dictionary"⟩, 24⟩,
        ⟨1, 1, 2, 1, by decide, by decide, by decide, by decide⟩⟩
    let turn : Turn := ⟨1, 1048576, .commits⟩
    let start : System := ⟨.migrated, .empty, .idle, 0, [], []⟩
    let round : List SystemEvent := .dispatched ::
      List.replicate 8 (.worked 0 ⟨turn, .error (.timeout .connect), 0⟩)
    let found : List SystemEvent :=
      [.discovered ⟨7, [⟨⟨⟨10, 0, 0, 1⟩, 6881⟩⟩, ⟨⟨⟨10, 0, 0, 2⟩, 6881⟩⟩], .announcePeer⟩ 1,
        .lookedUp, .attempted turn, .removed .commits, .admitted]
    ∃ y y', play env (found ++ round) start = some y ∧
      play env (.joined 0 :: round) y = some y' ∧
      storedCount 7 y.store.catalogue = some 1 ∧
      ∀ n, storedCount 7 y'.store.catalogue = some n → 1 ≤ n := by
  intro env turn start round found
  let kept (y : System) (e : SystemEvent) : Bool :=
    startsFresh y e && (storedCount 7 y.store.catalogue).isSome
  have hrun : (play env (found ++ round) start).any (fun y =>
      storedCount 7 y.store.catalogue = some 1 ∧
        (play env (.joined 0 :: round) y).isSome = true ∧
        checked env kept (.joined 0 :: round) y = true) = true := by
    decide
  have hfresh : checked env startsFresh (found ++ round) start = true := by
    decide
  obtain ⟨y, hplay, hy⟩ := (Option.any_eq_true _ _).mp hrun
  obtain ⟨hcount, hsome, hkept⟩ := of_decide_eq_true hy
  obtain ⟨y', hplay'⟩ := Option.isSome_iff_exists.mp hsome
  have hkept_sound : ∀ y e, kept y e = true → FreshWithRow env 7 y e := by
    intro y e hk
    obtain ⟨hs, hrow⟩ := Bool.and_eq_true_iff.mp hk
    exact ⟨startsFresh_sound hs, hrow⟩
  refine ⟨y, y', hplay, hplay', hcount, ?_⟩
  intro n hn
  exact counts_never_fall ⟨⟨rfl, rfl, rfl, rfl⟩, rfl⟩
    (play_guarded (fun _ _ => startsFresh_sound) hplay hfresh)
    (play_guarded hkept_sound hplay' hkept) hcount hn

/-- Two attempts fail and the hash is dropped until its retry. It is discovered again with one
more peer before it is due, and the round of that peer writes a smaller count. -/
theorem rediscovery_lowers_count :
    let env : SystemEnv :=
      ⟨⟨.ascii, ⟨fun _ => 8, fun _ => .error "no dictionary"⟩, 24⟩,
        ⟨1, 1, 2, 2, by decide, by decide, by decide, by decide⟩⟩
    let turn : Turn := ⟨1, 1048576, .commits⟩
    let timedOut : SystemEvent := .worked 0 ⟨turn, .error (.timeout .connect), 0⟩
    ∃ y y', Reachable StartsMigrated (Step env) y ∧ Step env y timedOut y' ∧
      storedCount 7 y.store.catalogue = some 2 ∧ storedCount 7 y'.store.catalogue = some 1 := by
  intro env turn timedOut
  let start : System := ⟨.migrated, .empty, .idle, 0, [], []⟩
  let found (receipt : Uuid) (peers : List PeerContact) : List SystemEvent :=
    [.discovered ⟨7, peers, .announcePeer⟩ receipt, .lookedUp, .attempted turn,
      .removed .commits, .admitted, .dispatched]
  let script : List SystemEvent :=
    found 1 [⟨⟨⟨10, 0, 0, 1⟩, 6881⟩⟩, ⟨⟨⟨10, 0, 0, 2⟩, 6881⟩⟩] ++ List.replicate 12 timedOut ++
      [.joined 0] ++ found 2 [⟨⟨⟨10, 0, 0, 3⟩, 6881⟩⟩] ++ List.replicate 7 timedOut
  have hrun : (play env script start).any (fun y =>
      storedCount 7 y.store.catalogue = some 2 ∧ (next env timedOut y).any (fun y' =>
        storedCount 7 y'.store.catalogue = some 1) = true) = true := by
    decide
  obtain ⟨y, hplay, hy⟩ := (Option.any_eq_true _ _).mp hrun
  obtain ⟨htwo, hlast⟩ := of_decide_eq_true hy
  obtain ⟨y', hstep, hone⟩ := (Option.any_eq_true _ _).mp hlast
  have hinit : Reachable StartsMigrated (Step env) start := .of_init ⟨⟨rfl, rfl, rfl, rfl⟩, rfl⟩
  exact ⟨y, y', hinit.run (play_run hplay), hstep, htwo, of_decide_eq_true hone⟩

end System

end Btfind
