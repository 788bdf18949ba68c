import Btfind.Metadata.TerminalJobs

/-!
# Pending peers

What becomes of the peers that are pending in memory when a round is joined. A
round parks its job by the result of its own peers, without a look at the pending
ones, so a round may park only when its hash has no work left.
-/

namespace Btfind

/-- The round cannot park its job any more: it has still to check the status, it has
got metadata, or a peer has failed in a way that is retried. -/
def Round.cannotPark (r : Round) : Bool :=
  match r.phase with
  | .checkTerminal | .committing _ _ _ | .markUnsupported _ | .markTerminal _
  | .scheduling _ _ => true
  | .parking _ => false
  | .finished outcome => !outcome.parked
  | _ => 0 < r.retryableAttempts

namespace Round

variable {env : RoundEnv} {choice : Choice} {r : Round} {s : Store}

/-- After a failure that is retried the round schedules a retry. -/
theorem conclude_cannotPark (now : Int) (jitter : Nat) (h : 0 < r.retryableAttempts) :
    (r.conclude env now jitter).cannotPark = true := by
  rw [conclude]
  simp only
  split
  · next hnone =>
    exfalso
    rw [nextPeerEligibility, earliest] at hnone
    by_cases hhours : 0 < env.retryAfterHours
    · simp [h, hhours] at hnone
    · have hzero : env.retryAfterHours = 0 := by omega
      simp [h, hzero] at hnone
  · rfl

theorem filterPeer_cannotPark (turn : Turn) (peer : PeerContact) (todo eligible : List PeerContact)
    (c : Catalogue) (h : 0 < r.retryableAttempts) :
    (r.filterPeer env turn peer todo eligible c).cannotPark = true := by
  have hpos : decide (0 < r.retryableAttempts) = true := decide_eq_true h
  rw [filterPeer]
  split
  · exact hpos
  · split <;> exact hpos

theorem receive_cannotPark (fetched : Except MetadataFetchError Bytes) (peer : PeerContact)
    (todo : List PeerContact) (h : 0 < r.retryableAttempts) :
    (r.receive env fetched peer todo).cannotPark = true := by
  unfold receive
  split
  · split
    · exact decide_eq_true h
    · split <;> rfl
  · exact decide_eq_true (saturatingAddU32_pos r.retryableAttempts)

theorem storageFailed_cannotPark (message : String) (todo : List PeerContact) :
    (r.storageFailed message todo).cannotPark = true :=
  decide_eq_true (saturatingAddU32_pos r.retryableAttempts)

theorem commitFailed_cannotPark (e : StoreError) (todo : List PeerContact) :
    (r.commitFailed e todo).cannotPark = true := by
  rw [commitFailed]
  split
  · rfl
  · exact storageFailed_cannotPark _ todo

theorem commit_cannotPark (turn : Turn) (info : TorrentInfo) (attempt : Nat)
    (todo : List PeerContact) (s : Store) :
    (r.commit env turn info attempt todo s).1.cannotPark = true := by
  rw [commit]
  split
  · simp only
    exact commitFailed_cannotPark _ todo
  · split
    · rfl
    · split
      · rfl
      · simp only
        exact commitFailed_cannotPark _ todo

/-- A round that cannot park goes on so, unless its check finds an open job. -/
theorem step_cannotPark (h : r.cannotPark = true)
    (hcheck : r.phase = .checkTerminal → hashJobIsTerminal r.infoHash s.catalogue = true) :
    (r.step env choice s).1.cannotPark = true := by
  rw [step]
  simp only
  rw [cannotPark] at h
  split
  · next hp =>
    have hterminal : hashJobIsTerminal r.args.infoHash s.catalogue = true := hcheck hp
    split
    · simp [cannotPark, hp]
    · simp [hterminal, cannotPark, outcome]
  · next hp => simpa [cannotPark, hp] using h
  · next hp => exact filterPeer_cannotPark _ _ _ _ _ (by simpa [hp] using h)
  · next hp => exact conclude_cannotPark _ _ (by simpa [hp] using h)
  · next hp =>
    split
    · simpa [cannotPark, hp] using h
    · exact storageFailed_cannotPark _ _
  · next hp => exact receive_cannotPark _ _ _ (by simpa [hp] using h)
  · next hp => simpa [cannotPark, hp] using h
  · next hp => simpa [cannotPark, hp] using h
  · exact commit_cannotPark _ _ _ _ _
  · next hp =>
    split
    · rfl
    · simp [cannotPark, hp]
  · rfl
  · next hp => simp [hp] at h
  · rfl
  · next hp => simpa [cannotPark, hp] using h

end Round

namespace System

open Transaction Transition

variable {env : SystemEnv} {y y' z : System} {e : SystemEvent} {k : InfoHash} {c : Catalogue}

/-- Some round has recorded an attempt on the peer for the hash. -/
def Attempted (y : System) (k : InfoHash) (addr : SocketAddrV4) : Prop :=
  ∃ task t, PeerLog.attempt task k addr t ∈ y.log

/-- The hash has no work left: no peer is pending in memory, no committed discovery
is still to be admitted, and every stored peer was attempted at some time of the run. -/
structure Spent (y : System) (k : InfoHash) : Prop where
  pending : ∀ job, y.sched.jobs.lookup k = some job → job.peers = []
  admitting : ∀ d, y.Persisted d → d.infoHash = k → d.peers = []
  stored : ∀ addr, HasPeer k addr y.store.catalogue → y.Attempted k addr

/-- The scheduler knows the hash: it has a job, or one is being loaded or admitted. -/
def Held (y : System) (k : InfoHash) : Prop :=
  (y.sched.jobs.lookup k).isSome = true ∨ k ∈ y.scanned ∨
    ∃ d, y.Persisted d ∧ d.infoHash = k ∧ d.peers ≠ []

/-- A round parks its job only if no work is left, not even a stored peer that was never
attempted in the run, and no torrent is pruned while the scheduler knows its hash. -/
structure Careful (y : System) (e : SystemEvent) : Prop where
  parks : ∀ index choice r attemptCount, e = .worked index choice →
    y.sched.workers[index]? = some r → r.phase = .parking attemptCount →
    (∀ failure, choice.turn.fate ≠ .fails failure) → y.Spent r.infoHash
  spares : ∀ k, y.Held k → Spares k y e

/-- The database has a job and a peer of the hash. -/
def Durable (k : InfoHash) (c : Catalogue) : Prop :=
  (jobStatus k c).isSome = true ∧ ∃ addr, HasPeer k addr c

structure WorkOk (env : SystemEnv) (y : System) : Prop where
  jobs : JobsOk env y
  authentic : Authentic env y
  durable : ∀ k, y.Held k → Durable k y.store.catalogue
  rounds : ∀ r ∈ y.sched.workers, r.cannotPark = true ∨ JobOpen r.infoHash y.store.catalogue
  spent : ∀ k, jobStatus k y.store.catalogue = some .waitingPeers → y.Spent k

/-! ## The database -/

/-- Only a prune deletes jobs and the last peer of a hash. -/
theorem Changes.durable (hc : Changes env y e c) (hspares : Spares k y e)
    (hd : Durable k y.store.catalogue) : Durable k c := by
  obtain ⟨hjob, hpeer⟩ := hd
  cases hc with
  | kept => exact ⟨hjob, hpeer⟩
  | recorded =>
    refine ⟨?_, recordDiscovery_keepsPeer env.limits.maxPeersPerHash_pos hpeer⟩
    rw [jobStatus_recordDiscovery]
    exact discover_isSome hjob
  | batched =>
    refine ⟨batch_isSome hjob, ?_⟩
    simpa only [HasPeer, batch_hashJobPeers] using hpeer
  | worked hw hwrites =>
    cases hwrites with
    | attempt => exact ⟨hjob, hpeer⟩
    | commit hphase hcommit =>
      obtain ⟨old, hcommitted⟩ := commitMetadataTx_ok hcommit
      constructor
      · rw [hcommitted.jobStatus]
        split
        · rfl
        · exact hjob
      · simpa only [HasPeer, hcommitted.hashJobPeers] using hpeer
    | update hphase heffect hupdate =>
      constructor
      · rw [jobStatus_update hupdate]
        split
        · rfl
        · exact hjob
      · rw [updateHashJobFailureTx_frame hupdate]
        exact hpeer
  | prunedTorrents turn cutoff =>
    have hkept := hspares turn cutoff rfl
    constructor
    · rwa [jobStatus_pruneBatch, if_neg hkept]
    · exact hpeer.imp fun addr haddr => (hasPeer_pruneBatch cutoff _).mpr ⟨hkept, haddr⟩
  | prunedAttempts => exact ⟨hjob, hpeer⟩
  | reconciled => exact ⟨hjob, hpeer⟩

/-- A peer that becomes stored belongs to the discovery that is recorded. -/
theorem Changes.hasPeer {addr : SocketAddrV4} (hc : Changes env y e c) (hp : HasPeer k addr c) :
    HasPeer k addr y.store.catalogue ∨ jobStatus k c ≠ some .waitingPeers := by
  cases hc with
  | kept => exact Or.inl hp
  | recorded =>
    obtain hold | ⟨rfl, hnew⟩ := hp.of_recordDiscovery
    · exact Or.inl hold
    · refine Or.inr (recordDiscovery_ne_waiting env.limits.maxPeersPerHash_pos ?_)
      rintro hnil
      simp [hnil] at hnew
  | batched =>
    left
    simpa only [HasPeer, batch_hashJobPeers] using hp
  | worked hw hwrites =>
    left
    cases hwrites with
    | attempt => exact hp
    | commit hphase hcommit =>
      obtain ⟨old, hcommitted⟩ := commitMetadataTx_ok hcommit
      simpa only [HasPeer, hcommitted.hashJobPeers] using hp
    | update hphase heffect hupdate =>
      rwa [updateHashJobFailureTx_frame hupdate] at hp
  | prunedTorrents => exact Or.inl ((hasPeer_pruneBatch _ _).mp hp).2
  | prunedAttempts => exact Or.inl hp
  | reconciled => exact Or.inl hp

/-- An open job stays open, or its round takes a step after which it cannot park. -/
theorem Authentic.jobOpen (hi : Authentic env y) (hc : Changes env y e c) (hspares : Spares k y e)
    (ho : JobOpen k y.store.catalogue) : JobOpen k c ∨
      ∃ index r choice, e = .worked index choice ∧ y.sched.workers[index]? = some r ∧
        r.infoHash = k ∧ r.cannotPark = true ∧ r.phase ≠ .checkTerminal := by
  have hsame : jobStatus k c = jobStatus k y.store.catalogue → JobOpen k c := by
    intro hsame
    rwa [JobOpen, hsame]
  have hdone := (hi.torrents k).incomplete ho.not_terminal
  cases hc with
  | kept => exact Or.inl ho
  | recorded =>
    left
    rw [JobOpen, jobStatus_recordDiscovery]
    exact discover_open hdone ho
  | batched turn events snapshot receipt =>
    left
    let Ok (c : Catalogue) : Prop :=
      CompletedOk env.round.unicode (Storable env.round.codecs y.received) c k ∧ JobOpen k c
    have hok : Ok (recordRuntimeBatch turn.now events snapshot y.store.catalogue).2 := by
      refine recordRuntimeBatch_induction (P := Ok) ⟨hi.torrents k, ho⟩ ?_ ?_
      · rintro c hash source ⟨hcompleted, hopen⟩
        exact ⟨hcompleted.discover _ _ _ _,
          discover_open (hcompleted.incomplete hopen.not_terminal) hopen⟩
      · rintro c c' ⟨hcompleted, hopen⟩ hcore
        refine ⟨hcompleted.of_core hcore, ?_⟩
        rwa [JobOpen, jobStatus, hcore.hashJobs]
    exact hok.2
  | @worked index r choice _ hw hwrites =>
    cases hwrites with
    | attempt => exact Or.inl ho
    | commit hphase hcommit =>
      obtain ⟨old, hcommitted⟩ := commitMetadataTx_ok hcommit
      -- A commit closes the job of its own hash only.
      by_cases hk : k = r.args.infoHash
      · exact Or.inr ⟨index, r, choice, rfl, hw, hk.symm, by simp [Round.cannotPark, hphase],
          by simp [hphase]⟩
      · exact Or.inl (hsame (by rw [hcommitted.jobStatus, if_neg hk]))
    | @update status _ _ _ _ _ hphase heffect hupdate =>
      have hstatus := jobStatus_update hupdate (k := k)
      split at hstatus
      · next hk =>
        cases hopen : status.isTerminal with
        | false => exact Or.inl ⟨status, hstatus, hopen⟩
        | true =>
          -- A write that closes the job comes from a phase that does not park.
          refine Or.inr ⟨index, r, choice, rfl, hw, hk.1.symm, ?_⟩
          unfold RoundPhase.writes at hphase
          split at hphase
          · next hp => exact ⟨by simp [Round.cannotPark, hp], by simp [hp]⟩
          · next hp => exact ⟨by simp [Round.cannotPark, hp], by simp [hp]⟩
          · cases hphase
            cases hopen
          · cases hphase
            cases hopen
          · cases hphase
      · exact Or.inl (hsame hstatus)
  | prunedTorrents turn cutoff =>
    exact Or.inl (hsame (by rw [jobStatus_pruneBatch, if_neg (hspares turn cutoff rfl)]))
  | prunedAttempts => exact Or.inl ho
  | reconciled => exact Or.inl ho

/-! ## What the scheduler knows -/

theorem scanAdmitted_lookup {loaded : List (HashJobRecord × List PeerContact)}
    {s : Scheduler Round} {job' : HashJob}
    (h : (loaded.foldl (admitLoaded env) s).jobs.lookup k = some job') :
    (∃ job, s.jobs.lookup k = some job ∧ job'.peers ⊆ job.peers) ∨
      k ∈ (loaded.map Prod.fst).map HashJobRecord.infoHash := by
  induction loaded generalizing s with
  | nil => exact Or.inl ⟨job', h, List.Subset.refl _⟩
  | cons l loaded ih =>
    obtain ⟨job, hjob, hsub⟩ | hm := ih h
    · obtain ⟨old, hold, hsub'⟩ | ⟨hk, -⟩ := Scheduler.admitJobPeers_lookup hjob
      · exact Or.inl ⟨old, hold, List.Subset.trans hsub hsub'⟩
      · exact Or.inr (by simp [hk])
    · exact Or.inr (List.mem_cons_of_mem _ hm)

/-- A hash becomes known by a commit of its discovery or because it is due. -/
theorem Fires.held (h : Fires env y e z) (hk : z.Held k) : y.Held k ∨
    Durable k z.store.catalogue := by
  obtain hjob | hscan | ⟨d, hd, rfl, hpeers⟩ := hk
  · left
    obtain ⟨job', hjob'⟩ := Option.isSome_iff_exists.mp hjob
    have htracked : ∀ job, y.sched.jobs.lookup k = some job → y.Held k :=
      fun job hj => Or.inl (by rw [hj]; rfl)
    cases h with
    | lookedUp =>
      rw [lookUp_sched] at hjob'
      exact htracked job' hjob'
    | attempted =>
      rw [attempt_sched] at hjob'
      exact htracked job' hjob'
    | @admitted d receipt persisted harm =>
      simp only [Scheduler.admitDiscovery_jobs] at hjob'
      obtain ⟨old, hold, -⟩ | ⟨rfl, hpeers⟩ := Scheduler.admitJobPeers_lookup hjob'
      · exact htracked old hold
      · exact Or.inr (Or.inr ⟨d, ⟨receipt, _, harm, Or.inl rfl⟩, rfl, hpeers⟩)
    | @scanAdmitted loaded harm =>
      obtain ⟨job, hj, -⟩ | hm := scanAdmitted_lookup hjob'
      · exact htracked job hj
      · refine Or.inr (Or.inl ?_)
        rwa [System.scanned, harm]
    | dispatched harm hd =>
      obtain ⟨job, hj, -⟩ := Scheduler.dispatchStep_lookup hd hjob'
      exact htracked job hj
    | joined =>
      obtain ⟨job, hj, -⟩ := Scheduler.joinWorker_lookup hjob'
      exact htracked job hj
    | restarted => simp [Scheduler.empty] at hjob'
    | _ => exact htracked job' hjob'
  · obtain hold | ⟨hstore, now, row, hrow, hdue⟩ := h.scanned hscan
    · exact Or.inl (Or.inr (Or.inl hold))
    · rw [hstore]
      exact Or.inr ⟨by rw [jobStatus, hrow]; rfl, (isDue_iff.mp hdue).2.2⟩
  · obtain hold | ⟨turn, -, hcat⟩ := h.persisted hd
    · exact Or.inl (Or.inr (Or.inr ⟨d, hold, rfl, hpeers⟩))
    · rw [hcat]
      exact Or.inr ⟨recordDiscovery_isSome env.limits.maxPeersPerHash_pos hpeers,
        recordDiscovery_hasPeer env.limits.maxPeersPerHash_pos hpeers⟩

theorem WorkOk.durable_fires (hi : WorkOk env y) (h : Fires env y e z) (hcare : Careful y e)
    (hk : z.Held k) : Durable k z.store.catalogue := by
  obtain hold | hnew := h.held hk
  · exact h.changes.durable (hcare.spares k hold) (hi.durable k hold)
  · exact hnew

/-! ## Rounds -/

theorem WorkOk.held (hi : WorkOk env y) {r : Round} (hr : r ∈ y.sched.workers) :
    y.Held r.infoHash := by
  obtain ⟨job, hjob, -⟩ := hi.jobs.sched.worker_job hr
  exact Or.inl (by rw [hjob]; rfl)

theorem WorkOk.rounds_fires (hi : WorkOk env y) (h : Fires env y e z) (hcare : Careful y e)
    {r : Round} (hr : r ∈ z.sched.workers) :
    r.cannotPark = true ∨ JobOpen r.infoHash z.store.catalogue := by
  have hopen : y.Held r.infoHash → JobOpen r.infoHash y.store.catalogue →
      r.cannotPark = true ∨ JobOpen r.infoHash z.store.catalogue := by
    intro hheld ho
    obtain hz | ⟨index, r₀, choice, rfl, hw, hk, hpark, hphase⟩ :=
      hi.authentic.jobOpen h.changes (hcare.spares _ hheld) ho
    · exact Or.inr hz
    · left
      rw [hi.jobs.sched.stepped_eq h hw hr hk.symm]
      exact Round.step_cannotPark hpark fun hp => absurd hp hphase
  cases h.workers hr with
  | kept hold =>
    obtain hpark | ho := hi.rounds r hold
    · exact Or.inl hpark
    · exact hopen (hi.held hold) ho
  | spawned => exact Or.inl rfl
  | @stepped index r₀ choice hw =>
    have hr₀ := List.mem_of_getElem? hw
    rw [Round.step_infoHash] at hopen ⊢
    obtain hpark | ho := hi.rounds r₀ hr₀
    · by_cases hcheck : r₀.phase = .checkTerminal →
          hashJobIsTerminal r₀.infoHash y.store.catalogue = true
      · exact Or.inl (Round.step_cannotPark hpark hcheck)
      · -- the round has found its job open
        rw [Classical.not_imp, Bool.not_eq_true] at hcheck
        exact hopen (hi.held hr₀) (.of_isSome (hi.durable _ (hi.held hr₀)).1 hcheck.2)
    · exact hopen (hi.held hr₀) ho

/-! ## Waiting jobs -/

theorem Attempted.fires {addr : SocketAddrV4} (ha : y.Attempted k addr) (h : Fires env y e z) :
    z.Attempted k addr := by
  obtain ⟨task, t, hm⟩ := ha
  obtain hsame | ⟨index, r, choice, -, -, hgrown⟩ := h.log
  · exact ⟨task, t, hsame ▸ hm⟩
  · exact ⟨task, t, hgrown ▸ List.mem_append_left _ hm⟩

/-- A hash without work gets none while its job waits. -/
theorem Spent.fires (hs : y.Spent k) (h : Fires env y e z) (hscan : k ∉ y.scanned)
    (hwaiting : jobStatus k z.store.catalogue = some .waitingPeers) : z.Spent k where
  pending := by
    intro job' hjob'
    -- A job of the hash has no other peers afterwards than before.
    have hsub : ∀ job, y.sched.jobs.lookup k = some job → job'.peers ⊆ job.peers →
        job'.peers = [] := by
      intro job hj hsub
      rw [hs.pending job hj] at hsub
      exact List.subset_nil.mp hsub
    cases h with
    | lookedUp =>
      rw [lookUp_sched] at hjob'
      exact hs.pending job' hjob'
    | attempted =>
      rw [attempt_sched] at hjob'
      exact hs.pending job' hjob'
    | @admitted d receipt persisted harm =>
      simp only [Scheduler.admitDiscovery_jobs] at hjob'
      obtain ⟨old, hold, hpeers⟩ | ⟨rfl, hpeers⟩ := Scheduler.admitJobPeers_lookup hjob'
      · exact hsub old hold hpeers
      · exact absurd (hs.admitting d ⟨receipt, _, harm, Or.inl rfl⟩ rfl) hpeers
    | @scanAdmitted loaded harm =>
      obtain ⟨job, hj, hpeers⟩ | hm := scanAdmitted_lookup hjob'
      · exact hsub job hj hpeers
      · refine absurd ?_ hscan
        rwa [System.scanned, harm]
    | dispatched harm hd =>
      obtain ⟨job, hj, hpeers⟩ := Scheduler.dispatchStep_lookup hd hjob'
      exact hsub job hj hpeers
    | joined =>
      obtain ⟨job, hj, hpeers⟩ := Scheduler.joinWorker_lookup hjob'
      exact hsub job hj (hpeers ▸ List.Subset.refl _)
    | restarted => simp [Scheduler.empty] at hjob'
    | _ => exact hs.pending job' hjob'
  admitting := by
    rintro d hd rfl
    obtain hold | ⟨turn, -, hcat⟩ := h.persisted hd
    · exact hs.admitting d hold rfl
    -- A discovery with peers takes the job out of waiting.
    · by_contra hpeers
      rw [hcat] at hwaiting
      exact recordDiscovery_ne_waiting env.limits.maxPeersPerHash_pos hpeers hwaiting
  stored := by
    intro addr hp
    obtain hold | hne := h.changes.hasPeer hp
    · exact (hs.stored addr hold).fires h
    · exact absurd hwaiting hne

/-- A parking write that fails leaves the database alone. -/
theorem parking_fails {r : Round} {choice : Choice} {s : Store} {attemptCount : Nat}
    {failure : StoreError} (hp : r.phase = .parking attemptCount)
    (hf : choice.turn.fate = .fails failure) : (r.step env.round choice s).2 = s := by
  rw [Round.step]
  simp only [hp, Round.updateJob, hf, transact_fails]

theorem WorkOk.spent_fires (hi : WorkOk env y) (h : Fires env y e z) (hcare : Careful y e)
    (hwaiting : jobStatus k z.store.catalogue = some .waitingPeers) : z.Spent k := by
  by_cases hold : jobStatus k y.store.catalogue = some .waitingPeers
  · exact (hi.spent k hold).fires h (hi.jobs.parked k hold).unscanned hwaiting
  · -- a round has just parked the job
    obtain hold' | ⟨index, r, choice, rfl, hw, rfl, hwrites⟩ := h.changes.roundResult rfl hwaiting
    · exact absurd hold' hold
    · have hparking : ∃ attemptCount, r.phase = .parking attemptCount := by
        unfold RoundPhase.writes at hwrites
        split at hwrites
        · cases hwrites
        · split at hwrites <;> cases hwrites
        · next attemptCount hp => exact ⟨attemptCount, hp⟩
        · cases hwrites
        · cases hwrites
      obtain ⟨attemptCount, hp⟩ := hparking
      have hspent : y.Spent r.infoHash := by
        refine hcare.parks index choice r attemptCount rfl hw hp ?_
        intro failure hf
        refine hold ?_
        rw [← hwaiting]
        cases h with
        | worked _ hw' =>
          rw [hw] at hw'
          cases hw'
          simp only [work, parking_fails hp hf]
      refine hspent.fires h ?_ hwaiting
      intro hscan
      obtain ⟨job, hjob, -⟩ := hi.jobs.sched.worker_job (List.mem_of_getElem? hw)
      rw [hi.jobs.sched.untracked _ hscan] at hjob
      cases hjob

theorem WorkOk.fires (hi : WorkOk env y) (h : Fires env y e z) (hcare : Careful y e) :
    WorkOk env z where
  jobs := hi.jobs.fires h
  authentic := hi.authentic.fires h
  durable := fun _ hk => hi.durable_fires h hcare hk
  rounds := fun _ hr => hi.rounds_fires h hcare hr
  spent := fun _ hw => hi.spent_fires h hcare hw

theorem WorkOk.clock (hi : WorkOk env z) (now : Int) : WorkOk env { z with clock := now } where
  jobs := hi.jobs.clock now
  authentic := ⟨hi.authentic.torrents, hi.authentic.committing⟩
  durable := hi.durable
  rounds := hi.rounds
  spent := fun k hk => ⟨(hi.spent k hk).pending, (hi.spent k hk).admitting, (hi.spent k hk).stored⟩

theorem WorkOk.step (hi : WorkOk env y) (h : Guarded Careful (Step env) y e y') :
    WorkOk env y' :=
  h.2.lift (fun _ now hz => hz.clock now) fun _ hz => hi.fires hz h.1

theorem WorkOk.starts (h : StartsMigrated y) : WorkOk env y where
  jobs := .starts h.1
  authentic := .starts h
  durable := by
    rintro k (hjob | hscan | ⟨d, ⟨receipt, phase, harm, -⟩, -⟩)
    · rw [h.1.sched] at hjob
      cases hjob
    · rw [scanned, h.1.arm] at hscan
      cases hscan
    · rw [h.1.arm] at harm
      cases harm
  rounds := by
    rw [h.1.sched]
    rintro r ⟨⟩
  spent := by
    rw [h.2]
    rintro k ⟨⟩

/-! ## Joined rounds -/

/-- What the joining of a round keeps of the peers that are pending for its hash. -/
def KeepsPending (y : System) (outcome : JobOutcome) (y' : System) : Prop :=
  ∀ job, y.sched.jobs.lookup outcome.infoHash = some job → ∀ p ∈ job.peers,
    (∃ job', y'.sched.jobs.lookup outcome.infoHash = some job' ∧ p ∈ job'.peers) ∨
      ∃ t, DueAt t outcome.infoHash y'.store.catalogue

theorem WorkOk.joined {index : Nat} {r : Round} {outcome : JobOutcome} (hi : WorkOk env y)
    (h : Step env y (.joined index) y') (hw : y.sched.workers[index]? = some r)
    (hphase : r.phase = .finished outcome) (hcomplete : outcome.complete = false)
    (hterminal : outcome.terminal = false) : KeepsPending y outcome y' := by
  intro job hjob p hp
  have hr := List.mem_of_getElem? hw
  have hhash := hi.jobs.sched.outcomes r hr outcome hphase
  have hy' : y' = { y with sched := y.sched.joinWorker index outcome } := by
    obtain ⟨z, hz, hnow⟩ := h.fires
    cases hz with
    | joined harm hw' hphase' =>
      rw [hw] at hw'
      cases hw'
      rw [hphase] at hphase'
      cases hphase'
      exact hnow
  subst hy'
  cases hparked : outcome.parked with
  | false =>
    refine Or.inl ⟨_, (Scheduler.joinWorker_lookup_kept
      (by simp [hcomplete, hterminal, hparked]) hjob).trans (if_neg ?_), hp⟩
    simpa using List.ne_nil_of_mem hp
  | true =>
    right
    have hopen : JobOpen r.infoHash y.store.catalogue := by
      refine (hi.rounds r hr).resolve_left ?_
      simp [Round.cannotPark, hphase, hparked]
    obtain ⟨s, hs, hsopen⟩ := hopen
    rw [hhash] at hjob ⊢
    have hne : s ≠ .waitingPeers := by
      rintro rfl
      rw [(hi.spent _ hs).pending job hjob] at hp
      cases hp
    obtain ⟨row, hrow, rfl⟩ := Option.map_eq_some_iff.mp hs
    refine ⟨row.nextAttemptAt, row, hrow, isDue_iff.mpr ⟨?_, le_refl _, ?_⟩⟩
    · exact JobStatus.schedulable_of_open hsopen hne
    · exact (hi.durable _ (hi.held hr)).2

/-- In a run whose rounds park only hashes without work, no pending peer is lost when
a round is joined, and a waiting job has no stored peer that was not attempted. -/
theorem run_keeps_pending {y₀ : System} {es : List SystemEvent} (hs : StartsMigrated y₀)
    (h : Run (Guarded Careful (Step env)) y₀ es y) :
    (∀ index r outcome y', Step env y (.joined index) y' → y.sched.workers[index]? = some r →
      r.phase = .finished outcome → outcome.complete = false → outcome.terminal = false →
      KeepsPending y outcome y') ∧
    ∀ k, jobStatus k y.store.catalogue = some .waitingPeers →
      ∀ addr, HasPeer k addr y.store.catalogue → y.Attempted k addr := by
  have hi : WorkOk env y := h.invariant (fun _ _ _ hy hst => hy.step hst) (.starts hs)
  exact ⟨fun _ _ _ _ hst hw hphase hc ht => hi.joined hst hw hphase hc ht,
    fun k hk => (hi.spent k hk).stored⟩

/-- The first worker has finished a round of a hash that it left open. -/
def endsOpen (k : InfoHash) (y : System) : Bool :=
  match y.sched.workers[0]?.map Round.phase with
  | some (.finished outcome) => outcome.infoHash = k && !outcome.complete && !outcome.terminal
  | _ => false

/-- Two peers of a hash are discovered and a round takes one. It sends other metadata,
so the round parks the job, and the peer that was pending is dropped untried. -/
theorem parking_drops_pending_peer :
    let tried : SocketAddrV4 := ⟨⟨10, 0, 0, 1⟩, 6881⟩
    let pending : SocketAddrV4 := ⟨⟨10, 0, 0, 2⟩, 6881⟩
    let env : SystemEnv :=
      ⟨⟨.ascii, ⟨fun _ => 8, fun _ => .error "no dictionary"⟩, 24⟩,
        ⟨1, 1, 2, 1, by decide, by decide, by decide, by decide⟩⟩
    let turn : Turn := ⟨1, 1048576, .commits⟩
    let start : System := ⟨.migrated, .empty, .idle, 0, [], []⟩
    let script : List SystemEvent :=
      [.discovered ⟨7, [⟨tried⟩, ⟨pending⟩], .announcePeer⟩ 1, .lookedUp, .attempted turn,
        .removed .commits, .admitted, .dispatched] ++
        List.replicate 8 (.worked 0 ⟨turn, .ok [], 0⟩)
    ∃ y r outcome y', play env script start = some y ∧ Step env y (.joined 0) y' ∧
      y.sched.workers[0]? = some r ∧ r.phase = .finished outcome ∧
      outcome.complete = false ∧ outcome.terminal = false ∧ ¬ KeepsPending y outcome y' ∧
      y'.sched.jobs.lookup 7 = none ∧ jobStatus 7 y'.store.catalogue = some .waitingPeers ∧
      HasPeer 7 pending y'.store.catalogue ∧ ¬ y'.Attempted 7 pending := by
  intro tried pending env turn start script
  let holds (y : System) : Bool := (y.sched.jobs.lookup 7).any fun job => ⟨pending⟩ ∈ job.peers
  let lost (y' : System) : Bool :=
    (y'.sched.jobs.lookup 7).isNone && jobStatus 7 y'.store.catalogue = some .waitingPeers &&
      (y'.store.catalogue.hashJobPeers.lookup (7, pending)).isSome &&
      y'.log = [.attempt 0 7 tried 1, .fetch 0 7 tried, .mismatch 0 7 tried]
  have hrun : (play env script start).any (fun y =>
      y.endsOpen 7 && holds y && (next env (.joined 0) y).any lost) = true := by
    decide
  obtain ⟨y, hplay, hy⟩ := (Option.any_eq_true _ _).mp hrun
  rw [Bool.and_eq_true, Bool.and_eq_true] at hy
  obtain ⟨⟨hends, hholds⟩, hnext⟩ := hy
  obtain ⟨y', hstep, hlost⟩ := (Option.any_eq_true _ _).mp hnext
  obtain ⟨job, hjob, hp⟩ := (Option.any_eq_true _ _).mp hholds
  simp only [lost, Bool.and_eq_true, decide_eq_true_eq, Option.isNone_iff_eq_none] at hlost
  obtain ⟨⟨⟨hnone, hstatus⟩, hpeer⟩, hlog⟩ := hlost
  rw [endsOpen] at hends
  split at hends
  · next outcome hphase =>
    obtain ⟨r, hw, hp'⟩ := Option.map_eq_some_iff.mp hphase
    simp only [Bool.and_eq_true, decide_eq_true_eq, Bool.not_eq_true'] at hends
    obtain ⟨⟨hhash, hcomplete⟩, hterminal⟩ := hends
    refine ⟨y, r, outcome, y', hplay, hstep, hw, hp', hcomplete, hterminal, ?_, hnone, hstatus,
      hpeer, ?_⟩
    · intro hkeeps
      rw [KeepsPending] at hkeeps
      rw [hhash] at hkeeps
      obtain ⟨job', hjob', -⟩ | ⟨t, hdue⟩ := hkeeps job hjob _ (of_decide_eq_true hp)
      · rw [hnone] at hjob'
        cases hjob'
      · obtain ⟨s, hs, hsched⟩ := hdue.schedulable
        rw [hstatus] at hs
        cases hs
        cases hsched
    · rintro ⟨task, t, hm⟩
      rw [hlog] at hm
      simp [tried, pending] at hm
  · cases hends

/-- An event that makes no parking write and prunes no torrent. -/
def neitherParksNorPrunes (y : System) (e : SystemEvent) : Bool :=
  match e with
  | .worked index _ =>
    match y.sched.workers[index]?.map Round.phase with
    | some (.parking _) => false
    | _ => true
  | .prunedTorrents _ _ => false
  | _ => true

/-- A round whose peer times out leaves the other peer of the hash pending. -/
theorem run_keeps_pending_timed_out :
    let env : SystemEnv :=
      ⟨⟨.ascii, ⟨fun _ => 8, fun _ => .error "no dictionary"⟩, 24⟩,
        ⟨1, 1, 2, 1, by decide, by decide, by decide, by decide⟩⟩
    let turn : Turn := ⟨1, 1048576, .commits⟩
    let start : System := ⟨.migrated, .empty, .idle, 0, [], []⟩
    let script : List SystemEvent :=
      [.discovered ⟨7, [⟨⟨⟨10, 0, 0, 1⟩, 6881⟩⟩, ⟨⟨⟨10, 0, 0, 2⟩, 6881⟩⟩], .announcePeer⟩ 1,
        .lookedUp, .attempted turn, .removed .commits, .admitted, .dispatched] ++
        List.replicate 8 (.worked 0 ⟨turn, .error (.timeout .connect), 0⟩)
    ∃ y, play env script start = some y ∧
      (y.sched.jobs.lookup 7).any (fun job => ⟨⟨⟨10, 0, 0, 2⟩, 6881⟩⟩ ∈ job.peers) = true ∧
      ∀ r outcome y', Step env y (.joined 0) y' → y.sched.workers[0]? = some r →
        r.phase = .finished outcome → outcome.complete = false → outcome.terminal = false →
        KeepsPending y outcome y' := by
  intro env turn start script
  have hplain : ∀ y e, neitherParksNorPrunes y e = true → Careful y e := by
    intro y e hc
    constructor
    · rintro index choice r attemptCount rfl hw hp
      simp [neitherParksNorPrunes, hw, hp] at hc
    · rintro k - turn cutoff rfl
      cases hc
  have hrun : (play env script start).any (fun y => (y.sched.jobs.lookup 7).any
      fun job => ⟨⟨⟨10, 0, 0, 2⟩, 6881⟩⟩ ∈ job.peers) = true := by
    decide
  have hcheck : checked env neitherParksNorPrunes script start = true := by
    decide
  obtain ⟨y, hplay, hy⟩ := (Option.any_eq_true _ _).mp hrun
  exact ⟨y, hplay, hy, fun r outcome y' => (run_keeps_pending ⟨⟨rfl, rfl, rfl, rfl⟩, rfl⟩
    (play_guarded hplain hplay hcheck)).1 0 r outcome y'⟩

end System

end Btfind
