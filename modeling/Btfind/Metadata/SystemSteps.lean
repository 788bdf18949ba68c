import Btfind.Metadata.RoundSteps
import Btfind.Metadata.System

/-!
# What a step of the system can do

The change that each event makes to the catalogue, and the invariant of the
scheduler inside the system.
-/

namespace Btfind.System

open Transaction

variable {env : SystemEnv} {y y' z : System} {e : SystemEvent}

/-- What each event does and when it can fire. -/
inductive Fires (env : SystemEnv) : System → SystemEvent → System → Prop
  | discovered {y : System} (d : HashDiscovery) {receipt : Uuid} (harm : y.arm = .idle)
      (fresh : y.store.persistenceReceipts.lookup receipt = none) :
      Fires env y (.discovered d receipt) { y with arm := .persisting d receipt .ready }
  | lookupFailed {y : System} {d : HashDiscovery} {receipt : Uuid}
      (harm : y.arm = .persisting d receipt .ready) : Fires env y .lookupFailed y
  | lookedUp {y : System} {d : HashDiscovery} {receipt : Uuid}
      (harm : y.arm = .persisting d receipt .ready) : Fires env y .lookedUp (y.lookUp d receipt)
  | attempted {y : System} {d : HashDiscovery} {receipt : Uuid} (turn : Turn)
      (harm : y.arm = .persisting d receipt .looked) :
      Fires env y (.attempted turn) (y.attempt env turn d receipt)
  | removed {y : System} {d : HashDiscovery} {receipt : Uuid} {persisted : DiscoveryPersistence}
      (fate : Fate StoreError) (harm : y.arm = .persisting d receipt (.cleaning persisted)) :
      Fires env y (.removed fate)
        { y with
          store := (transact fate (removeReceiptTx receipt) y.store).2
          arm := .persisting d receipt (.returned persisted) }
  | admitted {y : System} {d : HashDiscovery} {receipt : Uuid} {persisted : DiscoveryPersistence}
      (harm : y.arm = .persisting d receipt (.returned persisted)) :
      Fires env y .admitted
        { y with sched := y.sched.admitDiscovery env.limits d.infoHash d.peers, arm := .idle }
  | scanStarted {y : System} (turn : Turn) (harm : y.arm = .idle) :
      Fires env y (.scanStarted turn)
        { y with arm :=
          match Round.readError turn.fate with
          | some _ => .idle
          | none => .scanning (y.loadable env turn.now) [] }
  | scanRead {y : System} {record : HashJobRecord} {todo : List HashJobRecord}
      {loaded : List (HashJobRecord × List PeerContact)} (turn : Turn)
      (harm : y.arm = .scanning (record :: todo) loaded) :
      Fires env y (.scanRead turn)
        { y with arm :=
          match Round.readError turn.fate with
          | some _ => .idle
          | none => .scanning todo (loaded ++ [(record,
              hashJobPeersOf record.infoHash env.limits.maxPeersPerHash y.store.catalogue)]) }
  | scanAdmitted {y : System} {loaded : List (HashJobRecord × List PeerContact)}
      (harm : y.arm = .scanning [] loaded) :
      Fires env y .scanAdmitted
        { y with sched := loaded.foldl (admitLoaded env) y.sched, arm := .idle }
  | dispatched {y : System} {sched : Scheduler Round} (harm : y.arm = .idle)
      (hd : Scheduler.dispatchStep env.limits Round.spawn y.sched = some sched) :
      Fires env y .dispatched { y with sched := sched }
  | worked {y : System} {index : Nat} {r : Round} (choice : Choice)
      (hw : y.sched.workers[index]? = some r) :
      Fires env y (.worked index choice) (y.work env index r choice)
  | joined {y : System} {index : Nat} {r : Round} {outcome : JobOutcome} (harm : y.arm = .idle)
      (hw : y.sched.workers[index]? = some r) (hphase : r.phase = .finished outcome) :
      Fires env y (.joined index) { y with sched := y.sched.joinWorker index outcome }
  | batched {y : System} (turn : Turn) (events : List CrawlStatsEvent)
      (snapshot : Option RuntimeSnapshot) {receipt : Uuid}
      (hother : ∀ d own phase, y.arm = .persisting d own phase → own ≠ receipt) :
      Fires env y (.batched turn events snapshot receipt)
        { y with store :=
          (transact turn.fate (persistRuntimeBatchTx turn.now events snapshot receipt) y.store).2 }
  | prunedTorrents {y : System} (turn : Turn) (cutoff : Int) :
      Fires env y (.prunedTorrents turn cutoff)
        { y with store :=
          (transact turn.fate (Store.onCatalogue (pruneBatchTx cutoff)) y.store).2 }
  | prunedAttempts {y : System} (cutoff : Int) (picked : InfoHash × SocketAddrV4 → Bool) :
      Fires env y (.prunedAttempts cutoff picked)
        { y with store.catalogue := pruneAttempts cutoff picked y.store.catalogue }
  | reconciled {y : System} (turn : Turn) :
      Fires env y (.reconciled turn) { y with store := (reconcile turn y.store).2 }
  | receiptsChanged {y : System} (receipts : KeyedTable Uuid ReceiptRow)
      (hother : ∀ d own phase, y.arm = .persisting d own phase → receipts.lookup own = none ∨
        receipts.lookup own = y.store.persistenceReceipts.lookup own) :
      Fires env y (.receiptsChanged receipts) { y with store.persistenceReceipts := receipts }
  | restarted {y : System} :
      Fires env y .restarted
        { y with sched := { Scheduler.empty with spawned := y.sched.spawned }, arm := .idle }

theorem receipt?_ne {receipt : Uuid} (h : y.receipt? ≠ some receipt) :
    ∀ d own phase, y.arm = .persisting d own phase → own ≠ receipt := by
  rintro d own phase harm rfl
  exact h (by rw [receipt?, harm])

theorem fire_fires (h : fire env e y = some z) : Fires env y e z := by
  -- The branches are in the order of `fire`.
  unfold fire at h
  split at h
  · next d receipt harm =>
    split at h
    · next hfresh =>
      cases h
      exact .discovered d harm (by simpa using hfresh)
    · cases h
  · next harm =>
    cases h
    exact .lookupFailed harm
  · next harm =>
    cases h
    exact .lookedUp harm
  · next harm =>
    cases h
    exact .attempted _ harm
  · next harm =>
    cases h
    exact .removed _ harm
  · next harm =>
    cases h
    exact .admitted harm
  · next harm =>
    cases h
    exact .scanStarted _ harm
  · next harm =>
    cases h
    exact .scanRead _ harm
  · next harm =>
    cases h
    exact .scanAdmitted harm
  · next harm =>
    obtain ⟨sched, hd, rfl⟩ := Option.map_eq_some_iff.mp h
    exact .dispatched harm hd
  · obtain ⟨r, hw, rfl⟩ := Option.map_eq_some_iff.mp h
    exact .worked _ hw
  · next harm =>
    split at h
    · next outcome hphase =>
      obtain ⟨r, hw, hp⟩ := Option.map_eq_some_iff.mp hphase
      cases h
      exact .joined harm hw hp
    · cases h
  · split at h
    · cases h
    · next hother =>
      cases h
      exact .batched _ _ _ (receipt?_ne hother)
  · cases h
    exact .prunedTorrents _ _
  · cases h
    exact .prunedAttempts _ _
  · cases h
    exact .reconciled _
  · split at h
    · next hkept =>
      cases h
      refine .receiptsChanged _ ?_
      intro d own phase harm
      simpa [receipt?, harm] using hkept
    · cases h
  · cases h
    exact .restarted
  · cases h

/-- The catalogue after an event. -/
inductive Changes (env : SystemEnv) (y : System) : SystemEvent → Catalogue → Prop
  | kept (e : SystemEvent) : Changes env y e y.store.catalogue
  | recorded {d : HashDiscovery} {receipt : Uuid} (turn : Turn)
      (harm : y.arm = .persisting d receipt .looked)
      (hfree : y.store.persistenceReceipts.lookup receipt = none) :
      Changes env y (.attempted turn) (recordDiscovery turn.now d.infoHash d.source.asStr d.peers
        env.limits.maxPeersPerHash y.store.catalogue).2
  | batched (turn : Turn) (events : List CrawlStatsEvent) (snapshot : Option RuntimeSnapshot)
      (receipt : Uuid) : Changes env y (.batched turn events snapshot receipt)
        (recordRuntimeBatch turn.now events snapshot y.store.catalogue).2
  | worked {index : Nat} {r : Round} {choice : Choice} {c : Catalogue}
      (hw : y.sched.workers[index]? = some r)
      (h : Round.Writes env.round choice r y.store.catalogue c) :
      Changes env y (.worked index choice) c
  | prunedTorrents (turn : Turn) (cutoff : Int) :
      Changes env y (.prunedTorrents turn cutoff) (pruneBatch cutoff y.store.catalogue)
  | prunedAttempts (cutoff : Int) (picked : InfoHash × SocketAddrV4 → Bool) :
      Changes env y (.prunedAttempts cutoff picked)
        (pruneAttempts cutoff picked y.store.catalogue)
  | reconciled (turn : Turn) : Changes env y (.reconciled turn)
      { y.store.catalogue with catalogTotals := y.store.catalogue.countedTotals }

/-- A transaction on the catalogue leaves it or commits its body. -/
theorem transact_catalogue {α : Type} (fate : Fate StoreError)
    (body : Catalogue → Except StoreError (α × Catalogue)) (s : Store) :
    (transact fate (Store.onCatalogue body) s).2 = s ∨
      ∃ a, body s.catalogue =
        .ok (a, (transact fate (Store.onCatalogue body) s).2.catalogue) := by
  obtain ⟨e, he⟩ | ⟨a, s', hb, hr | ⟨e, hr⟩⟩ := transact_cases fate (Store.onCatalogue body) s
  · exact Or.inl (by rw [he])
  · exact Or.inr ⟨a, by rw [hr]; exact (Store.onCatalogue_ok hb).1⟩
  · exact Or.inr ⟨a, by rw [hr]; exact (Store.onCatalogue_ok hb).1⟩

theorem transact_receipts {α : Type} (fate : Fate StoreError)
    (body : Catalogue → Except StoreError (α × Catalogue)) (s : Store) :
    (transact fate (Store.onCatalogue body) s).2.persistenceReceipts = s.persistenceReceipts :=
  transact_invariant (I := fun s' : Store => s'.persistenceReceipts = s.persistenceReceipts) rfl
    fun _ _ hb => (Store.onCatalogue_ok hb).2

/-- A batch leaves the receipts of other operations alone. -/
theorem batch_receipts {turn : Turn} {events : List CrawlStatsEvent}
    {snapshot : Option RuntimeSnapshot} {receipt own : Uuid} (hne : own ≠ receipt) (s : Store) :
    (transact turn.fate (persistRuntimeBatchTx turn.now events snapshot receipt)
      s).2.persistenceReceipts.lookup own = s.persistenceReceipts.lookup own := by
  refine transact_invariant (I := fun s' : Store =>
    s'.persistenceReceipts.lookup own = s.persistenceReceipts.lookup own) rfl ?_
  intro _ s' hb
  unfold persistRuntimeBatchTx at hb
  split at hb
  · split at hb <;> cases hb <;> rfl
  · cases hb
    simp only [AList.lookup_adjust, hne, if_false, AList.lookup_insert_ne hne]

theorem work_receipts (index : Nat) (r : Round) (choice : Choice) (y : System) :
    (y.work env index r choice).store.persistenceReceipts = y.store.persistenceReceipts := by
  obtain hsame | ⟨hreceipts, -⟩ := Round.step_written env.round choice r y.store
  · unfold work
    simp only [hsame]
  · exact hreceipts

theorem attempt_store (turn : Turn) (d : HashDiscovery) (receipt : Uuid) (y : System) :
    (y.attempt env turn d receipt).store =
      (transact turn.fate ((PersistRequest.ofDiscovery env.limits d receipt).tx turn.now)
        y.store).2 := by
  unfold attempt
  split <;> next hr => rw [hr]

theorem lookUp_store (d : HashDiscovery) (receipt : Uuid) (y : System) :
    (y.lookUp d receipt).store = y.store := by
  unfold lookUp
  split <;> rfl

theorem Fires.changes (h : Fires env y e z) : Changes env y e z.store.catalogue := by
  cases h with
  | discovered => exact .kept _
  | lookupFailed => exact .kept _
  | lookedUp =>
    rw [lookUp_store]
    exact .kept _
  | @attempted d receipt turn harm =>
    rw [attempt_store]
    -- A stored receipt makes the insert fail, so the discovery is written once.
    cases hrow : y.store.persistenceReceipts.lookup receipt with
    | some row =>
      have hbody : (PersistRequest.ofDiscovery env.limits d receipt).tx turn.now y.store =
          .error duplicateReceipt := PersistTask.tx_of_stored hrow turn.now
      rw [transact_of_error hbody]
      exact .kept _
    | none =>
      let req := PersistRequest.ofDiscovery env.limits d receipt
      have hbody := PersistTask.tx_of_free (show y.store.persistenceReceipts.lookup req.receipt =
        none from hrow) turn.now
      obtain ⟨e, he⟩ | ⟨a, s', hb, hr⟩ := transact_cases turn.fate
        ((PersistRequest.ofDiscovery env.limits d receipt).tx turn.now) y.store
      · rw [he]
        exact .kept _
      · rw [hbody] at hb
        cases hb
        obtain hr | ⟨e, hr⟩ := hr <;> rw [hr] <;> exact .recorded turn harm hrow
  | @removed d receipt persisted fate harm =>
    have hc : (transact fate (removeReceiptTx receipt) y.store).2.catalogue =
        y.store.catalogue := PersistTask.remove_catalogue receipt fate y.store
    simp only [hc]
    exact .kept _
  | admitted => exact .kept _
  | scanStarted => exact .kept _
  | scanRead => exact .kept _
  | scanAdmitted => exact .kept _
  | dispatched => exact .kept _
  | @worked index r choice hw =>
    -- The phases of a round that write are those of `Written`.
    obtain hsame | ⟨-, hwrites⟩ := Round.step_written env.round choice r y.store
    · unfold work
      simp only [hsame]
      exact .kept _
    · exact .worked hw hwrites
  | joined => exact .kept _
  | @batched turn events snapshot receipt hother =>
    obtain ⟨e, he⟩ | ⟨a, s', hb, hr⟩ := transact_cases turn.fate
      (persistRuntimeBatchTx turn.now events snapshot receipt) y.store
    · rw [he]
      exact .kept _
    -- A receipt that is found is replayed; without one the batch is written.
    · have hcat : Changes env y (.batched turn events snapshot receipt) s'.catalogue := by
        unfold persistRuntimeBatchTx at hb
        split at hb
        · split at hb
          · cases hb
            exact .kept _
          · cases hb
            exact .kept _
          · cases hb
        · cases hb
          exact .batched turn events snapshot receipt
      obtain hr | ⟨e, hr⟩ := hr <;> rw [hr] <;> exact hcat
  | prunedTorrents turn cutoff =>
    obtain hsame | ⟨n, hb⟩ := transact_catalogue turn.fate (pruneBatchTx cutoff) y.store
    · simp only [hsame]
      exact .kept _
    · have hc := congrArg (Except.map Prod.snd) hb
      simp only [pruneBatchTx, Except.map, Except.ok.injEq] at hc
      rw [← hc]
      exact .prunedTorrents turn cutoff
  | prunedAttempts cutoff picked => exact .prunedAttempts cutoff picked
  | reconciled turn =>
    obtain hsame | ⟨n, hb⟩ := transact_catalogue turn.fate reconcileTx y.store
    · simp only [reconcile, hsame]
      exact .kept _
    · have hc := congrArg (Except.map Prod.snd) hb
      simp only [reconcileTx, Except.map, Except.ok.injEq] at hc
      simp only [reconcile, ← hc]
      exact .reconciled turn
  | receiptsChanged => exact .kept _
  | restarted => exact .kept _

/-! ## Workers -/

/-- Where the workers after an event come from. -/
inductive WorkerFrom (env : SystemEnv) (y : System) : SystemEvent → Round → Prop
  | kept {e : SystemEvent} {r : Round} (h : r ∈ y.sched.workers) : WorkerFrom env y e r
  | spawned {hash : InfoHash} {job : HashJob} (hready : hash ∈ y.sched.ready)
      (hjob : y.sched.jobs.lookup hash = some job) :
      WorkerFrom env y .dispatched (Round.spawn ⟨y.sched.spawned, hash,
        job.peers.take env.limits.maxPeerAttemptsPerRound, job.attemptCount⟩)
  | stepped {index : Nat} {r : Round} {choice : Choice} (hw : y.sched.workers[index]? = some r) :
      WorkerFrom env y (.worked index choice) (r.step env.round choice y.store).1

theorem attempt_sched (turn : Turn) (d : HashDiscovery) (receipt : Uuid) (y : System) :
    (y.attempt env turn d receipt).sched = y.sched := by
  unfold attempt
  split <;> rfl

theorem lookUp_sched (d : HashDiscovery) (receipt : Uuid) (y : System) :
    (y.lookUp d receipt).sched = y.sched := by
  unfold lookUp
  split <;> rfl

theorem scanAdmitted_workers (env : SystemEnv) (loaded : List (HashJobRecord × List PeerContact))
    (s : Scheduler Round) : (loaded.foldl (admitLoaded env) s).workers = s.workers := by
  refine List.foldlRecOn (motive := fun t : Scheduler Round => t.workers = s.workers) _ _ rfl ?_
  intro t ht l _
  exact (Scheduler.admitJobPeers_workers ..).trans ht

theorem Fires.workers (h : Fires env y e z) {r : Round} (hr : r ∈ z.sched.workers) :
    WorkerFrom env y e r := by
  cases h with
  | attempted =>
    rw [attempt_sched] at hr
    exact .kept hr
  | lookedUp =>
    rw [lookUp_sched] at hr
    exact .kept hr
  | admitted =>
    rw [Scheduler.admitDiscovery_workers] at hr
    exact .kept hr
  | scanAdmitted =>
    rw [scanAdmitted_workers] at hr
    exact .kept hr
  | dispatched harm hd =>
    obtain ⟨-, hash, ready, hready, ⟨rfl, -⟩ | ⟨job, hjob, -, ⟨rfl, -⟩ | rfl⟩⟩ :=
      Scheduler.dispatchStep_cases hd
    · exact .kept hr
    · exact .kept hr
    · obtain hold | hnew := List.mem_append.mp hr
      · exact .kept hold
      · rw [List.mem_singleton.mp hnew]
        exact .spawned (by simp [hready]) hjob
  | worked choice hw =>
    obtain hold | rfl := List.mem_or_eq_of_mem_set hr
    · exact .kept hold
    · exact .stepped hw
  | joined harm hw hphase =>
    rw [Scheduler.joinWorker_workers] at hr
    exact .kept (List.mem_of_mem_eraseIdx hr)
  | restarted => cases hr
  | _ => exact .kept hr

/-! ## The log -/

/-- Only rounds add to the log. -/
theorem Fires.log (h : Fires env y e z) :
    z.log = y.log ∨ ∃ index r choice, e = .worked index choice ∧
      y.sched.workers[index]? = some r ∧
      z.log = y.log ++ logged r (r.step env.round choice y.store).1 choice.turn.now
        (Round.recordTakesEffect choice.turn r.infoHash y.store.catalogue) := by
  cases h with
  | worked choice hw => exact Or.inr ⟨_, _, choice, rfl, hw, rfl⟩
  | lookedUp =>
    unfold lookUp
    split <;> exact Or.inl rfl
  | attempted =>
    unfold attempt
    split <;> exact Or.inl rfl
  | _ => exact Or.inl rfl

/-- A fetch is logged by the round that has just recorded its attempt. -/
theorem fetch_mem_logged {r next : Round} {now : Int} {effective : Bool} {task : Nat}
    {h : InfoHash} {addr : SocketAddrV4}
    (hm : PeerLog.fetch task h addr ∈ logged r next now effective) :
    task = r.args.task ∧ h = r.infoHash ∧ ∃ peer todo, r.phase = .attempting (peer :: todo) ∧
      addr = peer.addr := by
  unfold logged at hm
  split at hm
  · next peer todo hphase =>
    obtain hm | hm := List.mem_append.mp hm
    · split at hm <;> simp at hm
    · split at hm
      · simp only [List.mem_singleton, PeerLog.fetch.injEq] at hm
        exact ⟨hm.1, hm.2.1, peer, todo, hphase, hm.2.2⟩
      · cases hm
  · split at hm <;> simp at hm
  · cases hm

/-! ## Invariants -/

/-- An event fires and the clock goes on. -/
theorem Step.fires (h : Step env y e y') : ∃ z, Fires env y e z ∧
    match e.clock? with
    | some now => y.clock ≤ now ∧ now ≤ maxTimestamp ∧ y' = { z with clock := now }
    | none => y' = z := by
  obtain ⟨z, hz, ht⟩ := Option.bind_eq_some_iff.mp h
  refine ⟨z, fire_fires hz, ?_⟩
  unfold tick at ht
  cases hclock : e.clock? with
  | none =>
    rw [hclock] at ht
    exact (Option.some.inj ht).symm
  | some now =>
    simp only [hclock] at ht
    split at ht
    · next hle => exact ⟨hle.1, hle.2, (Option.some.inj ht).symm⟩
    · cases ht

/-- What every event keeps and the clock does not touch, every step keeps. -/
theorem Step.lift {I : System → Prop} (hclock : ∀ z now, I z → I { z with clock := now })
    (hfires : ∀ z, Fires env y e z → I z) (h : Step env y e y') : I y' := by
  obtain ⟨z, hz, hnow⟩ := h.fires
  split at hnow
  · rw [hnow.2.2]
    exact hclock z _ (hfires z hz)
  · rw [hnow]
    exact hfires z hz

end Btfind.System
