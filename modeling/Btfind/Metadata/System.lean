import Btfind.Metadata.Round
import Btfind.Metadata.SchedulerInvariant
import Btfind.Persistence.DiscoveryReceiptRuns

/-!
# The metadata system

The database, the scheduler task with its arm of the select loop, the rounds in
flight and the other tasks that write to the database. Every step is one call or
one stretch of code without a call, so all interleavings are runs.
-/

namespace Btfind

open Transaction

/-- What the select loop of `run_metadata_fetcher` is awaiting. -/
inductive Arm
  | idle
  | persisting (discovery : HashDiscovery) (receipt : Uuid) (phase : PersistPhase)
  | scanning (todo : List HashJobRecord) (loaded : List (HashJobRecord × List PeerContact))

/-- What the rounds of a process did to peers: attempt records that were written,
fetches, and mismatch records that were written. -/
inductive PeerLog
  | attempt (task : Nat) (hash : InfoHash) (addr : SocketAddrV4) (time : Int)
  | fetch (task : Nat) (hash : InfoHash) (addr : SocketAddrV4)
  | mismatch (task : Nat) (hash : InfoHash) (addr : SocketAddrV4)
  deriving DecidableEq

/-- `received` and `log` record what rounds got from peers and did to them. -/
structure System where
  store : Store
  sched : Scheduler Round
  arm : Arm
  clock : Int
  received : List Bytes
  log : List PeerLog

structure SystemEnv where
  round : RoundEnv
  limits : SchedulerLimits

inductive SystemEvent
  | discovered (discovery : HashDiscovery) (receipt : Uuid)
  | lookupFailed
  | lookedUp
  | attempted (turn : Turn)
  | removed (fate : Fate StoreError)
  | admitted
  | scanStarted (turn : Turn)
  | scanRead (turn : Turn)
  | scanAdmitted
  | dispatched
  | worked (index : Nat) (choice : Choice)
  | joined (index : Nat)
  | batched (turn : Turn) (events : List CrawlStatsEvent) (snapshot : Option RuntimeSnapshot)
      (receipt : Uuid)
  | prunedTorrents (turn : Turn) (cutoff : Int)
  | prunedAttempts (cutoff : Int) (picked : InfoHash × SocketAddrV4 → Bool)
  | reconciled (turn : Turn)
  | receiptsChanged (receipts : KeyedTable Uuid ReceiptRow)
  | restarted

/-- The events that delete torrents or attempts. -/
def SystemEvent.isPrune : SystemEvent → Bool
  | .prunedTorrents _ _ | .prunedAttempts _ _ => true
  | _ => false

/-- The clock that an event reads. -/
def SystemEvent.clock? : SystemEvent → Option Int
  | .attempted turn | .scanStarted turn | .scanRead turn | .batched turn _ _ _
  | .prunedTorrents turn _ | .reconciled turn => some turn.now
  | .worked _ choice => some choice.turn.now
  | _ => none

def PersistRequest.ofDiscovery (limits : SchedulerLimits) (d : HashDiscovery) (receipt : Uuid) :
    PersistRequest :=
  ⟨d.infoHash, d.source.asStr, d.peers, limits.maxPeersPerHash, receipt⟩

namespace System

/-- What a step of a round adds to the log: a record that took effect, and the
fetch that starts when the round goes on to await the peer. -/
def logged (r next : Round) (now : Int) (effective : Bool) : List PeerLog :=
  match r.phase with
  | .attempting (peer :: _) =>
    (if effective then [.attempt r.args.task r.infoHash peer.addr now] else []) ++
      match next.phase with
      | .fetching _ _ => [.fetch r.args.task r.infoHash peer.addr]
      | _ => []
  | .recordMismatch peer _ =>
    if effective then [.mismatch r.args.task r.infoHash peer.addr] else []
  | _ => []

/-- The bytes that a step of a round receives from a peer. -/
def receivedBytes (r : Round) (choice : Choice) : List Bytes :=
  match r.phase, choice.fetched with
  | .fetching _ _, .ok bytes => [bytes]
  | _, _ => []

def work (env : SystemEnv) (index : Nat) (r : Round) (choice : Choice) (y : System) : System :=
  let next := r.step env.round choice y.store
  { y with
    store := next.2
    sched := { y.sched with workers := y.sched.workers.set index next.1 }
    received := y.received ++ receivedBytes r choice
    log := y.log ++ logged r next.1 choice.turn.now
      (Round.recordTakesEffect choice.turn r.infoHash y.store.catalogue) }

/-- The records that `load_due_jobs` keeps. -/
def loadable (env : SystemEnv) (now : Int) (y : System) : List HashJobRecord :=
  let available := env.limits.maxActiveHashJobs - y.sched.jobs.count
  if available = 0 then []
  else
    ((dueHashJobs now env.limits.maxActiveHashJobs y.store.catalogue).filter
      fun record => (y.sched.jobs.lookup record.infoHash).isNone).take available

def admitLoaded (env : SystemEnv) (s : Scheduler Round)
    (loaded : HashJobRecord × List PeerContact) : Scheduler Round :=
  (s.admitJobPeers env.limits loaded.1.infoHash loaded.2 loaded.1.attemptCount).1

/-- The attempt to persist the discovery of the arm. -/
def attempt (env : SystemEnv) (turn : Turn) (d : HashDiscovery) (receipt : Uuid)
    (y : System) : System :=
  match transact turn.fate ((PersistRequest.ofDiscovery env.limits d receipt).tx turn.now)
      y.store with
  -- The receipt is looked up again before the next attempt.
  | (.error _, store) => { y with store := store, arm := .persisting d receipt .ready }
  | (.ok persisted, store) =>
    { y with store := store, arm := .persisting d receipt (.cleaning persisted) }

def lookUp (d : HashDiscovery) (receipt : Uuid) (y : System) : System :=
  match replayedDiscovery receipt y.store with
  | .error _ => y
  | .ok (some persisted) => { y with arm := .persisting d receipt (.returned persisted) }
  | .ok none => { y with arm := .persisting d receipt .looked }

def pruneAttempts (cutoff : Int) (picked : InfoHash × SocketAddrV4 → Bool) (c : Catalogue) :
    Catalogue :=
  { c with metadataPeerAttempts :=
    c.metadataPeerAttempts.keep fun k row => !(picked k && row.lastAttempt < cutoff) }

/-- The receipt that the arm uses. -/
def receipt? (y : System) : Option Uuid :=
  match y.arm with
  | .persisting _ receipt _ => some receipt
  | _ => none

/-- The code of each event, where it can run: the arms of the select loop wait for
each other, the other tasks do not wait. -/
def fire (env : SystemEnv) (e : SystemEvent) (y : System) : Option System :=
  match e, y.arm with
  | .discovered d receipt, .idle =>
    if (y.store.persistenceReceipts.lookup receipt).isNone then
      some { y with arm := .persisting d receipt .ready }
    else none
  | .lookupFailed, .persisting _ _ .ready => some y
  | .lookedUp, .persisting d receipt .ready => some (y.lookUp d receipt)
  | .attempted turn, .persisting d receipt .looked => some (y.attempt env turn d receipt)
  | .removed fate, .persisting d receipt (.cleaning persisted) =>
    some { y with
      store := (transact fate (removeReceiptTx receipt) y.store).2
      arm := .persisting d receipt (.returned persisted) }
  | .admitted, .persisting d _ (.returned _) =>
    some { y with sched := y.sched.admitDiscovery env.limits d.infoHash d.peers, arm := .idle }
  | .scanStarted turn, .idle =>
    some { y with arm :=
      match Round.readError turn.fate with
      | some _ => .idle
      | none => .scanning (y.loadable env turn.now) [] }
  | .scanRead turn, .scanning (record :: todo) loaded =>
    some { y with arm :=
      match Round.readError turn.fate with
      | some _ => .idle
      | none => .scanning todo (loaded ++ [(record,
          hashJobPeersOf record.infoHash env.limits.maxPeersPerHash y.store.catalogue)]) }
  -- A scan that meets an error is given up before this.
  | .scanAdmitted, .scanning [] loaded =>
    some { y with sched := loaded.foldl (admitLoaded env) y.sched, arm := .idle }
  | .dispatched, .idle =>
    (Scheduler.dispatchStep env.limits Round.spawn y.sched).map fun sched =>
      { y with sched := sched }
  | .worked index choice, _ => y.sched.workers[index]?.map fun r => y.work env index r choice
  | .joined index, .idle =>
    match y.sched.workers[index]?.map Round.phase with
    | some (.finished outcome) => some { y with sched := y.sched.joinWorker index outcome }
    | _ => none
  | .batched turn events snapshot receipt, _ =>
    if y.receipt? = some receipt then none
    else
      some { y with store :=
        (transact turn.fate (persistRuntimeBatchTx turn.now events snapshot receipt) y.store).2 }
  | .prunedTorrents turn cutoff, _ =>
    some { y with store :=
      (transact turn.fate (Store.onCatalogue (pruneBatchTx cutoff)) y.store).2 }
  | .prunedAttempts cutoff picked, _ =>
    some { y with store.catalogue := pruneAttempts cutoff picked y.store.catalogue }
  | .reconciled turn, _ => some { y with store := (reconcile turn y.store).2 }
  | .receiptsChanged receipts, _ =>
    if y.receipt?.all fun own => (receipts.lookup own).isNone ||
        receipts.lookup own = y.store.persistenceReceipts.lookup own then
      some { y with store.persistenceReceipts := receipts }
    else none
  -- The database stays, and so do the numbers that tell rounds apart.
  | .restarted, _ =>
    some { y with sched := { Scheduler.empty with spawned := y.sched.spawned }, arm := .idle }
  | _, _ => none

/-- The time that an event reads, which does not go backwards. -/
def tick (e : SystemEvent) (y z : System) : Option System :=
  match e.clock? with
  | some now => if y.clock ≤ now ∧ now ≤ maxTimestamp then some { z with clock := now } else none
  | none => some z

def next (env : SystemEnv) (e : SystemEvent) (y : System) : Option System :=
  (fire env e y).bind (tick e y)

def Step (env : SystemEnv) (y : System) (e : SystemEvent) (y' : System) : Prop :=
  next env e y = some y'

/-- The state after a list of events. -/
def play (env : SystemEnv) : List SystemEvent → System → Option System
  | [], y => some y
  | e :: es, y => (next env e y).bind (play env es)

theorem play_run {env : SystemEnv} {es : List SystemEvent} {y y' : System}
    (h : play env es y = some y') : Transition.Run (Step env) y es y' := by
  induction es generalizing y with
  | nil =>
    cases h
    exact .refl _
  | cons e es ih =>
    obtain ⟨z, hz, hrest⟩ := Option.bind_eq_some_iff.mp h
    exact ((Transition.Run.refl y).snoc hz).append (ih hrest)

/-- A check holds before every event of a list. -/
def checked (env : SystemEnv) (check : System → SystemEvent → Bool) :
    List SystemEvent → System → Bool
  | [], _ => true
  | e :: es, y => check y e && (next env e y).all (checked env check es)

theorem play_guarded {env : SystemEnv} {check : System → SystemEvent → Bool}
    {guard : System → SystemEvent → Prop} (hguard : ∀ y e, check y e = true → guard y e)
    {es : List SystemEvent} {y y' : System} (h : play env es y = some y')
    (hc : checked env check es y = true) :
    Transition.Run (Transition.Guarded guard (Step env)) y es y' := by
  induction es generalizing y with
  | nil =>
    cases h
    exact .refl _
  | cons e es ih =>
    obtain ⟨z, hz, hrest⟩ := Option.bind_eq_some_iff.mp h
    rw [checked, hz, Bool.and_eq_true] at hc
    exact ((Transition.Run.refl y).snoc ⟨hguard y e hc.1, hz⟩).append (ih hrest hc.2)

/-- A process starts on a database with empty collections. -/
structure Starts (y : System) : Prop where
  sched : y.sched = Scheduler.empty
  arm : y.arm = .idle
  received : y.received = []
  log : y.log = []

/-- The first process starts on the migrated database. -/
def StartsMigrated (y : System) : Prop := Starts y ∧ y.store = .migrated

end System

end Btfind
