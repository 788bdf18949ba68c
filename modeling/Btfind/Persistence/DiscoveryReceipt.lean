import Btfind.Library.EffectLog
import Btfind.Library.Transition
import Btfind.Store.HashJobs
import Btfind.Store.RuntimeBatch

/-!
# The discovery receipt

The attempts to persist one discovery under one receipt, call by call. A commit
can stay in doubt: its transaction holds the row lock on `catalog_totals` while
the client has seen an error and has already looked for the receipt again.
-/

namespace Btfind

open Transaction

/-- The arguments of `persist_hash_discovery_with_receipt`. -/
structure PersistRequest where
  hash : InfoHash
  source : String
  peers : List PeerContact
  limit : Nat
  receipt : Uuid

/-- Where the client is: before an attempt, past the lookup of the receipt, past
the commit, or past the call. -/
inductive PersistPhase
  | ready
  | looked
  | cleaning (persisted : DiscoveryPersistence)
  | returned (persisted : DiscoveryPersistence)

/-- The client and the database. `doubt` is the clock of a transaction whose commit
is still open, and `committed` records the outcomes of the effective ones. -/
structure PersistTask where
  store : Store
  phase : PersistPhase
  doubt : Option Int
  committed : List DiscoveryPersistence

namespace PersistRequest

variable (req : PersistRequest)

/-- The transaction of the request at a clock. -/
def tx (now : Int) : Store → Except StoreError (DiscoveryPersistence × Store) :=
  persistDiscoveryTx now req.hash req.source req.peers req.limit req.receipt

def lookup (t : PersistTask) : PersistTask :=
  match replayedDiscovery req.receipt t.store with
  | .error _ => t
  | .ok (some persisted) => { t with phase := .returned persisted }
  | .ok none => { t with phase := .looked }

/-- The transaction runs to its end within the attempt. -/
def attempt (turn : Turn) (t : PersistTask) : PersistTask :=
  -- A commit that is reported as an error has taken effect all the same.
  let committed :=
    match turn.fate, req.tx turn.now t.store with
    | .fails _, _ => t.committed
    | _, .ok (persisted, _) => t.committed ++ [persisted]
    | _, .error _ => t.committed
  match transact turn.fate (req.tx turn.now) t.store with
  | (.error _, store) => { t with store := store, phase := .ready, committed := committed }
  | (.ok persisted, store) =>
    { t with store := store, phase := .cleaning persisted, committed := committed }

/-- The open commit takes effect. -/
def settle (now : Int) (t : PersistTask) : PersistTask :=
  match req.tx now t.store with
  | .ok (persisted, store) =>
    { t with store := store, doubt := none, committed := t.committed ++ [persisted] }
  | .error _ => { t with doubt := none }

def remove (fate : Fate StoreError) (persisted : DiscoveryPersistence) (t : PersistTask) :
    PersistTask :=
  { t with
    store := (transact fate (removeReceiptTx req.receipt) t.store).2
    phase := .returned persisted }

end PersistRequest

inductive PersistEvent
  | lookupFailed
  | lookedUp
  | attempted (turn : Turn)
  | inDoubt (now : Int)
  | blocked
  | settled
  | rolledBack
  | removed (fate : Fate StoreError)
  | pruned (now : Int) (picked : Uuid → Bool) (fate : Fate StoreError)
  | elsewhere (effect : Catalogue → Catalogue) (receipts : KeyedTable Uuid ReceiptRow)

/-- The first attempt is made at `started`; while the calls go on, no more than the
seven days of the retention pass. -/
inductive PersistTask.Step (req : PersistRequest) (started : Int) :
    PersistTask → PersistEvent → PersistTask → Prop
  | lookupFailed {t : PersistTask} (hphase : t.phase = .ready) :
      Step req started t .lookupFailed t
  | lookedUp {t : PersistTask} (hphase : t.phase = .ready) :
      Step req started t .lookedUp (req.lookup t)
  | attempted {t : PersistTask} (turn : Turn) (hphase : t.phase = .looked)
      (hlock : t.doubt = none) (hclock : started ≤ turn.now) :
      Step req started t (.attempted turn) (req.attempt turn t)
  | inDoubt {t : PersistTask} {now : Int} {r : DiscoveryPersistence × Store}
      (hphase : t.phase = .looked) (hlock : t.doubt = none) (hclock : started ≤ now)
      (hbody : req.tx now t.store = .ok r) :
      Step req started t (.inDoubt now) { t with phase := .ready, doubt := some now }
  | blocked {t : PersistTask} {now : Int} (hphase : t.phase = .looked)
      (hlock : t.doubt = some now) :
      Step req started t .blocked { t with phase := .ready }
  | settled {t : PersistTask} {now : Int} (hlock : t.doubt = some now) :
      Step req started t .settled (req.settle now t)
  | rolledBack {t : PersistTask} {now : Int} (hlock : t.doubt = some now) :
      Step req started t .rolledBack { t with doubt := none }
  | removed {t : PersistTask} {persisted : DiscoveryPersistence} (fate : Fate StoreError)
      (hphase : t.phase = .cleaning persisted) :
      Step req started t (.removed fate) (req.remove fate persisted t)
  | pruned {t : PersistTask} {now : Int} (picked : Uuid → Bool) (fate : Fate StoreError)
      (hclock : now ≤ started + 7 * 86400) :
      Step req started t (.pruned now picked fate)
        { t with store := (transact fate (Btfind.pruneReceiptsTx now picked) t.store).2 }
  | elsewhere {t : PersistTask} (effect : Catalogue → Catalogue)
      (receipts : KeyedTable Uuid ReceiptRow)
      (hother : receipts.lookup req.receipt =
        t.store.persistenceReceipts.lookup req.receipt) :
      Step req started t (.elsewhere effect receipts)
        { t with store := ⟨effect t.store.catalogue, receipts⟩ }

end Btfind
