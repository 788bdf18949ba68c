import Mathlib.Data.List.Sort
import Btfind.Library.Chunks
import Btfind.Store.Discover

/-!
# Hash jobs, their peers and the attempts on them

The discovery transaction and its receipt, the job states that a metadata round
writes, and the reads with which the scheduler and the rounds decide.
-/

namespace Btfind

open Transaction

/-! ## Persisting a discovery -/

/-- `addresses.retain(|addr| seen.insert(addr.clone()))` -/
def retainNew : List SocketAddrV4 → List SocketAddrV4 → List SocketAddrV4
  | [], kept => kept
  | a :: rest, kept => retainNew rest (if a ∈ kept then kept else kept ++ [a])

/-- The addresses that a discovery stores: the first `limit`, without repeats. -/
def discoveredAddrs (peers : List PeerContact) (limit : Nat) : List SocketAddrV4 :=
  retainNew (peerAddrs (peers.take limit)) []

/-- The rows of `hash_job_peers` of a hash, `ORDER BY last_seen DESC,peer_addr`. -/
def rankedPeers (hash : InfoHash) (c : Catalogue) : List SocketAddrV4 :=
  let rows := c.hashJobPeers.entries.filter fun e => e.1.1 = hash
  let before (a b : Σ _ : InfoHash × SocketAddrV4, Int) : Prop :=
    b.2 < a.2 ∨ (a.2 = b.2 ∧ a.1.2.toString ≤ b.1.2.toString)
  have : DecidableRel before := fun _ _ => inferInstanceAs (Decidable (_ ∨ _))
  (rows.insertionSort before).map fun e => e.1.2

/-- `SELECT COUNT(*) FROM hash_job_peers WHERE info_hash=? AND peer_addr IN (...)` -/
def existingPeers (hash : InfoHash) (chunk : List SocketAddrV4) (c : Catalogue) : Nat :=
  (c.hashJobPeers.entries.filter fun e => e.1.1 = hash && e.1.2 ∈ chunk).length

/-- One chunk of the peer upserts, with the counts of new and known peers; the clock is read for
every row. -/
def upsertPeerChunk (stamp : SocketAddrV4 → Int) (hash : InfoHash)
    (acc : DiscoveryPersistence × Catalogue) (chunk : List SocketAddrV4) :
    DiscoveryPersistence × Catalogue :=
  let outcome := acc.1
  let c := acc.2
  let existing := existingPeers hash chunk c
  ({ outcome with
      peersUpdated := outcome.peersUpdated + existing
      peersInserted := outcome.peersInserted + (chunk.length - existing) },
    { c with hashJobPeers :=
      chunk.foldl (fun t a => t.upsert (hash, a) (stamp a) fun _ => stamp a) c.hashJobPeers })

/-- One chunk of the deletions of peers beyond the limit. -/
def deletePeerChunk (hash : InfoHash) (acc : DiscoveryPersistence × Catalogue)
    (chunk : List SocketAddrV4) : DiscoveryPersistence × Catalogue :=
  let kept := acc.2.hashJobPeers.keep fun k _ => !(k.1 = hash && k.2 ∈ chunk)
  ({ acc.1 with peersDeleted := acc.1.peersDeleted + (acc.2.hashJobPeers.count - kept.count) },
    { acc.2 with hashJobPeers := kept })

/-- The catalogue part of `persist_hash_discovery_once`, with the statements that a cut makes of
the addresses and the clock as it is read for each of them. -/
def recordDiscoveryBy (cut : List.Cut SocketAddrV4) (now : Int) (stamp : SocketAddrV4 → Int)
    (hash : InfoHash) (source : String) (peers : List PeerContact) (limit : Nat) (c : Catalogue) :
    DiscoveryPersistence × Catalogue :=
  let addresses := discoveredAddrs peers limit
  let acc := discover now hash source (!addresses.isEmpty) c
  let acc := (cut.chunks addresses).foldl (upsertPeerChunk stamp hash) acc
  let excess := (rankedPeers hash acc.2).drop limit
  (cut.chunks excess).foldl (deletePeerChunk hash) acc

/-- A statement carries 128 rows at most; here they are all stamped with one time. -/
def recordDiscovery (now : Int) (hash : InfoHash) (source : String) (peers : List PeerContact)
    (limit : Nat) (c : Catalogue) : DiscoveryPersistence × Catalogue :=
  recordDiscoveryBy (.every 128) now (fun _ => now) hash source peers limit c

/-- Beyond `discover`, a recorded discovery changes the peer table only. -/
theorem recordDiscovery_frame (now : Int) (hash : InfoHash) (source : String)
    (peers : List PeerContact) (limit : Nat) (c : Catalogue) :
    (recordDiscovery now hash source peers limit c).2 =
      { (discover now hash source (!(discoveredAddrs peers limit).isEmpty) c).2 with
        hashJobPeers := (recordDiscovery now hash source peers limit c).2.hashJobPeers } := by
  let found := (discover now hash source (!(discoveredAddrs peers limit).isEmpty) c).2
  let Framed (acc : DiscoveryPersistence × Catalogue) : Prop :=
    acc.2 = { found with hashJobPeers := acc.2.hashJobPeers }
  have hupsert : ∀ acc chunk,
      Framed acc → Framed (upsertPeerChunk (fun _ => now) hash acc chunk) := by
    intro acc chunk hacc
    change _ = _
    rw [upsertPeerChunk]
    simp only
    rw [hacc]
  have hdelete : ∀ acc chunk, Framed acc → Framed (deletePeerChunk hash acc chunk) := by
    intro acc chunk hacc
    change _ = _
    rw [deletePeerChunk]
    simp only
    rw [hacc]
  unfold recordDiscovery recordDiscoveryBy
  refine List.foldlRecOn (motive := Framed) _ _ ?_ fun acc hacc chunk _ => hdelete acc chunk hacc
  exact List.foldlRecOn (motive := Framed) _ _ rfl fun acc hacc chunk _ => hupsert acc chunk hacc

/-- The text MySQL gives for an insert of a key that is present. -/
def duplicateReceipt : StoreError :=
  .database false "Duplicate entry for key 'persistence_receipts.PRIMARY'"

/-- The transaction of `persist_hash_discovery_once`. -/
def persistDiscoveryBy (cut : List.Cut SocketAddrV4) (now : Int) (stamp : SocketAddrV4 → Int)
    (hash : InfoHash) (source : String) (peers : List PeerContact) (limit : Nat) (receipt : Uuid)
    (s : Store) : Except StoreError (DiscoveryPersistence × Store) :=
  let recorded := recordDiscoveryBy cut now stamp hash source peers limit s.catalogue
  match s.persistenceReceipts.lookup receipt with
  | some _ => .error duplicateReceipt
  | none =>
    .ok (recorded.1, {
      catalogue := recorded.2
      persistenceReceipts := s.persistenceReceipts.insert receipt
        ⟨now, some now, some (.discovery recorded.1)⟩ })

def persistDiscoveryTx (now : Int) (hash : InfoHash) (source : String)
    (peers : List PeerContact) (limit : Nat) (receipt : Uuid) (s : Store) :
    Except StoreError (DiscoveryPersistence × Store) :=
  persistDiscoveryBy (.every 128) now (fun _ => now) hash source peers limit receipt s

/-- `replayed_discovery` on the table it reads. -/
def replayedDiscovery (receipt : Uuid) (s : Store) :
    Except StoreError (Option DiscoveryPersistence) :=
  match s.persistenceReceipts.lookup receipt with
  | none => .ok none
  | some row =>
    match row.result with
    | none => .ok none
    | some (.discovery persisted) => .ok (some persisted)
    | some (.runtime _) => .error (.invalid "failed to decode persistence result")

def removeReceiptTx (receipt : Uuid) (s : Store) : Except StoreError (Unit × Store) :=
  .ok ((), { s with persistenceReceipts := s.persistenceReceipts.erase receipt })

/-- The three database calls of `persist_hash_discovery_with_receipt`; a failed
removal of the receipt is only logged. -/
def persistHashDiscoveryWithReceipt (lookup : Option StoreError) (turn : Turn)
    (cleanup : Fate StoreError) (hash : InfoHash) (source : String) (peers : List PeerContact)
    (limit : Nat) (receipt : Uuid) (s : Store) : Except StoreError DiscoveryPersistence × Store :=
  match lookup with
  | some e => (.error e, s)
  | none =>
    match replayedDiscovery receipt s with
    | .error e => (.error e, s)
    | .ok (some persisted) => (.ok persisted, s)
    | .ok none =>
      match transact turn.fate
          (persistDiscoveryTx turn.now hash source peers limit receipt) s with
      | (.error e, s) => (.error e, s)
      | (.ok outcome, s) => (.ok outcome, (transact cleanup (removeReceiptTx receipt) s).2)

/-! ## Job states -/

/-- `update_hash_job_failure`: the number of rows it matched. -/
def updateHashJobFailureTx (now : Int) (hash : InfoHash) (status : JobStatus)
    (attempts : Nat) (next : Int) (failure : String) (c : Catalogue) :
    Except StoreError (Nat × Catalogue) :=
  match c.hashJobs.lookup hash with
  | none => .ok (0, c)
  | some row =>
    -- The statement spares complete jobs.
    if row.status = .complete then .ok (0, c)
    else
      .ok (1, { c with hashJobs := c.hashJobs.insert hash { row with
        status := status
        attemptCount := attempts
        nextAttemptAt := next
        lastFailure := some failure
        updatedAt := now } })

/-- An update of a job changes the job table only. -/
theorem updateHashJobFailureTx_frame {now : Int} {hash : InfoHash} {status : JobStatus}
    {attempts n : Nat} {next : Int} {failure : String} {c c' : Catalogue}
    (h : updateHashJobFailureTx now hash status attempts next failure c = .ok (n, c')) :
    c' = { c with hashJobs := c'.hashJobs } := by
  rw [updateHashJobFailureTx] at h
  split at h
  · cases h
    rfl
  · split at h <;> cases h <;> rfl

def hashJobIsTerminal (hash : InfoHash) (c : Catalogue) : Bool :=
  match c.hashJobs.lookup hash with
  | none => false
  | some row => row.status.isTerminal

def hashJobPeersOf (hash : InfoHash) (limit : Nat) (c : Catalogue) : List PeerContact :=
  ((rankedPeers hash c).take limit).map PeerContact.mk

/-- The condition of `due_hash_jobs` on one row. -/
def isDue (now : Int) (c : Catalogue) (hash : InfoHash) (row : HashJobRow) : Bool :=
  row.status.isSchedulable && row.nextAttemptAt ≤ now &&
    c.hashJobPeers.entries.any fun e => e.1.1 = hash

structure HashJobRecord where
  infoHash : InfoHash
  status : JobStatus
  attemptCount : Nat
  nextAttemptAt : Int
  lastFailure : Option String

/-- `ORDER BY j.next_attempt_at,j.updated_at,j.info_hash LIMIT ?` over the due rows. -/
def dueHashJobs (now : Int) (limit : Nat) (c : Catalogue) : List HashJobRecord :=
  let rows := c.hashJobs.entries.filter fun e => isDue now c e.1 e.2
  let before (a b : Σ _ : InfoHash, HashJobRow) : Prop :=
    a.2.nextAttemptAt < b.2.nextAttemptAt ∨ (a.2.nextAttemptAt = b.2.nextAttemptAt ∧
      (a.2.updatedAt < b.2.updatedAt ∨
        (a.2.updatedAt = b.2.updatedAt ∧ a.1.toNat ≤ b.1.toNat)))
  have : DecidableRel before := fun _ _ => inferInstanceAs (Decidable (_ ∨ _))
  ((rows.insertionSort before).take limit).map fun e =>
    ⟨e.1, e.2.status, e.2.attemptCount.toNat, e.2.nextAttemptAt, e.2.lastFailure⟩

/-! ## Attempts on peers -/

def hashMismatchText : String := "metadata hash mismatch"

/-- `set_peer_attempt`: the foreign key refuses an attempt for an unknown torrent. -/
def setPeerAttemptTx (now : Int) (hash : InfoHash) (addr : SocketAddrV4)
    (error : Option String) (c : Catalogue) : Except StoreError (Unit × Catalogue) :=
  if (c.torrents.lookup hash).isNone then
    .error (.database false "Cannot add or update a child row: a foreign key constraint fails")
  else
    .ok ((), { c with
      torrents := c.torrents.adjust hash fun row => { row with lastAttempt := now }
      metadataPeerAttempts := c.metadataPeerAttempts.upsert (hash, addr) ⟨now, error⟩
        fun _ => ⟨now, error⟩ })

inductive PeerRetryEligibility
  | eligible
  | retryAt (time : Int)
  | rejected
  deriving DecidableEq

def peerRetryEligibility (now : Int) (hash : InfoHash) (addr : SocketAddrV4) (hours : Nat)
    (c : Catalogue) : PeerRetryEligibility :=
  match c.metadataPeerAttempts.lookup (hash, addr) with
  | none => .eligible
  | some row =>
    if row.lastError = some hashMismatchText then .rejected
    else
      let retryAt := saturatingAddI64 row.lastAttempt (hours * 3600)
      if 0 < hours ∧ now < retryAt then .retryAt retryAt else .eligible

end Btfind
