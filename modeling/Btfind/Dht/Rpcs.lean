import Btfind.Bencode.Value
import Btfind.Dht.Krpc
import Btfind.Library.Quarantine
import Btfind.Wire.Messages

/-!
# Remote procedure calls

The pending calls of the crawler, their transaction ids, and the tracker of the lookups
of real hashes. The history of the calls and of the lookups is kept for the proofs; the
crawler keeps none.
-/

namespace Btfind

open Quarantine

inductive RpcMethod
  | ping
  | findNode
  | getPeers
  | sampleInfohashes
  deriving DecidableEq

/-- The arguments of `send_rpc`. `root` is no argument of the source: it numbers the
bootstrap call from which a call descends. -/
structure RpcRequest where
  expectedAddr : SocketAddrV4
  expectedNodeId : Option NodeId
  method : RpcMethod
  target : NodeId
  infoHash : Option InfoHash
  isRealLookup : Bool
  continuationBudget : Nat
  lookupId : Option (BitVec 64)
  root : Option Nat

structure PendingRpc extends RpcRequest where
  deadline : Nat

/-- How a call ends. -/
inductive RpcOutcome
  | answered (message : KrpcMessage)
  | malformed
  | failed
  | timedOut

def transactionIdBytes (id : BitVec 16) : Bytes := toBeBytes 2 id.toNat

/-! ## Lookups of real hashes -/

structure RealLookupProgress where
  outstanding : Nat
  peersFound : Bool

inductive LookupAction
  | began (id : BitVec 64)
  | initiated (id : BitVec 64)
  | finalized (id : BitVec 64) (succeeded : Bool)
  deriving DecidableEq

/-- `next_id` and `active`, and the counters of the metrics. -/
structure RealLookupTracker where
  nextId : BitVec 64
  active : KeyedTable (BitVec 64) RealLookupProgress
  initiated : Nat
  succeeded : Nat
  failed : Nat
  rpcTimeouts : Nat
  rpcFailures : Nat
  rpcUnsent : Nat
  history : List LookupAction

namespace RealLookupTracker

def new : RealLookupTracker := ⟨0, ∅, 0, 0, 0, 0, 0, 0, []⟩

def begin (t : RealLookupTracker) : BitVec 64 × RealLookupTracker :=
  (t.nextId, { t with
    nextId := t.nextId + 1
    active := t.active.insert t.nextId ⟨0, false⟩
    history := .began t.nextId :: t.history })

def attach (id : BitVec 64) (t : RealLookupTracker) : RealLookupTracker :=
  { t with active := t.active.adjust id fun p => { p with outstanding := p.outstanding + 1 } }

def complete (id : BitVec 64) (foundPeers : Bool) (t : RealLookupTracker) : RealLookupTracker :=
  match t.active.lookup id with
  | none => t
  | some p =>
    let p := ⟨p.outstanding - 1, p.peersFound || foundPeers⟩
    if 0 < p.outstanding then { t with active := t.active.insert id p }
    else
      let t := { t with
        active := t.active.erase id
        history := .finalized id p.peersFound :: t.history }
      if p.peersFound then { t with succeeded := t.succeeded + 1 }
      else { t with failed := t.failed + 1 }

def respond (id : BitVec 64) (foundPeers : Bool) (t : RealLookupTracker) : RealLookupTracker :=
  t.complete id foundPeers

def timeout (id : BitVec 64) (t : RealLookupTracker) : RealLookupTracker :=
  { t with rpcTimeouts := t.rpcTimeouts + 1 }.complete id false

def failure (id : BitVec 64) (t : RealLookupTracker) : RealLookupTracker :=
  { t with rpcFailures := t.rpcFailures + 1 }.complete id false

def started (id : BitVec 64) (t : RealLookupTracker) : RealLookupTracker :=
  if (t.active.lookup id).any fun p => 0 < p.outstanding then
    { t with initiated := t.initiated + 1, history := .initiated id :: t.history }
  else { t with active := t.active.erase id }

/-- `record_real_lookup_rpc_unsent` -/
def unsent (lookupId : Option (BitVec 64)) (t : RealLookupTracker) : RealLookupTracker :=
  if lookupId.isSome then { t with rpcUnsent := t.rpcUnsent + 1 } else t

end RealLookupTracker

/-! ## Calls -/

/-- What one call of `send_to` meets: the time that passes before it, and whether the
datagram is sent. -/
structure SendAnswer where
  elapsed : Nat
  sent : Bool

/-- `pending_rpcs`, `retired_transactions`, `NEXT_TX` and `lookups`, with the clock, the
number of calls of `send_to` so far and the number of bootstrap calls so far. -/
structure RpcState where
  pool : Pool Bytes PendingRpc RpcOutcome
  nextTx : BitVec 16
  attempts : Nat
  lookups : RealLookupTracker
  roots : Nat

/-- `find_map` over the transaction counter, and the counter after it. -/
def searchTransaction (free : BitVec 16 → Bool) : Nat → BitVec 16 → Option (BitVec 16) × BitVec 16
  | 0, tx => (none, tx)
  | turns + 1, tx => if free tx then (some tx, tx + 1) else searchTransaction free turns (tx + 1)

inductive SendOutcome
  | noTransaction
  | failed
  | sent (tx : BitVec 16)

namespace RpcState

def new (clock : Nat) (nextTx : BitVec 16) : RpcState := ⟨.empty clock, nextTx, 0, .new, 0⟩

def allocateTransaction (maxPendingRpcs : Nat) (r : RpcState) : Option (BitVec 16) × BitVec 16 :=
  if maxPendingRpcs ≤ r.pool.pending.count then (none, r.nextTx)
  else searchTransaction (fun tx => r.pool.Free (transactionIdBytes tx)) 65536 r.nextTx

/-- `send_rpc` after a transaction is allocated. -/
def transmit (rpcTimeout : Nat) (answer : SendAnswer) (request : RpcRequest) (tx : BitVec 16)
    (r : RpcState) : SendOutcome × RpcState :=
  let key := transactionIdBytes tx
  let pool := r.pool.advance answer.elapsed
  let rpc : PendingRpc := { request with deadline := pool.clock + rpcTimeout }
  if answer.sent then
    (.sent tx, { r with
      pool := pool.issue key rpc
      attempts := r.attempts + 1
      lookups := request.lookupId.elim r.lookups fun id => r.lookups.attach id })
  else
    -- The entry that was inserted before the call is removed again.
    (.failed, { r with
      pool := { pool with pending := (pool.pending.insert key rpc).erase key }
      attempts := r.attempts + 1
      lookups := r.lookups.unsent request.lookupId })

/-- `send_rpc` on the calls. -/
def sendRpc (maxPendingRpcs rpcTimeout : Nat) (answers : Nat → SendAnswer) (request : RpcRequest)
    (r : RpcState) : SendOutcome × RpcState :=
  match r.allocateTransaction maxPendingRpcs with
  | (none, nextTx) =>
    (.noTransaction, { r with nextTx := nextTx, lookups := r.lookups.unsent request.lookupId })
  | (some tx, nextTx) =>
    { r with nextTx := nextTx }.transmit rpcTimeout (answers r.attempts) request tx

end RpcState

end Btfind
