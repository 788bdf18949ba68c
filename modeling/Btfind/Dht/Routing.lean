import Mathlib.Data.List.Sort
import Btfind.Library.KeyedTable
import Btfind.Library.PrefixPath
import Btfind.Types

/-!
# The routing table

The buckets of `RoutingTable` and the operations on them. An index outside an array
and an `expect` that fails are panics, and so is a loop that does not end; an
operation that panics has no result.
-/

namespace Btfind

open PrefixPath

def nodeIdBits : Nat := 160

/-- `K` -/
def bucketSize : Nat := 8

def badAfterFailures : Nat := 2

/-- `id[bit / 8] & (0x80 >> (bit % 8)) != 0` -/
def bitValue (id : NodeId) (bit : Nat) : Option Bool :=
  if bit < nodeIdBits then some (id.getMsbD bit) else none

def setBit (id : NodeId) (bit : Nat) (value : Bool) : Option NodeId :=
  if bit < nodeIdBits then
    let mask := BitVec.twoPow 160 (nodeIdBits - 1 - bit)
    some (if value then id ||| mask else id &&& ~~~mask)
  else none

/-- `node_id_distance`, compared as bytes. -/
def nodeIdDistance (a b : NodeId) : Nat := (a ^^^ b).toNat

structure ContactRecord where
  contact : NodeContact
  unanswered : Nat
  deriving DecidableEq

/-- `span` holds `prefix` and `prefix_len`. -/
structure Bucket where
  span : Prefix 160
  nodes : KeyedTable NodeId ContactRecord
  replacements : List NodeContact

namespace Bucket

def new (bits : NodeId) (len : Nat) : Bucket := ⟨⟨bits, len⟩, ∅, []⟩

/-- `(0..prefix_len).all(..)`, which stops at the first bit that differs. -/
def contains (b : Bucket) (id : NodeId) : Option Bool :=
  (List.range b.span.len).allM fun bit => do
    return (← bitValue b.span.bits bit) == (← bitValue id bit)

/-- `mark_validated` on a live contact. -/
def refresh (id : NodeId) (addr : SocketAddrV4) (b : Bucket) : Bucket :=
  { b with nodes := b.nodes.adjust id fun record =>
    { record with contact.addr := addr, unanswered := 0 } }

/-- `mark_validated` on a new contact. -/
def enroll (id : NodeId) (addr : SocketAddrV4) (b : Bucket) : Bucket :=
  { b with
    replacements := b.replacements.filter fun contact => contact.id ≠ id
    nodes := b.nodes.insert id ⟨⟨id, addr⟩, 0⟩ }

/-- The first bad node, in key order. -/
def firstBad (b : Bucket) : Option NodeId :=
  let before (x y : Σ _ : NodeId, ContactRecord) : Prop := x.1.toNat ≤ y.1.toNat
  have : DecidableRel before := fun _ _ => inferInstanceAs (Decidable (_ ≤ _))
  ((b.nodes.entries.insertionSort before).find? fun e =>
    badAfterFailures ≤ e.2.unanswered).map Sigma.fst

/-- The id or the address of the contact is among the replacements. -/
def knows (contact : NodeContact) (b : Bucket) : Bool :=
  b.replacements.any fun existing => existing.id = contact.id || existing.addr = contact.addr

/-- Append a replacement, in place of the oldest one if the bucket is full. -/
def pushReplacement (contact : NodeContact) (b : Bucket) : Bucket :=
  let kept := if bucketSize ≤ b.replacements.length then b.replacements.tail else b.replacements
  { b with replacements := kept ++ [contact] }

/-- Append a replacement of a split bucket, if there is room for it. -/
def offerReplacement (contact : NodeContact) (b : Bucket) : Bucket :=
  if b.replacements.length < bucketSize then
    { b with replacements := b.replacements ++ [contact] }
  else b

/-- `record_failure` on the bucket of the node. -/
def recordFailure (id : NodeId) (b : Bucket) : Bucket :=
  match b.nodes.lookup id with
  | none => b
  | some record =>
    -- `saturating_add` on a `u8`
    let unanswered := min (record.unanswered + 1) 255
    if badAfterFailures ≤ unanswered then { b with nodes := b.nodes.erase id }
    else { b with nodes := b.nodes.insert id { record with unanswered := unanswered } }

/-- The half to which a node of a split bucket goes. -/
def scatterNode (halves : Bucket × Bucket) (entry : Σ _ : NodeId, ContactRecord) :
    Option (Bucket × Bucket) := do
  if ← halves.2.contains entry.1 then
    return (halves.1, { halves.2 with nodes := halves.2.nodes.insert entry.1 entry.2 })
  else
    return ({ halves.1 with nodes := halves.1.nodes.insert entry.1 entry.2 }, halves.2)

def scatterReplacement (halves : Bucket × Bucket) (contact : NodeContact) :
    Option (Bucket × Bucket) := do
  if ← halves.2.contains contact.id then
    return (halves.1, halves.2.offerReplacement contact)
  else return (halves.1.offerReplacement contact, halves.2)

/-- The two buckets that replace a bucket. -/
def split (b : Bucket) : Option (Bucket × Bucket) := do
  let nextLen := b.span.len + 1
  let rightPrefix ← setBit b.span.bits b.span.len true
  let halves ← b.nodes.entries.foldlM scatterNode
    (Bucket.new b.span.bits nextLen, Bucket.new rightPrefix nextLen)
  b.replacements.foldlM scatterReplacement halves

end Bucket

structure RoutingTable where
  ourId : NodeId
  buckets : List Bucket
  maxCandidates : Nat

/-- `position(|bucket| bucket.contains(id)).expect(..)` -/
def findBucket (id : NodeId) : List Bucket → Option Nat
  | [] => none
  | b :: bs => do
    if ← b.contains id then return 0
    else return (← findBucket id bs) + 1

/-- Pop the oldest replacement of the first bucket that has one. -/
def popReplacement : List Bucket → Option (List Bucket)
  | [] => none
  | b :: bs =>
    if b.replacements.isEmpty then (popReplacement bs).map (b :: ·)
    else some ({ b with replacements := b.replacements.tail } :: bs)

def countReplacements (bs : List Bucket) : Nat := (bs.map fun b => b.replacements.length).sum

/-- The loop of `add_candidate` that makes room. Every turn pops a replacement, so
their number is enough fuel. -/
def makeRoom (maxCandidates : Nat) : Nat → List Bucket → List Bucket
  | 0, bs => bs
  | fuel + 1, bs =>
    if maxCandidates ≤ countReplacements bs then
      match popReplacement bs with
      | some bs' => makeRoom maxCandidates fuel bs'
      | none => bs
    else bs

namespace RoutingTable

def withCandidateCapacity (ourId : NodeId) (maxCandidates : Nat) : RoutingTable :=
  ⟨ourId, [.new 0 0], maxCandidates⟩

def bucketIndex (id : NodeId) (t : RoutingTable) : Option Nat := findBucket id t.buckets

def setBucket (index : Nat) (b : Bucket) (t : RoutingTable) : RoutingTable :=
  { t with buckets := t.buckets.set index b }

def candidateCount (t : RoutingTable) : Nat := countReplacements t.buckets

def nodeCount (t : RoutingTable) : Nat := (t.buckets.map fun b => b.nodes.count).sum

def contains (id : NodeId) (t : RoutingTable) : Option Bool := do
  let index ← t.bucketIndex id
  let b ← t.buckets[index]?
  return (b.nodes.lookup id).isSome

def splitBucket (index : Nat) (t : RoutingTable) : Option RoutingTable := do
  let b ← t.buckets[index]?
  let halves ← b.split
  return { t with buckets :=
    t.buckets.take index ++ halves.1 :: halves.2 :: t.buckets.drop (index + 1) }

def addCandidate (contact : NodeContact) (t : RoutingTable) : Option (RoutingTable × Bool) := do
  if contact.id = t.ourId then return (t, false)
  else if ← t.contains contact.id then return (t, false)
  else
    let index ← t.bucketIndex contact.id
    let b ← t.buckets[index]?
    if b.knows contact then return (t, false)
    else
      let t := { t with buckets := makeRoom t.maxCandidates t.candidateCount t.buckets }
      -- The bucket may have lost a replacement itself.
      let b ← t.buckets[index]?
      return (t.setBucket index (b.pushReplacement contact), true)

/-- The loop of `mark_validated`. -/
def markLoop (id : NodeId) (addr : SocketAddrV4) : Nat → RoutingTable →
    Option (RoutingTable × Bool)
  | 0, _ => none
  | fuel + 1, t => do
    let index ← t.bucketIndex id
    let b ← t.buckets[index]?
    if (b.nodes.lookup id).isSome then return (t.setBucket index (b.refresh id addr), false)
    else if b.nodes.count < bucketSize then
      return (t.setBucket index (b.enroll id addr), true)
    -- Only the bucket of our own id is split.
    else if (← b.contains t.ourId) && b.span.len < nodeIdBits then
      markLoop id addr fuel (← t.splitBucket index)
    else
      match b.firstBad with
      | some bad =>
        markLoop id addr fuel (t.setBucket index { b with nodes := b.nodes.erase bad })
      | none => return ((← t.addCandidate ⟨id, addr⟩).1, false)

/-- A bucket is split at most once for each bit of an id. -/
def markValidated (id : NodeId) (addr : SocketAddrV4) (t : RoutingTable) :
    Option (RoutingTable × Bool) :=
  if id = t.ourId then some (t, false) else markLoop id addr (nodeIdBits + 1) t

def addNode (id : NodeId) (addr : SocketAddrV4) (t : RoutingTable) :
    Option (RoutingTable × Bool) := t.markValidated id addr

def recordFailure (id : NodeId) (t : RoutingTable) : Option RoutingTable := do
  let index ← t.bucketIndex id
  let b ← t.buckets[index]?
  return t.setBucket index (b.recordFailure id)

/-- The contacts closest to a target, `count` of them at most. -/
def closest (target : NodeId) (count : Nat) (contacts : List NodeContact) : List NodeContact :=
  let before (a b : NodeContact) : Prop := nodeIdDistance a.id target ≤ nodeIdDistance b.id target
  have : DecidableRel before := fun _ _ => inferInstanceAs (Decidable (_ ≤ _))
  (contacts.insertionSort before).take count

def liveContacts (t : RoutingTable) : List NodeContact :=
  t.buckets.flatMap fun b => b.nodes.entries.map fun e => e.2.contact

def candidates (t : RoutingTable) : List NodeContact := t.buckets.flatMap Bucket.replacements

def closestNodes (target : NodeId) (count : Nat) (t : RoutingTable) : List NodeContact :=
  closest target count t.liveContacts

def closestCandidates (target : NodeId) (count : Nat) (t : RoutingTable) : List NodeContact :=
  closest target count t.candidates

end RoutingTable

end Btfind
