import Btfind.Dht.FailureAccounts
import Btfind.Library.Paging
import Btfind.Wire.Codec

/-!
# The closest contacts

Distances are compared as bytes, which is the order of the numbers. What a table returns for a
target are the contacts nearest to it, in order, and a lookup asks no id twice.
-/

namespace Btfind

open RoutingTable Paging

/-! ## Distances -/

/-- `node_id_distance` -/
def nodeIdDistanceBytes (a b : NodeId) : Bytes :=
  List.zipWith (· ^^^ ·) (idToBytes a) (idToBytes b)

theorem nodeIdDistanceBytes_eq (a b : NodeId) :
    nodeIdDistanceBytes a b = toBeBytes 20 (nodeIdDistance a b) := by
  rw [nodeIdDistanceBytes, idToBytes, idToBytes, toBeBytes_xor, nodeIdDistance, BitVec.toNat_xor]

/-- Arrays of bytes compare lexicographically. -/
theorem nodeIdDistanceBytes_lt {a b target : NodeId} :
    nodeIdDistanceBytes a target < nodeIdDistanceBytes b target ↔
      nodeIdDistance a target < nodeIdDistance b target := by
  have hpow : 256 ^ 20 = 2 ^ 160 := by norm_num
  rw [nodeIdDistanceBytes_eq, nodeIdDistanceBytes_eq]
  refine toBeBytes_lt ?_ ?_
  · rw [hpow]
    exact (a ^^^ target).isLt
  · rw [hpow]
    exact (b ^^^ target).isLt

theorem nodeIdDistance_injective (target : NodeId) :
    Function.Injective fun id => nodeIdDistance id target := by
  intro a b h
  have hxor : a ^^^ target = b ^^^ target := BitVec.eq_of_toNat_eq h
  exact (BitVec.xor_left_inj target).mp hxor

/-! ## Selections -/

/-- The chosen contacts are the nearest ones, in order, and no id occurs twice. -/
structure Closest (target : NodeId) (count : Nat) (contacts chosen : List NodeContact) : Prop where
  length : chosen.length = min count contacts.length
  subset : ∀ node ∈ chosen, node ∈ contacts
  distinct : (chosen.map NodeContact.id).Nodup
  ascending : chosen.Pairwise fun a b =>
    nodeIdDistanceBytes a.id target < nodeIdDistanceBytes b.id target
  nearer : chosen.Pairwise fun a b => nodeIdDistance a.id target < nodeIdDistance b.id target
  farther : ∀ node ∈ contacts, node ∉ chosen → ∀ near ∈ chosen,
    nodeIdDistance near.id target < nodeIdDistance node.id target

theorem closest_eq (target : NodeId) (count : Nat) (contacts : List NodeContact) :
    closest target count contacts =
      (inOrder (fun node : NodeContact => nodeIdDistance node.id target) contacts).take count := rfl

/-- Different ids have different distances, so that nothing is left to the sort. -/
theorem closest_spec {contacts : List NodeContact} (hids : (contacts.map NodeContact.id).Nodup)
    (target : NodeId) (count : Nat) :
    Closest target count contacts (closest target count contacts) := by
  have hinj : ∀ a ∈ contacts, ∀ b ∈ contacts,
      nodeIdDistance a.id target = nodeIdDistance b.id target → a = b := by
    intro a ha b hb heq
    exact List.inj_on_of_nodup_map hids ha hb (nodeIdDistance_injective target heq)
  have hascending := ascending_inOrder_of_distinct hinj (List.Nodup.of_map _ hids)
  have hperm := List.perm_insertionSort
    (fun a b : NodeContact => nodeIdDistance a.id target ≤ nodeIdDistance b.id target) contacts
  rw [closest_eq]
  refine ⟨?_, ?_, ?_, ?_, hascending.take, ?_⟩
  · rw [List.length_take]
    exact congrArg (min count) hperm.length_eq
  · exact fun node hnode => mem_inOrder.mp (List.mem_of_mem_take hnode)
  · refine List.Nodup.sublist ((List.take_sublist _ _).map _) ?_
    exact ((hperm.map NodeContact.id).nodup_iff).mpr hids
  · exact List.Pairwise.imp (fun hlt => nodeIdDistanceBytes_lt.mpr hlt) hascending.take
  · intro node hnode hout near hnear
    exact hascending.rank_lt_of_mem_take hnear (mem_inOrder.mpr hnode) hout

/-! ## The contacts of a table -/

section Table

variable {t : RoutingTable} {depth : Nat}

theorem RoutingTable.Sound.live_ids (h : t.Sound depth) :
    (t.liveContacts.map NodeContact.id).Nodup := by
  refine contacts_nodup (fun x => (h.path.count_eq_one x).le) ?_ ?_
  · intro b hb node hnode
    obtain ⟨e, he, rfl⟩ := List.mem_map.mp hnode
    have hlookup : b.nodes.lookup e.1 = some e.2 := AList.lookup_eq_some_iff.mpr he
    rw [(h.buckets b hb).named _ _ hlookup]
    exact (h.buckets b hb).placed _ _ hlookup
  · intro b hb
    -- In a bucket the ids are the keys.
    have hkeys : b.nodes.entries.map (fun e => e.2.contact.id) = b.nodes.entries.map Sigma.fst := by
      refine List.map_congr_left fun e he => ?_
      exact (h.buckets b hb).named _ _ (AList.lookup_eq_some_iff.mpr he)
    rw [List.map_map]
    change (b.nodes.entries.map fun e => e.2.contact.id).Nodup
    rw [hkeys]
    exact b.nodes.nodupKeys

theorem RoutingTable.length_liveContacts (t : RoutingTable) :
    t.liveContacts.length = t.nodeCount := by
  rw [liveContacts, nodeCount, List.length_flatMap]
  refine congrArg List.sum (List.map_congr_left fun b _ => ?_)
  rw [List.length_map]
  rfl

theorem RoutingTable.length_candidates (t : RoutingTable) :
    t.candidates.length = t.candidateCount := by
  rw [candidates, candidateCount, countReplacements, List.length_flatMap]

end Table

/-! ## Lookups -/

/-- Candidates are not live, so a lookup asks no id twice. -/
theorem DhtCrawler.lookupNodes_ids (hash : InfoHash) (c : DhtCrawler) :
    ((c.lookupNodes hash).map NodeContact.id).Nodup := by
  obtain ⟨depth, hsound⟩ := c.routing.sound
  have hlive := closest_spec hsound.live_ids hash lookupFanout
  have hcandidates := closest_spec hsound.contactsOk.ids hash
    (lookupFanout - (c.routing.table.closestNodes hash lookupFanout).length)
  rw [lookupNodes]
  split
  · rw [List.map_append, List.nodup_append]
    refine ⟨hlive.distinct, hcandidates.distinct, ?_⟩
    intro x hx y hy heq
    obtain ⟨node, hnode, rfl⟩ := List.mem_map.mp hx
    obtain ⟨candidate, hcandidate, rfl⟩ := List.mem_map.mp hy
    obtain ⟨record, hrecord, -⟩ := c.routing.live_of_mem (hlive.subset node hnode)
    have hnone := hsound.contactsOk.unvalidated candidate
      (hcandidates.subset candidate hcandidate)
    rw [← heq, hrecord] at hnone
    cases hnone
  · exact hlive.distinct

/-- A table that is reached returns the nearest live contacts and the nearest candidates, and the
nodes that a lookup asks are few and have different ids. -/
theorem closest_selection :
    (∀ ourId maxCandidates ops, ∃ t,
      runOps (withCandidateCapacity ourId maxCandidates) ops = some t ∧
      t.liveContacts.length = t.nodeCount ∧ t.candidates.length = t.candidateCount ∧
      ∀ target count,
        Closest target count t.liveContacts (t.closestNodes target count) ∧
        Closest target count t.candidates (t.closestCandidates target count)) ∧
    ∀ (c : DhtCrawler) hash,
      (c.lookupNodes hash).length ≤ lookupFanout ∧
      ((c.lookupNodes hash).map NodeContact.id).Nodup := by
  constructor
  · intro ourId maxCandidates ops
    obtain ⟨t, depth, hrun, hsound, -⟩ := run_sound ourId maxCandidates ops
    refine ⟨t, hrun, t.length_liveContacts, t.length_candidates, fun target count => ?_⟩
    exact ⟨closest_spec hsound.live_ids target count,
      closest_spec hsound.contactsOk.ids target count⟩
  · exact fun c hash => ⟨c.length_lookupNodes hash, c.lookupNodes_ids hash⟩

end Btfind
