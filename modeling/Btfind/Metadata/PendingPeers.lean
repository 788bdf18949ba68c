import Mathlib.Data.Multiset.AddSub
import Btfind.Library.Newcomers
import Btfind.Metadata.HashJob

/-!
# The pending peers of a job

What `merge_peers` and `take_round` leave of the pending peers, in one call and over any calls:
new addresses go in front, in the order in which they came, and no peer is lost.
-/

namespace Btfind

open Newcomers

namespace HashJob

/-- The peers that a merge admits: the first new ones, as many as there are free slots. -/
def admissible (peers : List PeerContact) (limit : Nat) (job : HashJob) : List PeerContact :=
  (newcomers PeerContact.addr (peerAddrs job.peers) peers).take (limit - job.peers.length)

/-- The loop of `merge_peers` against the list it has read so far. -/
theorem admitPeers_eq {available : Nat} {known : List SocketAddrV4} {ps : List PeerContact}
    (before : List PeerContact) {admitted : List PeerContact} {seen : Finset SocketAddrV4}
    (hseen : ∀ k, k ∈ seen ↔ k ∈ known ∨ k ∈ before.map PeerContact.addr)
    (hadmitted : admitted = newcomers PeerContact.addr known before)
    (hroom : admitted.length ≤ available) :
    (admitPeers available ps admitted seen).1 =
      (newcomers PeerContact.addr known (before ++ ps)).take available := by
  induction ps generalizing before admitted seen with
  | nil =>
    rw [List.append_nil, ← hadmitted]
    exact (List.take_of_length_le hroom).symm
  | cons p ps ih =>
    have hnext : ∀ k, k ∈ insert p.addr seen ↔
        k ∈ known ∨ k ∈ (before ++ [p]).map PeerContact.addr := by
      intro k
      rw [Finset.mem_insert, hseen, List.map_append, List.mem_append, List.map_singleton,
        List.mem_singleton]
      tauto
    rw [List.append_cons before p ps]
    rw [admitPeers]
    split
    · next hfull =>
      -- The slots are used up: what follows cannot change the first newcomers.
      have hprefix : admitted <+: newcomers PeerContact.addr known (before ++ [p] ++ ps) := by
        rw [hadmitted, List.append_assoc]
        exact newcomers_prefix
      have hlen : admitted.length = available := Nat.le_antisymm hroom hfull
      rw [← hlen]
      exact List.prefix_iff_eq_take.mp hprefix
    · next hfull =>
      split
      · next hold =>
        have hsame : insert p.addr seen = seen := Finset.insert_eq_of_mem hold
        rw [hsame] at hnext
        refine ih _ hnext ?_ hroom
        rw [newcomers_snoc_of_seen ((hseen p.addr).mp hold), hadmitted]
      · next hnew =>
        refine ih _ hnext ?_ ?_
        · rw [newcomers_snoc_of_new (fun h => hnew ((hseen p.addr).mpr h)), hadmitted]
        · rw [List.length_append, List.length_singleton]
          omega

variable (job : HashJob) (peers : List PeerContact) (limit : Nat)

theorem mergePeers_admissible :
    (job.mergePeers peers limit).1.peers = job.admissible peers limit ++ job.peers ∧
      (job.mergePeers peers limit).2 = (job.admissible peers limit).length := by
  have hadmitted : (admitPeers (limit - job.peers.length) peers [] job.peerSet).1 =
      job.admissible peers limit := by
    refine admitPeers_eq [] (fun k => ?_) rfl (Nat.zero_le _)
    rw [job.synced, List.mem_toFinset]
    simp
  exact ⟨congrArg (· ++ job.peers) hadmitted, congrArg List.length hadmitted⟩

/-- A job without a free slot is left alone. -/
theorem mergePeers_full (hfull : limit ≤ job.peers.length) :
    job.mergePeers peers limit = (job, 0) := by
  have hnone : limit - job.peers.length = 0 := Nat.sub_eq_zero_of_le hfull
  have hstop : admitPeers (limit - job.peers.length) peers [] job.peerSet = ([], job.peerSet) := by
    rw [hnone]
    cases peers <;> rfl
  rw [mergePeers]
  simp only [hstop, List.nil_append, List.length_nil]

/-- An admitted address was not pending. -/
theorem not_pending_of_admissible {p : PeerContact} (hp : p ∈ job.admissible peers limit) :
    p ∉ job.peers := by
  have hnodup := (job.mergePeers peers limit).1.nodup
  rw [(job.mergePeers_admissible peers limit).1] at hnodup
  have hdistinct := List.Nodup.of_map _ hnodup
  intro hpending
  exact (List.nodup_append.mp hdistinct).2.2 p hp p hpending rfl

end HashJob

/-! ## Histories -/

inductive JobCall
  | mergePeers (peers : List PeerContact)
  | takeRound (count : Nat)

/-- A job, with all peers that its merges admitted and all that its rounds took. -/
structure JobHistory where
  job : HashJob
  admitted : List PeerContact
  taken : List PeerContact

namespace JobHistory

def start (attemptCount : Nat) : JobHistory := ⟨.new attemptCount, [], []⟩

/-- A merge puts as many peers in front as it says that it added. -/
def call (limit : Nat) (h : JobHistory) : JobCall → JobHistory
  | .mergePeers peers =>
    let merged := h.job.mergePeers peers limit
    { h with job := merged.1, admitted := h.admitted ++ merged.1.peers.take merged.2 }
  | .takeRound count =>
    let round := h.job.takeRound count
    { h with job := round.2, taken := h.taken ++ round.1 }

def run (limit : Nat) (calls : List JobCall) (h : JobHistory) : JobHistory :=
  calls.foldl (call limit) h

/-- Every admitted peer was taken or is pending, and the slots suffice. -/
structure Conserved (limit : Nat) (h : JobHistory) : Prop where
  perm : h.admitted.Perm (h.taken ++ h.job.peers)
  bounded : h.job.peers.length ≤ limit

variable {limit : Nat} {h : JobHistory}

theorem admitted_mergePeers (peers : List PeerContact) :
    (h.call limit (.mergePeers peers)).admitted =
      h.admitted ++ h.job.admissible peers limit := by
  obtain ⟨hpeers, hcount⟩ := h.job.mergePeers_admissible peers limit
  show h.admitted ++ List.take _ _ = _
  rw [hpeers, hcount, List.take_left]

theorem Conserved.call (hc : Conserved limit h) (c : JobCall) : Conserved limit (h.call limit c) := by
  cases c with
  | mergePeers peers =>
    obtain ⟨hpeers, -⟩ := h.job.mergePeers_admissible peers limit
    refine ⟨?_, h.job.mergePeers_length peers limit hc.bounded⟩
    rw [admitted_mergePeers]
    show List.Perm _ (h.taken ++ (h.job.mergePeers peers limit).1.peers)
    rw [hpeers]
    have hadd : (h.admitted ++ h.job.admissible peers limit).Perm
        ((h.taken ++ h.job.peers) ++ h.job.admissible peers limit) := hc.perm.append_right _
    rw [List.append_assoc] at hadd
    exact hadd.trans (List.perm_append_comm.append_left h.taken)
  | takeRound count =>
    refine ⟨?_, ?_⟩
    · show h.admitted.Perm ((h.taken ++ (h.job.takeRound count).1) ++
        (h.job.takeRound count).2.peers)
      rw [HashJob.takeRound_fst, HashJob.takeRound_peers, List.append_assoc, List.take_append_drop]
      exact hc.perm
    · show (h.job.takeRound count).2.peers.length ≤ limit
      rw [HashJob.takeRound_peers, List.length_drop]
      have hbound := hc.bounded
      omega

theorem Conserved.run (hc : Conserved limit h) (calls : List JobCall) :
    Conserved limit (h.run limit calls) := by
  induction calls generalizing h with
  | nil => exact hc
  | cons c calls ih => exact ih (hc.call c)

/-- After any calls: a merge puts the first new addresses in front of the pending peers, a round
takes the first pending peers, and every admitted peer was taken or is pending, so that an
address is admitted again only after it was taken. -/
theorem merging_conserves (limit attemptCount : Nat) (calls : List JobCall) :
    let h := (start attemptCount).run limit calls
    (∀ peers, (h.job.mergePeers peers limit).1.peers =
        (newcomers PeerContact.addr (peerAddrs h.job.peers) peers).take
          (limit - h.job.peers.length) ++ h.job.peers ∧
      (h.job.mergePeers peers limit).2 = ((newcomers PeerContact.addr (peerAddrs h.job.peers)
        peers).take (limit - h.job.peers.length)).length ∧
      (limit ≤ h.job.peers.length → h.job.mergePeers peers limit = (h.job, 0)) ∧
      ∀ p ∈ (h.job.mergePeers peers limit).1.peers.take (h.job.mergePeers peers limit).2,
        p ∉ h.job.peers ∧ h.admitted.count p = h.taken.count p) ∧
    (∀ count, (h.job.takeRound count).1 = h.job.peers.take (min count h.job.peers.length) ∧
      (h.job.takeRound count).2.peers = h.job.peers.drop (min count h.job.peers.length)) ∧
    (h.admitted : Multiset PeerContact) = h.taken + h.job.peers ∧
    h.job.peers.length ≤ limit ∧ (peerAddrs h.job.peers).Nodup := by
  intro h
  have hstart : Conserved limit (start attemptCount) := ⟨.refl _, Nat.zero_le _⟩
  have hc : Conserved limit h := hstart.run calls
  refine ⟨fun peers => ?_, fun count => ?_, ?_, hc.bounded, h.job.nodup⟩
  · obtain ⟨hpeers, hcount⟩ := h.job.mergePeers_admissible peers limit
    refine ⟨hpeers, hcount, h.job.mergePeers_full peers limit, fun p hp => ?_⟩
    rw [hpeers, hcount, List.take_left] at hp
    have hfree := h.job.not_pending_of_admissible peers limit hp
    refine ⟨hfree, ?_⟩
    rw [hc.perm.count_eq, List.count_append, List.count_eq_zero.mpr hfree, Nat.add_zero]
  · rw [HashJob.takeRound_fst, HashJob.takeRound_peers]
    rw [List.take_eq_take_min, List.drop_eq_drop_min]
    exact ⟨rfl, rfl⟩
  · exact Multiset.coe_eq_coe.mpr hc.perm

end JobHistory

end Btfind
