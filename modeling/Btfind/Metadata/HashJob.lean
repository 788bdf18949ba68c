import Mathlib.Data.Finset.Basic
import Mathlib.Data.Finset.Dedup
import Btfind.Types

/-!
# In-memory hash jobs

The pending peers of one info hash. The deque and the address set of the source
are fields here together with the proof that they agree, so every operation has
to re-establish the agreement once and for all.
-/

namespace Btfind

structure HashJob where
  peers : List PeerContact
  peerSet : Finset SocketAddrV4
  running : Bool
  attemptCount : Nat
  nodup : (peerAddrs peers).Nodup
  synced : peerSet = (peerAddrs peers).toFinset

namespace HashJob

def new (attemptCount : Nat) : HashJob where
  peers := []
  peerSet := ∅
  running := false
  attemptCount := attemptCount
  nodup := List.nodup_nil
  synced := rfl

/-- The loop of `merge_peers`: addresses already seen are skipped, and the loop
stops when the free slots are used up. -/
def admitPeers (available : Nat) :
    List PeerContact → List PeerContact → Finset SocketAddrV4 →
      List PeerContact × Finset SocketAddrV4
  | [], admitted, seen => (admitted, seen)
  | p :: ps, admitted, seen =>
    if available ≤ admitted.length then (admitted, seen)
    else if p.addr ∈ seen then admitPeers available ps admitted seen
    else admitPeers available ps (admitted ++ [p]) (insert p.addr seen)

/-- The admitted peers are new and distinct, and the seen set grew by exactly them. -/
def AdmitOk (old admitted : List PeerContact) (seen : Finset SocketAddrV4) : Prop :=
  (peerAddrs (admitted ++ old)).Nodup ∧ seen = (peerAddrs (admitted ++ old)).toFinset

theorem AdmitOk.extend {old admitted : List PeerContact} {seen : Finset SocketAddrV4}
    (h : AdmitOk old admitted seen) {p : PeerContact} (hp : p.addr ∉ seen) :
    AdmitOk old (admitted ++ [p]) (insert p.addr seen) := by
  obtain ⟨hn, hs⟩ := h
  rw [hs, List.mem_toFinset] at hp
  have hperm : (peerAddrs (admitted ++ [p] ++ old)).Perm (p.addr :: peerAddrs (admitted ++ old)) := by
    simp only [peerAddrs, List.map_append, List.map_cons, List.append_assoc,
      List.singleton_append]
    exact List.perm_middle
  constructor
  · rw [hperm.nodup_iff]
    exact List.nodup_cons.mpr ⟨hp, hn⟩
  · rw [List.toFinset_eq_of_perm _ _ hperm, hs, List.toFinset_cons]

theorem admitPeers_ok (available : Nat) {old : List PeerContact} (ps admitted : List PeerContact)
    (seen : Finset SocketAddrV4) (h : AdmitOk old admitted seen) :
    AdmitOk old (admitPeers available ps admitted seen).1
      (admitPeers available ps admitted seen).2 := by
  induction ps generalizing admitted seen with
  | nil => exact h
  | cons p ps ih =>
    unfold admitPeers
    split
    · exact h
    · split
      · exact ih admitted seen h
      · next hp => exact ih _ _ (h.extend hp)

theorem admitPeers_length (available : Nat) (ps admitted : List PeerContact)
    (seen : Finset SocketAddrV4) (h : admitted.length ≤ available) :
    (admitPeers available ps admitted seen).1.length ≤ available := by
  induction ps generalizing admitted seen with
  | nil => exact h
  | cons p ps ih =>
    unfold admitPeers
    split
    · exact h
    · split
      · exact ih admitted seen h
      · next hlen _ => exact ih _ _ (by simp; omega)

theorem admitPeers_subset (available : Nat) (ps admitted : List PeerContact)
    (seen : Finset SocketAddrV4) {p : PeerContact}
    (h : p ∈ (admitPeers available ps admitted seen).1) : p ∈ admitted ∨ p ∈ ps := by
  induction ps generalizing admitted seen with
  | nil => exact Or.inl h
  | cons q ps ih =>
    unfold admitPeers at h
    split at h
    · exact Or.inl h
    · split at h
      · exact (ih _ _ h).imp id (List.mem_cons_of_mem q)
      · rcases ih _ _ h with hm | hm
        · rcases List.mem_append.mp hm with hm | hm
          · exact Or.inl hm
          · exact Or.inr (by rw [List.mem_singleton.mp hm]; exact List.mem_cons_self)
        · exact Or.inr (List.mem_cons_of_mem q hm)

/-- Admit new addresses into the free slots, ahead of the pending ones. Also
returns how many were admitted. -/
def mergePeers (job : HashJob) (peers : List PeerContact) (limit : Nat) : HashJob × Nat :=
  let available := limit - job.peers.length
  have hold : AdmitOk job.peers [] job.peerSet := ⟨job.nodup, job.synced⟩
  have hok := admitPeers_ok available peers [] job.peerSet hold
  let admitted := admitPeers available peers [] job.peerSet
  ({ job with
      peers := admitted.1 ++ job.peers
      peerSet := admitted.2
      nodup := hok.1
      synced := hok.2 }, admitted.1.length)

/-- The loop of `take_round`. -/
def popPeers (limit : Nat) :
    List PeerContact → List PeerContact → Finset SocketAddrV4 →
      List PeerContact × List PeerContact × Finset SocketAddrV4
  | [], taken, seen => (taken, [], seen)
  | p :: ps, taken, seen =>
    if taken.length < limit then popPeers limit ps (taken ++ [p]) (seen.erase p.addr)
    else (taken, p :: ps, seen)

theorem popPeers_eq (limit : Nat) (ps taken : List PeerContact) (seen : Finset SocketAddrV4) :
    (popPeers limit ps taken seen).1 = taken ++ ps.take (limit - taken.length) ∧
      (popPeers limit ps taken seen).2.1 = ps.drop (limit - taken.length) := by
  induction ps generalizing taken seen with
  | nil => simp [popPeers]
  | cons p ps ih =>
    unfold popPeers
    split
    · next hlt =>
      obtain ⟨h1, h2⟩ := ih (taken ++ [p]) (seen.erase p.addr)
      have hk : limit - taken.length = limit - (taken ++ [p]).length + 1 := by simp; omega
      rw [h1, h2, hk]
      simp
    · next hlt =>
      have hk : limit - taken.length = 0 := by omega
      simp [hk]

theorem popPeers_synced (limit : Nat) (ps taken : List PeerContact) (seen : Finset SocketAddrV4)
    (hn : (peerAddrs ps).Nodup) (hs : seen = (peerAddrs ps).toFinset) :
    (popPeers limit ps taken seen).2.2 =
      (peerAddrs (popPeers limit ps taken seen).2.1).toFinset := by
  induction ps generalizing taken seen with
  | nil => simpa [popPeers] using hs
  | cons p ps ih =>
    unfold popPeers
    split
    · obtain ⟨hp, hn'⟩ := List.nodup_cons.mp hn
      apply ih _ _ hn'
      rw [hs]
      simp only [peerAddrs, List.map_cons, List.toFinset_cons]
      exact Finset.erase_insert (by simpa using hp)
    · exact hs

/-- Take the first pending peers for a round. -/
def takeRound (job : HashJob) (limit : Nat) : List PeerContact × HashJob :=
  have hrest := (popPeers_eq limit job.peers [] job.peerSet).2
  have hsync := popPeers_synced limit job.peers [] job.peerSet job.nodup job.synced
  let popped := popPeers limit job.peers [] job.peerSet
  (popped.1, { job with
    peers := popped.2.1
    peerSet := popped.2.2
    nodup := by
      rw [hrest]
      exact job.nodup.sublist ((List.drop_sublist _ _).map _)
    synced := hsync })

variable (job : HashJob) (peers : List PeerContact) (limit : Nat)

theorem mergePeers_peers :
    ∃ admitted, (job.mergePeers peers limit).1.peers = admitted ++ job.peers ∧
      (job.mergePeers peers limit).2 = admitted.length ∧ (∀ p ∈ admitted, p ∈ peers) ∧
      admitted.length ≤ limit - job.peers.length := by
  refine ⟨_, rfl, rfl, ?_, admitPeers_length _ _ _ _ (Nat.zero_le _)⟩
  intro p hp
  exact (admitPeers_subset _ _ _ _ hp).resolve_left (List.not_mem_nil)

theorem mergePeers_length (h : job.peers.length ≤ limit) :
    (job.mergePeers peers limit).1.peers.length ≤ limit := by
  obtain ⟨admitted, he, -, -, hlen⟩ := job.mergePeers_peers peers limit
  rw [he, List.length_append]
  omega

@[simp] theorem takeRound_fst : (job.takeRound limit).1 = job.peers.take limit := by
  have h := (popPeers_eq limit job.peers [] job.peerSet).1
  simpa [takeRound] using h

@[simp] theorem takeRound_peers : (job.takeRound limit).2.peers = job.peers.drop limit := by
  have h := (popPeers_eq limit job.peers [] job.peerSet).2
  simpa [takeRound] using h

@[simp] theorem takeRound_attemptCount :
    (job.takeRound limit).2.attemptCount = job.attemptCount := rfl

end HashJob

end Btfind
