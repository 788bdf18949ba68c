import Btfind.Store.Catalog
import Btfind.Store.HashJobs
import Btfind.Store.RuntimeBatch

/-!
# Job rows

How each transaction can change the status of a job, the peers stored for it and
the time from which it is due.
-/

namespace Btfind

def jobStatus (h : InfoHash) (c : Catalogue) : Option JobStatus :=
  (c.hashJobs.lookup h).map HashJobRow.status

/-- The statuses that only a round writes. -/
def JobStatus.isRoundResult : JobStatus → Bool
  | .waitingPeers | .invalid | .unsupported => true
  | _ => false

/-- The hash has a job that is not terminal. -/
def JobOpen (h : InfoHash) (c : Catalogue) : Prop :=
  ∃ s, jobStatus h c = some s ∧ s.isTerminal = false

theorem JobStatus.schedulable_of_open {s : JobStatus} (hopen : s.isTerminal = false)
    (hwaiting : s ≠ .waitingPeers) : s.isSchedulable = true := by
  cases s with
  | queued | retryAt => rfl
  | waitingPeers => exact absurd rfl hwaiting
  | _ => cases hopen

/-- The peer is stored for the hash. -/
def HasPeer (h : InfoHash) (addr : SocketAddrV4) (c : Catalogue) : Prop :=
  (c.hashJobPeers.lookup (h, addr)).isSome = true

/-- `due_hash_jobs` at this time selects the hash, the limit apart. -/
def DueAt (now : Int) (h : InfoHash) (c : Catalogue) : Prop :=
  ∃ row, c.hashJobs.lookup h = some row ∧ isDue now c h row = true

variable {c c' : Catalogue} {h k : InfoHash} {now t : Int} {source : String}

theorem hashJobIsTerminal_iff :
    hashJobIsTerminal h c = true ↔ ∃ s, jobStatus h c = some s ∧ s.isTerminal = true := by
  rw [hashJobIsTerminal, jobStatus]
  cases c.hashJobs.lookup h <;> simp

theorem isDue_iff {row : HashJobRow} : isDue now c h row = true ↔
    row.status.isSchedulable = true ∧ row.nextAttemptAt ≤ now ∧ ∃ addr, HasPeer h addr c := by
  have hany : (c.hashJobPeers.entries.any fun e => e.1.1 = h) = true ↔
      ∃ addr, HasPeer h addr c := by
    simp only [HasPeer, Option.isSome_iff_exists, AList.lookup_eq_some_iff, List.any_eq_true,
      decide_eq_true_eq]
    constructor
    · rintro ⟨⟨⟨k, addr⟩, t⟩, he, rfl⟩
      exact ⟨addr, t, he⟩
    · rintro ⟨addr, t, he⟩
      exact ⟨_, he, rfl⟩
  simp only [isDue, Bool.and_eq_true, hany, decide_eq_true_eq, and_assoc]

theorem mem_dueHashJobs {record : HashJobRecord} {limit : Nat}
    (hr : record ∈ dueHashJobs now limit c) : DueAt now record.infoHash c := by
  obtain ⟨e, he, rfl⟩ := List.mem_map.mp hr
  have hmem := List.mem_of_mem_take he
  rw [List.mem_insertionSort, List.mem_filter] at hmem
  exact ⟨e.2, AList.lookup_eq_some_iff.mpr hmem.1, hmem.2⟩

theorem DueAt.schedulable (hd : DueAt now h c) :
    ∃ s, jobStatus h c = some s ∧ s.isSchedulable = true := by
  obtain ⟨row, hrow, hdue⟩ := hd
  exact ⟨row.status, by rw [jobStatus, hrow]; rfl, (isDue_iff.mp hdue).1⟩

theorem JobStatus.not_terminal_of_schedulable {s : JobStatus} (hs : s.isSchedulable = true) :
    s.isTerminal = false := by
  cases s <;> first | rfl | cases hs

theorem JobOpen.not_terminal (ho : JobOpen h c) : hashJobIsTerminal h c = false := by
  obtain ⟨s, hs, hopen⟩ := ho
  rw [Bool.eq_false_iff]
  intro hterminal
  obtain ⟨s', hs', hclosed⟩ := hashJobIsTerminal_iff.mp hterminal
  rw [hs] at hs'
  cases hs'
  rw [hopen] at hclosed
  cases hclosed

theorem JobOpen.of_isSome (hj : (jobStatus h c).isSome = true)
    (hopen : hashJobIsTerminal h c = false) : JobOpen h c := by
  obtain ⟨s, hs⟩ := Option.isSome_iff_exists.mp hj
  refine ⟨s, hs, ?_⟩
  rw [Bool.eq_false_iff]
  intro hterminal
  rw [hashJobIsTerminal_iff.mpr ⟨s, hs, hterminal⟩] at hopen
  cases hopen

/-- A terminal job is never due. -/
theorem not_dueAt_of_terminal (ht : hashJobIsTerminal h c = true) : ¬ DueAt now h c := by
  intro hd
  obtain ⟨s, hs, hterminal⟩ := hashJobIsTerminal_iff.mp ht
  obtain ⟨s', hs', hsched⟩ := hd.schedulable
  rw [hs] at hs'
  cases hs'
  rw [JobStatus.not_terminal_of_schedulable hsched] at hterminal
  cases hterminal

/-! ## Discoveries -/

theorem discover_lookup_other {peers : Bool} (hk : k ≠ h) :
    (discover now h source peers c).2.hashJobs.lookup k = c.hashJobs.lookup k := by
  rw [discover_hashJobs, discoverJob_lookup, if_neg hk]

theorem discover_lookup_self {peers : Bool} :
    (discover now h source peers c).2.hashJobs.lookup h =
      discoveredRow now source peers ((c.torrents.lookup h).map TorrentRow.metadataComplete)
        (c.hashJobs.lookup h) := by
  rw [discover_hashJobs, discoverJob_lookup, if_pos rfl]

/-- The status that a discovery leaves. -/
def discoveredStatus (peers : Bool) (done : Option Bool) (old : Option JobStatus) :
    Option JobStatus :=
  match peers, done, old with
  | true, some true, _ => some .complete
  | true, _, none => some .queued
  | true, _, some s => some (if s.isTerminal then s else .queued)
  | false, _, old => old.map fun s => if s.isTerminal || s = .waitingPeers then s else .queued

theorem discoveredRow_status {peers : Bool} {done : Option Bool} {old : Option HashJobRow} :
    (discoveredRow now source peers done old).map HashJobRow.status =
      discoveredStatus peers done (old.map HashJobRow.status) := by
  unfold discoveredRow discoveredStatus
  cases peers with
  | false =>
    cases old with
    | none => rfl
    | some row =>
      simp only [Option.map_some, HashJobRow.onPeerless]
      cases row.status <;> rfl
  | true =>
    cases old with
    | none => match done with
      | none | some false | some true => rfl
    | some row =>
      match done with
      | some true => rfl
      | none | some false =>
        simp only [Option.map_some, HashJobRow.onNewPeers, HashJobRow.discovered]
        cases row.status <;> rfl

theorem jobStatus_discover {peers : Bool} :
    jobStatus k (discover now h source peers c).2 =
      if k = h then discoveredStatus peers
        ((c.torrents.lookup h).map TorrentRow.metadataComplete) (jobStatus h c)
      else jobStatus k c := by
  unfold jobStatus
  split
  · next hk => rw [hk, discover_lookup_self, discoveredRow_status]
  · next hk => rw [discover_lookup_other hk]

section Status

variable {peers : Bool} {done : Option Bool} {old : Option JobStatus} {s : JobStatus}

/-- A discovery writes none of the statuses that rounds write. -/
theorem discoveredStatus_roundResult (hs : s.isRoundResult = true)
    (hd : discoveredStatus peers done old = some s) : old = some s := by
  unfold discoveredStatus at hd
  split at hd
  · cases hd
    cases hs
  · cases hd
    cases hs
  · next o _ =>
    cases o <;> cases hd <;> first | rfl | cases hs
  · cases old with
    | none => cases hd
    | some o => cases o <;> cases hd <;> first | rfl | cases hs

theorem discoveredStatus_terminal (hs : s.isTerminal = true) :
    ∃ s', discoveredStatus peers done (some s) = some s' ∧ s'.isTerminal = true := by
  unfold discoveredStatus
  split
  · exact ⟨_, rfl, rfl⟩
  · next hnone =>
    cases hnone
  · next hsome =>
    cases hsome
    exact ⟨s, by rw [if_pos hs], hs⟩
  · exact ⟨s, by simp [hs], hs⟩

/-- A discovery keeps a job open, when the torrent is not complete. -/
theorem discoveredStatus_open (hdone : done ≠ some true) (hs : s.isTerminal = false) :
    ∃ s', discoveredStatus peers done (some s) = some s' ∧ s'.isTerminal = false := by
  unfold discoveredStatus
  split
  · exact absurd rfl hdone
  · next hnone => cases hnone
  · next hsome =>
    cases hsome
    exact ⟨.queued, by rw [if_neg (by simp [hs])], rfl⟩
  · refine ⟨_, rfl, ?_⟩
    cases s <;> first | rfl | cases hs

theorem discoveredStatus_isSome : (discoveredStatus peers done (some s)).isSome = true := by
  unfold discoveredStatus
  split
  · rfl
  · rfl
  · next hsome =>
    cases hsome
    rfl
  · rfl

/-- A discovery without peers leaves a waiting job waiting. -/
theorem discoveredStatus_waiting :
    discoveredStatus false done (some .waitingPeers) = some .waitingPeers := rfl

/-- A discovery with peers leaves no job waiting. -/
theorem discoveredStatus_ne_waiting : discoveredStatus true done old ≠ some .waitingPeers := by
  unfold discoveredStatus
  cases old with
  | none => match done with
    | none | some false | some true => nofun
  | some o => match done with
    | some true => nofun
    | none | some false => cases o <;> nofun

end Status

theorem discover_roundResult {peers : Bool} {s : JobStatus} (hs : s.isRoundResult = true)
    (hstatus : jobStatus k (discover now h source peers c).2 = some s) :
    jobStatus k c = some s := by
  rw [jobStatus_discover] at hstatus
  split at hstatus
  · next hk =>
    subst hk
    exact discoveredStatus_roundResult hs hstatus
  · exact hstatus

theorem discover_terminal {peers : Bool} (ht : hashJobIsTerminal k c = true) :
    hashJobIsTerminal k (discover now h source peers c).2 = true := by
  rw [hashJobIsTerminal_iff] at ht ⊢
  obtain ⟨s, hs, hterminal⟩ := ht
  rw [jobStatus_discover]
  split
  · next hk =>
    rw [← hk, hs]
    exact discoveredStatus_terminal hterminal
  · exact ⟨s, hs, hterminal⟩

theorem discover_isSome {peers : Bool} (hj : (jobStatus k c).isSome = true) :
    (jobStatus k (discover now h source peers c).2).isSome = true := by
  rw [jobStatus_discover]
  split
  · next hk =>
    subst hk
    obtain ⟨s, hs⟩ := Option.isSome_iff_exists.mp hj
    rw [hs]
    exact discoveredStatus_isSome
  · exact hj

theorem discover_open {peers : Bool}
    (hdone : (c.torrents.lookup k).map TorrentRow.metadataComplete ≠ some true)
    (ho : JobOpen k c) : JobOpen k (discover now h source peers c).2 := by
  obtain ⟨s, hs, hopen⟩ := ho
  rw [JobOpen, jobStatus_discover]
  split
  · next hk =>
    subst hk
    rw [hs]
    exact discoveredStatus_open hdone hopen
  · exact ⟨s, hs, hopen⟩

theorem discover_waiting (hw : jobStatus k c = some .waitingPeers) :
    jobStatus k (discover now h source false c).2 = some .waitingPeers := by
  rw [jobStatus_discover]
  split
  · next hk => rw [← hk, hw, discoveredStatus_waiting]
  · exact hw

/-- A discovery without peers makes no job due earlier. -/
theorem discover_dueAt (hd : DueAt t k (discover now h source false c).2) : DueAt t k c := by
  obtain ⟨row, hrow, hdue⟩ := hd
  rw [isDue_iff] at hdue
  obtain ⟨hsched, hnext, addr, haddr⟩ := hdue
  rw [HasPeer, discover_hashJobPeers] at haddr
  by_cases hk : k = h
  · subst hk
    rw [discover_lookup_self, discoveredRow, Option.map_eq_some_iff] at hrow
    obtain ⟨old, hold, rfl⟩ := hrow
    refine ⟨old, hold, isDue_iff.mpr ⟨?_, hnext, addr, haddr⟩⟩
    simp only [HashJobRow.onPeerless] at hsched
    cases hs : old.status <;> rw [hs] at hsched <;> first | rfl | cases hsched
  · rw [discover_lookup_other hk] at hrow
    exact ⟨row, hrow, isDue_iff.mpr ⟨hsched, hnext, addr, haddr⟩⟩

/-- A discovery with peers makes a job that is not terminal due at once, when the
torrent is not complete. -/
theorem discover_queued (now : Int) (source : String)
    (hdone : (c.torrents.lookup h).map TorrentRow.metadataComplete ≠ some true)
    (hopen : hashJobIsTerminal h c = false) :
    ∃ row, (discover now h source true c).2.hashJobs.lookup h = some row ∧
      row.status = .queued ∧ row.nextAttemptAt = 0 := by
  rw [discover_lookup_self]
  rw [hashJobIsTerminal] at hopen
  generalize (c.torrents.lookup h).map TorrentRow.metadataComplete = done at hdone
  cases hrow : c.hashJobs.lookup h with
  | none =>
    match done, hdone with
    | none, _ | some false, _ => exact ⟨_, rfl, rfl, rfl⟩
  | some row =>
    rw [hrow] at hopen
    have hopen : row.status.isTerminal = false := hopen
    match done, hdone with
    | none, _ | some false, _ =>
      refine ⟨_, rfl, ?_, rfl⟩
      simp only [HashJobRow.onNewPeers, HashJobRow.discovered]
      cases hs : row.status <;> rw [hs] at hopen <;> first | rfl | cases hopen

/-! ## Stored peers -/

theorem mem_retainNew {a : SocketAddrV4} {addrs kept : List SocketAddrV4} :
    a ∈ retainNew addrs kept ↔ a ∈ addrs ∨ a ∈ kept := by
  induction addrs generalizing kept with
  | nil => simp [retainNew]
  | cons b rest ih =>
    rw [retainNew, ih, List.mem_cons]
    split
    · next hb =>
      constructor
      · tauto
      · rintro ((rfl | hr) | hk)
        · exact Or.inr hb
        · exact Or.inl hr
        · exact Or.inr hk
    · rw [List.mem_append, List.mem_singleton]
      tauto

theorem mem_discoveredAddrs {a : SocketAddrV4} {peers : List PeerContact} {limit : Nat} :
    a ∈ discoveredAddrs peers limit ↔ a ∈ peerAddrs (peers.take limit) := by
  rw [discoveredAddrs, mem_retainNew]
  simp

@[simp] theorem discoveredAddrs_nil (limit : Nat) : discoveredAddrs [] limit = [] := by
  simp [discoveredAddrs, retainNew]

/-- The upserts store exactly the addresses of the chunks. -/
theorem upsertPeerChunk_lookup (stamp : SocketAddrV4 → Int) (chunk : List SocketAddrV4)
    (acc : DiscoveryPersistence × Catalogue) (a : SocketAddrV4) :
    (upsertPeerChunk stamp h acc chunk).2.hashJobPeers.lookup (k, a) =
      if k = h ∧ a ∈ chunk then some (stamp a) else acc.2.hashJobPeers.lookup (k, a) := by
  rw [upsertPeerChunk]
  simp only
  generalize acc.2.hashJobPeers = t
  induction chunk generalizing t with
  | nil => simp
  | cons b chunk ih =>
    rw [List.foldl_cons, ih, AList.lookup_upsert_const]
    by_cases hkh : k = h <;> by_cases hab : a = b <;> by_cases hm : a ∈ chunk <;>
      simp [hkh, hab, hm]

theorem upsertPeerChunks_lookup (stamp : SocketAddrV4 → Int) (chunks : List (List SocketAddrV4))
    (acc : DiscoveryPersistence × Catalogue) (a : SocketAddrV4) :
    (chunks.foldl (upsertPeerChunk stamp h) acc).2.hashJobPeers.lookup (k, a) =
      if k = h ∧ a ∈ chunks.flatten then some (stamp a)
      else acc.2.hashJobPeers.lookup (k, a) := by
  induction chunks generalizing acc with
  | nil => simp
  | cons chunk chunks ih =>
    rw [List.foldl_cons, ih, upsertPeerChunk_lookup]
    simp only [List.flatten_cons, List.mem_append]
    by_cases hkh : k = h <;> by_cases hm : a ∈ chunk <;> by_cases hr : a ∈ chunks.flatten <;>
      simp [hkh, hm, hr]

theorem deletePeerChunks_lookup (chunks : List (List SocketAddrV4))
    (acc : DiscoveryPersistence × Catalogue) (a : SocketAddrV4) :
    (chunks.foldl (deletePeerChunk h) acc).2.hashJobPeers.lookup (k, a) =
      if k = h ∧ a ∈ chunks.flatten then none else acc.2.hashJobPeers.lookup (k, a) := by
  induction chunks generalizing acc with
  | nil => simp
  | cons chunk chunks ih =>
    rw [List.foldl_cons, ih, deletePeerChunk]
    simp only [AList.lookup_keep, List.flatten_cons, List.mem_append]
    by_cases hkh : k = h <;> by_cases hm : a ∈ chunk <;> by_cases hr : a ∈ chunks.flatten <;>
      simp [hkh, hm, hr] <;> cases acc.2.hashJobPeers.lookup (k, a) <;> rfl

/-- A peer with the time at which it was last seen. -/
abbrev PeerRow := SocketAddrV4 × Int

/-- The rows of `hash_job_peers` that belong to a hash. -/
def storedPeers (hash : InfoHash) (c : Catalogue) : List PeerRow :=
  (c.hashJobPeers.entries.filter fun e => e.1.1 = hash).map fun e => (e.1.2, e.2)

theorem mem_storedPeers {a : SocketAddrV4} {t : Int} :
    (a, t) ∈ storedPeers h c ↔ c.hashJobPeers.lookup (h, a) = some t := by
  rw [storedPeers, AList.lookup_eq_some_iff, List.mem_map]
  constructor
  · rintro ⟨⟨⟨k, b⟩, u⟩, hmem, heq⟩
    obtain ⟨he, hk⟩ := List.mem_filter.mp hmem
    cases heq
    rwa [← of_decide_eq_true hk]
  · intro he
    exact ⟨_, List.mem_filter.mpr ⟨he, decide_eq_true rfl⟩, rfl⟩

/-- A hash has one row for each address. -/
theorem nodup_storedPeers (h : InfoHash) (c : Catalogue) :
    ((storedPeers h c).map Prod.fst).Nodup := by
  have hkeys := AList.nodupKeys_filter (fun e => decide (e.1.1 = h)) c.hashJobPeers
  rw [storedPeers, List.map_map]
  refine List.Nodup.map_on ?_ (List.Nodup.of_map _ hkeys)
  intro e he e' he' haddr
  have hhash := of_decide_eq_true (List.mem_filter.mp he).2
  have hhash' := of_decide_eq_true (List.mem_filter.mp he').2
  exact List.NodupKeys.eq_of_fst_eq hkeys he he' (Prod.ext (hhash.trans hhash'.symm) haddr)

theorem hasPeer_iff {a : SocketAddrV4} :
    HasPeer h a c ↔ a ∈ (storedPeers h c).map Prod.fst := by
  rw [HasPeer, Option.isSome_iff_exists, List.mem_map]
  constructor
  · rintro ⟨t, ht⟩
    exact ⟨(a, t), mem_storedPeers.mpr ht, rfl⟩
  · rintro ⟨⟨b, t⟩, hrow, rfl⟩
    exact ⟨t, mem_storedPeers.mp hrow⟩

/-- The ranked peers are the addresses of the rows, in another order. -/
theorem rankedPeers_perm (h : InfoHash) (c : Catalogue) :
    (rankedPeers h c).Perm ((storedPeers h c).map Prod.fst) := by
  rw [rankedPeers, storedPeers, List.map_map]
  exact (List.perm_insertionSort _ _).map _

theorem mem_rankedPeers {a : SocketAddrV4} : a ∈ rankedPeers h c ↔ HasPeer h a c := by
  rw [(rankedPeers_perm h c).mem_iff, hasPeer_iff]

theorem rankedPeers_nodup (h : InfoHash) (c : Catalogue) : (rankedPeers h c).Nodup :=
  (rankedPeers_perm h c).nodup_iff.mpr (nodup_storedPeers h c)

section RecordDiscovery

variable {peers : List PeerContact} {limit : Nat}

/-- The catalogue between the upserts and the deletions of a recorded discovery. -/
def discoveredPeers (now : Int) (h : InfoHash) (source : String) (peers : List PeerContact)
    (limit : Nat) (c : Catalogue) : Catalogue :=
  let addresses := discoveredAddrs peers limit
  ((addresses.toChunks 128).foldl (upsertPeerChunk (fun _ => now) h)
    (discover now h source (!addresses.isEmpty) c)).2

theorem discoveredPeers_lookup (a : SocketAddrV4) :
    (discoveredPeers now h source peers limit c).hashJobPeers.lookup (k, a) =
      if k = h ∧ a ∈ discoveredAddrs peers limit then some now
      else c.hashJobPeers.lookup (k, a) := by
  rw [discoveredPeers, upsertPeerChunks_lookup, List.toChunks_flatten, discover_hashJobPeers]

/-- A recorded discovery stores its addresses and deletes those beyond the limit. -/
theorem recordDiscovery_lookup (a : SocketAddrV4) :
    (recordDiscovery now h source peers limit c).2.hashJobPeers.lookup (k, a) =
      if k = h ∧ a ∈ (rankedPeers h (discoveredPeers now h source peers limit c)).drop limit
      then none
      else (discoveredPeers now h source peers limit c).hashJobPeers.lookup (k, a) := by
  rw [recordDiscovery, recordDiscoveryBy, deletePeerChunks_lookup, List.Cut.flatten_chunks]
  rfl

/-- A stored peer was stored before or is one of the discovered peers. -/
theorem HasPeer.of_recordDiscovery {a : SocketAddrV4}
    (hp : HasPeer k a (recordDiscovery now h source peers limit c).2) :
    HasPeer k a c ∨ (k = h ∧ a ∈ peerAddrs (peers.take limit)) := by
  rw [HasPeer, recordDiscovery_lookup] at hp
  split at hp
  · cases hp
  · rw [discoveredPeers_lookup] at hp
    split at hp
    · next hd => exact Or.inr ⟨hd.1, mem_discoveredAddrs.mp hd.2⟩
    · exact Or.inl hp

theorem discoveredAddrs_isEmpty (peers : List PeerContact) (hlimit : 1 ≤ limit) :
    (discoveredAddrs peers limit).isEmpty = peers.isEmpty := by
  cases peers with
  | nil => simp [discoveredAddrs, retainNew]
  | cons p ps =>
    have hmem : p.addr ∈ discoveredAddrs (p :: ps) limit := by
      rw [mem_discoveredAddrs]
      obtain ⟨n, rfl⟩ := Nat.exists_eq_add_of_le' hlimit
      simp
    simpa using List.ne_nil_of_mem hmem

/-- The deletions beyond the limit leave a peer of a hash that has one. -/
theorem recordDiscovery_somePeer (hlimit : 1 ≤ limit)
    (hp : ∃ a, HasPeer k a (discoveredPeers now h source peers limit c)) :
    ∃ a, HasPeer k a (recordDiscovery now h source peers limit c).2 := by
  let found := discoveredPeers now h source peers limit c
  obtain ⟨b, hb⟩ := hp
  by_cases hk : k = h
  · subst hk
    have hne : rankedPeers k found ≠ [] := List.ne_nil_of_mem (mem_rankedPeers.mpr hb)
    obtain ⟨a, rest, hranked⟩ := List.exists_cons_of_ne_nil hne
    obtain ⟨n, rfl⟩ := Nat.exists_eq_add_of_le' hlimit
    have hnd := rankedPeers_nodup k found
    rw [hranked] at hnd
    have hkept : a ∉ (rankedPeers k found).drop (n + 1) := by
      rw [hranked, List.drop_succ_cons]
      exact fun hm => (List.nodup_cons.mp hnd).1 (List.mem_of_mem_drop hm)
    refine ⟨a, ?_⟩
    rw [HasPeer, recordDiscovery_lookup, if_neg fun hd => hkept hd.2]
    exact mem_rankedPeers.mp (hranked ▸ List.mem_cons_self)
  · refine ⟨b, ?_⟩
    rw [HasPeer, recordDiscovery_lookup, if_neg fun hd => hk hd.1]
    exact hb

/-- Of a discovery with peers at least one stays stored. -/
theorem recordDiscovery_hasPeer (hlimit : 1 ≤ limit) (hpeers : peers ≠ []) :
    ∃ a, HasPeer h a (recordDiscovery now h source peers limit c).2 := by
  have haddrs : discoveredAddrs peers limit ≠ [] := by
    have hempty := discoveredAddrs_isEmpty peers hlimit
    intro hnil
    simp [hnil, hpeers] at hempty
  obtain ⟨a, ha⟩ := List.exists_mem_of_ne_nil _ haddrs
  refine recordDiscovery_somePeer hlimit ⟨a, ?_⟩
  rw [HasPeer, discoveredPeers_lookup, if_pos ⟨rfl, ha⟩]
  rfl

/-- A hash with stored peers keeps one when a discovery is recorded. -/
theorem recordDiscovery_keepsPeer (hlimit : 1 ≤ limit) (hp : ∃ a, HasPeer k a c) :
    ∃ a, HasPeer k a (recordDiscovery now h source peers limit c).2 := by
  obtain ⟨a, ha⟩ := hp
  refine recordDiscovery_somePeer hlimit ⟨a, ?_⟩
  rw [HasPeer, discoveredPeers_lookup]
  split
  · rfl
  · exact ha

theorem recordDiscovery_hashJobs :
    (recordDiscovery now h source peers limit c).2.hashJobs =
      (discover now h source (!(discoveredAddrs peers limit).isEmpty) c).2.hashJobs := by
  rw [recordDiscovery_frame]

theorem jobStatus_recordDiscovery :
    jobStatus k (recordDiscovery now h source peers limit c).2 =
      jobStatus k (discover now h source (!(discoveredAddrs peers limit).isEmpty) c).2 := by
  rw [jobStatus, recordDiscovery_hashJobs, jobStatus]

theorem recordDiscovery_ne_waiting (hlimit : 1 ≤ limit) (hpeers : peers ≠ []) :
    jobStatus h (recordDiscovery now h source peers limit c).2 ≠ some .waitingPeers := by
  have hsome : peers.isEmpty = false := by simpa using hpeers
  rw [jobStatus_recordDiscovery, jobStatus_discover, if_pos rfl,
    discoveredAddrs_isEmpty peers hlimit, hsome]
  exact discoveredStatus_ne_waiting

/-- A discovery with peers leaves a job and a peer of its hash. -/
theorem recordDiscovery_isSome (hlimit : 1 ≤ limit) (hpeers : peers ≠ []) :
    (jobStatus h (recordDiscovery now h source peers limit c).2).isSome = true := by
  have hsome : peers.isEmpty = false := by simpa using hpeers
  rw [jobStatus_recordDiscovery, jobStatus_discover, if_pos rfl,
    discoveredAddrs_isEmpty peers hlimit, hsome]
  cases hold : jobStatus h c with
  | some s => exact discoveredStatus_isSome
  | none =>
    unfold discoveredStatus
    split <;> first | rfl | contradiction

/-- A discovery with peers makes a job that is not terminal due at any time. -/
theorem recordDiscovery_due (hlimit : 1 ≤ limit) (hpeers : peers ≠ [])
    (hdone : (c.torrents.lookup h).map TorrentRow.metadataComplete ≠ some true)
    (hopen : hashJobIsTerminal h c = false) (ht : 0 ≤ t) :
    DueAt t h (recordDiscovery now h source peers limit c).2 := by
  obtain ⟨row, hrow, hstatus, hnext⟩ := discover_queued now source hdone hopen
  refine ⟨row, ?_, isDue_iff.mpr ⟨?_, ?_, recordDiscovery_hasPeer hlimit hpeers⟩⟩
  · have hsome : peers.isEmpty = false := by simpa using hpeers
    rw [recordDiscovery_hashJobs, discoveredAddrs_isEmpty peers hlimit, hsome]
    exact hrow
  · rw [hstatus]
    rfl
  · rw [hnext]
    exact ht

/-- A discovery without peers makes no job due earlier. -/
theorem recordDiscovery_dueAt (hd : DueAt t k (recordDiscovery now h source [] limit c).2) :
    DueAt t k c := by
  obtain ⟨row, hrow, hdue⟩ := hd
  obtain ⟨hsched, hnext, a, ha⟩ := isDue_iff.mp hdue
  rw [recordDiscovery_hashJobs] at hrow
  have hstored : HasPeer k a c := ha.of_recordDiscovery.resolve_right (by simp)
  have hfound : DueAt t k (discover now h source false c).2 := by
    refine ⟨row, ?_, isDue_iff.mpr ⟨hsched, hnext, a, ?_⟩⟩
    · rwa [discoveredAddrs_nil] at hrow
    · rwa [HasPeer, discover_hashJobPeers]
  exact discover_dueAt hfound

end RecordDiscovery

/-! ## Runtime batches -/

section Batch

variable {events : List CrawlStatsEvent} {snapshot : Option RuntimeSnapshot}

theorem batch_roundResult {s : JobStatus} (hs : s.isRoundResult = true)
    (hstatus : jobStatus k (recordRuntimeBatch now events snapshot c).2 = some s) :
    jobStatus k c = some s := by
  refine recordRuntimeBatch_induction (P := fun c' => jobStatus k c' = some s →
    jobStatus k c = some s) id (fun _ _ _ hc hd => hc (discover_roundResult hs hd)) ?_ hstatus
  intro c₁ c₂ hc hsame h₂
  rw [jobStatus, hsame.hashJobs] at h₂
  exact hc h₂

theorem batch_terminal (ht : hashJobIsTerminal k c = true) :
    hashJobIsTerminal k (recordRuntimeBatch now events snapshot c).2 = true := by
  refine recordRuntimeBatch_induction (P := fun c' => hashJobIsTerminal k c' = true) ht
    (fun _ _ _ hc => discover_terminal hc) ?_
  intro c₁ c₂ hc hsame
  rwa [hashJobIsTerminal, hsame.hashJobs]

theorem batch_waiting (hw : jobStatus k c = some .waitingPeers) :
    jobStatus k (recordRuntimeBatch now events snapshot c).2 = some .waitingPeers := by
  refine recordRuntimeBatch_induction (P := fun c' => jobStatus k c' = some .waitingPeers) hw
    (fun _ _ _ hc => discover_waiting hc) ?_
  intro c₁ c₂ hc hsame
  rwa [jobStatus, hsame.hashJobs]

theorem batch_isSome (hj : (jobStatus k c).isSome = true) :
    (jobStatus k (recordRuntimeBatch now events snapshot c).2).isSome = true := by
  refine recordRuntimeBatch_induction (P := fun c' => (jobStatus k c').isSome = true) hj
    (fun _ _ _ hc => discover_isSome hc) ?_
  intro c₁ c₂ hc hsame
  rwa [jobStatus, hsame.hashJobs]

theorem batch_hashJobPeers :
    (recordRuntimeBatch now events snapshot c).2.hashJobPeers = c.hashJobPeers := by
  refine recordRuntimeBatch_induction (P := fun c' => c'.hashJobPeers = c.hashJobPeers) rfl
    (fun _ _ _ hc => (discover_hashJobPeers ..).trans hc) ?_
  intro c₁ c₂ hc hsame
  rw [hsame.hashJobPeers, hc]

/-- The discoveries of a batch make no job due earlier. -/
theorem batch_dueAt (hd : DueAt t k (recordRuntimeBatch now events snapshot c).2) :
    DueAt t k c := by
  refine recordRuntimeBatch_induction (P := fun c' => DueAt t k c' → DueAt t k c) id
    (fun _ _ _ hc hd => hc (discover_dueAt hd)) ?_ hd
  intro c₁ c₂ hc hsame h₂
  refine hc ?_
  simpa only [DueAt, isDue_iff, HasPeer, hsame.hashJobs, hsame.hashJobPeers] using h₂

end Batch

/-! ## Rounds and prunes -/

/-- `update_hash_job_failure` writes an existing job that is not complete. -/
theorem jobStatus_update {status : JobStatus} {attempts n : Nat} {next : Int} {failure : String}
    (hu : updateHashJobFailureTx now h status attempts next failure c = .ok (n, c')) :
    jobStatus k c' =
      if k = h ∧ (jobStatus h c).any (· ≠ .complete) = true then some status
      else jobStatus k c := by
  unfold updateHashJobFailureTx at hu
  unfold jobStatus
  split at hu
  · next hrow =>
    cases hu
    simp [hrow]
  · next row hrow =>
    split at hu
    · next hcomplete =>
      cases hu
      simp [hrow, hcomplete]
    · next hopen =>
      cases hu
      rw [AList.lookup_insert_eq]
      by_cases hk : k = h <;> simp [hk, hrow, hopen]

theorem Committed.jobStatus {u : Unicode} {m : TorrentMetadata} {old : TorrentRow}
    (hc : Committed u now h m c c' old) :
    jobStatus k c' = if k = h then some .complete else jobStatus k c := by
  unfold Btfind.jobStatus
  rw [hc.hashJobs, AList.lookup_upsert]
  split
  · cases (Btfind.discover now h "dht" false c).2.hashJobs.lookup h <;> rfl
  · next hk => rw [discover_lookup_other hk]

theorem jobStatus_pruneTorrent (selected : Σ _ : InfoHash, TorrentRow) :
    jobStatus k (pruneTorrent c selected) = if k = selected.1 then none else jobStatus k c := by
  simp only [jobStatus, pruneTorrent, Catalogue.deleteTorrent, AList.lookup_erase_eq]
  split <;> rfl

theorem hasPeer_pruneBatch (cutoff : Int) (c : Catalogue) {a : SocketAddrV4} :
    HasPeer k a (pruneBatch cutoff c) ↔
      k ∉ (oldTorrents cutoff c).map Sigma.fst ∧ HasPeer k a c := by
  have hfold : ∀ (selected : List (Σ _ : InfoHash, TorrentRow)) (c : Catalogue),
      HasPeer k a (selected.foldl pruneTorrent c) ↔
        k ∉ selected.map Sigma.fst ∧ HasPeer k a c := by
    intro selected
    induction selected with
    | nil => simp
    | cons e selected ih =>
      intro c
      rw [List.foldl_cons, ih]
      simp only [HasPeer, pruneTorrent, Catalogue.deleteTorrent, AList.lookup_keep]
      by_cases hk : k = e.1
      · cases c.hashJobPeers.lookup (k, a) <;> simp [hk]
      · cases c.hashJobPeers.lookup (k, a) <;> simp [hk]
  exact hfold _ c

theorem jobStatus_pruneBatch (cutoff : Int) (c : Catalogue) :
    jobStatus k (pruneBatch cutoff c) =
      if k ∈ (oldTorrents cutoff c).map Sigma.fst then none else jobStatus k c := by
  have hfold : ∀ (selected : List (Σ _ : InfoHash, TorrentRow)) (c : Catalogue),
      jobStatus k (selected.foldl pruneTorrent c) =
        if k ∈ selected.map Sigma.fst then none else jobStatus k c := by
    intro selected
    induction selected with
    | nil => simp
    | cons e selected ih =>
      intro c
      rw [List.foldl_cons, ih, jobStatus_pruneTorrent]
      by_cases hk : k = e.1 <;> by_cases hm : k ∈ selected.map Sigma.fst <;> simp [hk, hm]
  exact hfold _ c

end Btfind
