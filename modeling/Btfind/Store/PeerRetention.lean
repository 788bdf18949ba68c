import Mathlib.Data.List.Dedup
import Mathlib.Data.Prod.Lex
import Mathlib.Data.String.Basic
import Btfind.Library.Retention
import Btfind.Store.JobRows

/-!
# Retained peers

What a recorded discovery leaves of the peers of its hash, and how it counts them. The addresses
are cut into statements and the clock is read for every row, so both are parameters here: whatever
the cut, the statements do what a single one would.
-/

namespace Btfind

open Transaction Paging Retention

/-! ## The text of an address -/

section Text

theorem toDigits_injective : Function.Injective (Nat.toDigits 10) := by
  intro m n h
  have hread := congrArg (Nat.ofDigitChars 10 · 0) h
  simpa only [Nat.ofDigitChars_ten_toDigits] using hread

/-- A number before a separator can be read back. -/
theorem digits_append_inj {m n : Nat} {c : Char} {r r' : List Char} (hc : c.isDigit = false)
    (h : Nat.toDigits 10 m ++ c :: r = Nat.toDigits 10 n ++ c :: r') : m = n ∧ r = r' := by
  have hdigits : ∀ (n : Nat) (r : List Char),
      (Nat.toDigits 10 n ++ c :: r).takeWhile Char.isDigit = Nat.toDigits 10 n := by
    intro n r
    rw [List.takeWhile_append_of_pos fun d hd =>
      Nat.isDigit_of_mem_toDigits (by decide) (by decide) hd,
      List.takeWhile_cons_of_neg (by rw [hc]; exact Bool.false_ne_true), List.append_nil]
  have hhead := congrArg (List.takeWhile Char.isDigit) h
  rw [hdigits, hdigits] at hhead
  have hread := toDigits_injective hhead
  subst hread
  exact ⟨rfl, List.tail_eq_of_cons_eq (List.append_cancel_left h)⟩

theorem toList_toString (addr : SocketAddrV4) : addr.toString.toList =
    Nat.toDigits 10 addr.ip.a.toNat ++ '.' :: (Nat.toDigits 10 addr.ip.b.toNat ++
      '.' :: (Nat.toDigits 10 addr.ip.c.toNat ++ '.' :: (Nat.toDigits 10 addr.ip.d.toNat ++
        ':' :: Nat.toDigits 10 addr.port.toNat))) := by
  have htext : ∀ n : Nat, (toString n).toList = Nat.toDigits 10 n := fun n => Nat.toList_repr
  have hself : ∀ s : String, toString s = s := fun s => rfl
  have hdot : ".".toList = ['.'] := rfl
  have hcolon : ":".toList = [':'] := rfl
  simp only [SocketAddrV4.toString, Ipv4Addr.toString, hself, String.toList_append, htext, hdot,
    hcolon, List.append_assoc, List.cons_append, List.nil_append]

/-- Two addresses with one text are one address. -/
theorem toString_injective : Function.Injective SocketAddrV4.toString := by
  rintro ⟨⟨a, b, c, d⟩, port⟩ ⟨⟨a', b', c', d'⟩, port'⟩ h
  have hlist := congrArg String.toList h
  rw [toList_toString, toList_toString] at hlist
  obtain ⟨ha, hlist⟩ := digits_append_inj (by decide) hlist
  obtain ⟨hb, hlist⟩ := digits_append_inj (by decide) hlist
  obtain ⟨hc, hlist⟩ := digits_append_inj (by decide) hlist
  obtain ⟨hd, hlist⟩ := digits_append_inj (by decide) hlist
  cases UInt8.toNat_inj.mp ha
  cases UInt8.toNat_inj.mp hb
  cases UInt8.toNat_inj.mp hc
  cases UInt8.toNat_inj.mp hd
  cases UInt16.toNat_inj.mp (toDigits_injective hlist)
  rfl

end Text

/-! ## The rows of a hash -/

/-- `ORDER BY last_seen DESC,peer_addr` -/
def peerRank (row : PeerRow) : Intᵒᵈ ×ₗ String :=
  toLex (OrderDual.toDual row.2, row.1.toString)

section Rows

variable {h : InfoHash} {c : Catalogue} {acc : DiscoveryPersistence × Catalogue}
  {chunk chunk' : List SocketAddrV4} {stamp : SocketAddrV4 → Int}

theorem peerRank_injective : Function.Injective peerRank := by
  rintro ⟨a, t⟩ ⟨a', t'⟩ heq
  have hpair := Prod.ext_iff.mp (toLex.injective heq)
  exact Prod.ext (toString_injective hpair.2) (OrderDual.toDual_inj.mp hpair.1)

theorem peerRank_le_iff (row row' : PeerRow) : peerRank row ≤ peerRank row' ↔
    row'.2 < row.2 ∨ (row.2 = row'.2 ∧ row.1.toString ≤ row'.1.toString) := by
  rw [peerRank, peerRank, Prod.Lex.toLex_le_toLex, OrderDual.toDual_lt_toDual,
    OrderDual.toDual_inj]

/-- The order of the query is the order of the ranks. -/
theorem rankedPeers_eq (h : InfoHash) (c : Catalogue) :
    rankedPeers h c = (inOrder peerRank (storedPeers h c)).map Prod.fst := by
  let row (e : Σ _ : InfoHash × SocketAddrV4, Int) : PeerRow := (e.1.2, e.2)
  rw [rankedPeers, inOrder, storedPeers]
  refine Eq.trans (List.map_map (g := Prod.fst) (f := row)).symm (congrArg _ ?_)
  refine List.map_insertionSort _ _ row _ ?_
  intro e _ e' _
  exact (peerRank_le_iff (row e) (row e')).symm

/-! ## One statement -/

/-- The rows that a statement finds are rows of the hash. -/
theorem existingPeers_rows (h : InfoHash) (chunk : List SocketAddrV4) (c : Catalogue) :
    existingPeers h chunk c = ((storedPeers h c).filter fun row => row.1 ∈ chunk).length := by
  rw [existingPeers, storedPeers, List.filter_map, List.length_map, List.filter_filter]
  simp only [Function.comp_apply, Bool.and_comm]

/-- There are no more of them than addresses to look for. -/
theorem existingPeers_le (h : InfoHash) (chunk : List SocketAddrV4) (c : Catalogue) :
    existingPeers h chunk c ≤ chunk.length := by
  rw [existingPeers_rows, ← List.length_map (f := Prod.fst)]
  have hnodup : (((storedPeers h c).filter fun row => row.1 ∈ chunk).map Prod.fst).Nodup :=
    (nodup_storedPeers h c).sublist (List.filter_sublist.map _)
  refine (List.subperm_of_subset hnodup ?_).length_le
  intro a ha
  obtain ⟨row, hrow, rfl⟩ := List.mem_map.mp ha
  exact of_decide_eq_true (List.mem_filter.mp hrow).2

/-- For distinct addresses, the rows that are found are the addresses that are stored. -/
theorem existingPeers_eq (hchunk : chunk.Nodup) :
    existingPeers h chunk c =
      (chunk.filter fun a => a ∈ (storedPeers h c).map Prod.fst).length := by
  rw [existingPeers_rows, ← List.length_map (f := Prod.fst)]
  refine List.Perm.length_eq ((List.perm_ext_iff_of_nodup ?_ (hchunk.filter _)).mpr fun a => ?_)
  · exact (nodup_storedPeers h c).sublist (List.filter_sublist.map _)
  · rw [List.mem_filter, decide_eq_true_iff, List.mem_map, List.mem_map]
    constructor
    · rintro ⟨row, hrow, rfl⟩
      obtain ⟨hrow, hin⟩ := List.mem_filter.mp hrow
      exact ⟨of_decide_eq_true hin, row, hrow, rfl⟩
    · rintro ⟨hin, row, hrow, rfl⟩
      exact ⟨row, List.mem_filter.mpr ⟨hrow, decide_eq_true hin⟩, rfl⟩

theorem upsertPeerChunk_nil : upsertPeerChunk stamp h acc [] = acc := by
  have hnone : existingPeers h [] acc.2 = 0 := Nat.le_zero.mp (existingPeers_le h [] acc.2)
  rw [upsertPeerChunk]
  simp only [hnone]
  rfl

/-- Two statements with distinct addresses store and count what a single one does. -/
theorem upsertPeerChunk_append (hchunk : (chunk ++ chunk').Nodup) :
    upsertPeerChunk stamp h (upsertPeerChunk stamp h acc chunk) chunk' =
      upsertPeerChunk stamp h acc (chunk ++ chunk') := by
  obtain ⟨hfirst, hsecond, hdisjoint⟩ := List.nodup_append'.mp hchunk
  -- The first statement stores none of the addresses of the second.
  have hfound : existingPeers h chunk' (upsertPeerChunk stamp h acc chunk).2 =
      existingPeers h chunk' acc.2 := by
    rw [existingPeers_eq hsecond, existingPeers_eq hsecond]
    refine congrArg List.length (List.filter_congr fun a ha => ?_)
    rw [decide_eq_decide, ← hasPeer_iff, ← hasPeer_iff, HasPeer, upsertPeerChunk_lookup,
      if_neg fun hin => hdisjoint hin.2 ha, HasPeer]
  have hsum : existingPeers h (chunk ++ chunk') acc.2 =
      existingPeers h chunk acc.2 + existingPeers h chunk' acc.2 := by
    rw [existingPeers_eq hchunk, existingPeers_eq hfirst, existingPeers_eq hsecond,
      List.filter_append, List.length_append]
  have hle := existingPeers_le h chunk acc.2
  have hle' := existingPeers_le h chunk' acc.2
  have hinserted : chunk.length - existingPeers h chunk acc.2 +
      (chunk'.length - existingPeers h chunk' acc.2) =
        (chunk ++ chunk').length -
          (existingPeers h chunk acc.2 + existingPeers h chunk' acc.2) := by
    rw [List.length_append]
    omega
  rw [upsertPeerChunk]
  simp only [hfound]
  rw [upsertPeerChunk, upsertPeerChunk]
  simp only [hsum, List.foldl_append, Nat.add_assoc, hinserted]

theorem deletePeerChunk_nil : deletePeerChunk h acc [] = acc := by
  have hkeep : (acc.2.hashJobPeers.keep fun key _ => !(key.1 = h && key.2 ∈ ([] : List _))) =
      acc.2.hashJobPeers := by
    refine AList.keep_eq_self fun e _ => ?_
    simp
  rw [deletePeerChunk]
  simp only [hkeep, Nat.sub_self, Nat.add_zero]

/-- Two statements delete and count what a single one does. -/
theorem deletePeerChunk_append :
    deletePeerChunk h (deletePeerChunk h acc chunk) chunk' =
      deletePeerChunk h acc (chunk ++ chunk') := by
  have hkeep : ∀ t : KeyedTable (InfoHash × SocketAddrV4) Int,
      ((t.keep fun key _ => !(key.1 = h && key.2 ∈ chunk)).keep fun key _ =>
        !(key.1 = h && key.2 ∈ chunk')) =
          t.keep fun key _ => !(key.1 = h && key.2 ∈ chunk ++ chunk') := by
    intro t
    rw [AList.keep_keep]
    congr 1
    funext key _
    by_cases hk : key.1 = h <;> simp [hk]
  have hcount : ∀ t : KeyedTable (InfoHash × SocketAddrV4) Int, ∀ p q,
      t.count - (t.keep p).count + ((t.keep p).count - ((t.keep p).keep q).count) =
        t.count - ((t.keep p).keep q).count := by
    intro t p q
    have hfirst := AList.count_keep_le (t := t) (p := p)
    have hsecond := AList.count_keep_le (t := t.keep p) (p := q)
    omega
  rw [deletePeerChunk, deletePeerChunk, deletePeerChunk]
  simp only [Nat.add_assoc, hcount]
  simp only [hkeep]

/-- The rows after the upserts are the old ones under the new ones. -/
theorem storedPeers_upsert (hchunk : chunk.Nodup) :
    (storedPeers h (upsertPeerChunk stamp h acc chunk).2).Perm
      (overlay stamp chunk (storedPeers h acc.2)) := by
  have hkeys : ((overlay stamp chunk (storedPeers h acc.2)).map Prod.fst).Nodup :=
    nodup_keys_overlay (nodup_storedPeers h acc.2) hchunk
  refine (List.perm_ext_iff_of_nodup (nodup_storedPeers h _).of_map hkeys.of_map).mpr ?_
  rintro ⟨a, t⟩
  rw [mem_storedPeers, upsertPeerChunk_lookup, mem_overlay, mem_storedPeers]
  by_cases ha : a ∈ chunk
  · rw [if_pos ⟨rfl, ha⟩, if_pos ha]
    exact ⟨fun heq => (Option.some.inj heq).symm, fun heq => congrArg some heq.symm⟩
  · rw [if_neg fun hin => ha hin.2, if_neg ha]

/-- The upserts count the rows that they add to the hash. -/
theorem upsertPeerChunk_rows (hchunk : chunk.Nodup) :
    (storedPeers h (upsertPeerChunk stamp h acc chunk).2).length + acc.1.peersInserted =
      (storedPeers h acc.2).length + (upsertPeerChunk stamp h acc chunk).1.peersInserted := by
  have hrows : (storedPeers h (upsertPeerChunk stamp h acc chunk).2).length =
      (overlay stamp chunk (storedPeers h acc.2)).length := (storedPeers_upsert hchunk).length_eq
  have hoverlay : (overlay stamp chunk (storedPeers h acc.2)).length +
      existingPeers h chunk acc.2 = (storedPeers h acc.2).length + chunk.length := by
    rw [existingPeers_rows]
    exact length_overlay
  have hle := existingPeers_le h chunk acc.2
  have hinserted : (upsertPeerChunk stamp h acc chunk).1.peersInserted =
      acc.1.peersInserted + (chunk.length - existingPeers h chunk acc.2) := rfl
  omega

theorem storedPeers_delete : storedPeers h (deletePeerChunk h acc chunk).2 =
    (storedPeers h acc.2).filter fun row => row.1 ∉ chunk := by
  rw [storedPeers, storedPeers, List.filter_map]
  refine congrArg _ ?_
  show (acc.2.hashJobPeers.entries.filter fun e => !(e.1.1 = h && e.1.2 ∈ chunk)).filter
    (fun e => e.1.1 = h) = _
  rw [List.filter_filter, List.filter_filter]
  refine List.filter_congr fun e _ => ?_
  by_cases he : e.1.1 = h <;> simp [he]

/-- The deletions count the rows that they take from the hash. -/
theorem deletePeerChunk_rows : (deletePeerChunk h acc chunk).1.peersDeleted +
      (storedPeers h (deletePeerChunk h acc chunk).2).length =
    acc.1.peersDeleted + (storedPeers h acc.2).length := by
  have htable := List.length_eq_length_filter_add
    (fun e : Σ _ : InfoHash × SocketAddrV4, Int => e.1.1 = h && e.1.2 ∈ chunk)
    (l := acc.2.hashJobPeers.entries)
  have hrows := List.length_eq_length_filter_add (fun row : PeerRow => row.1 ∈ chunk)
    (l := storedPeers h acc.2)
  simp only [← decide_not] at hrows
  have hfound := existingPeers_rows h chunk acc.2
  rw [existingPeers] at hfound
  rw [storedPeers_delete, deletePeerChunk]
  simp only [AList.count, AList.keep]
  omega

end Rows

/-! ## The addresses of a discovery -/

theorem nodup_retainNew {addrs kept : List SocketAddrV4} (hkept : kept.Nodup) :
    (retainNew addrs kept).Nodup := by
  induction addrs generalizing kept with
  | nil => exact hkept
  | cons a rest ih =>
    rw [retainNew]
    split
    · exact ih hkept
    · next hnew =>
      refine ih (List.nodup_append'.mpr ⟨hkept, List.nodup_singleton a, ?_⟩)
      exact List.disjoint_singleton.mpr hnew

theorem nodup_discoveredAddrs (peers : List PeerContact) (limit : Nat) :
    (discoveredAddrs peers limit).Nodup := nodup_retainNew List.nodup_nil

/-- What is stored are the distinct addresses of the first peers. -/
theorem discoveredAddrs_perm (peers : List PeerContact) (limit : Nat) :
    (discoveredAddrs peers limit).Perm (peerAddrs (peers.take limit)).dedup := by
  refine (List.perm_ext_iff_of_nodup (nodup_discoveredAddrs peers limit)
    (List.nodup_dedup _)).mpr fun a => ?_
  rw [mem_discoveredAddrs, List.mem_dedup]

/-! ## The whole operation -/

/-- `persist_hash_discovery_once` -/
def persistHashDiscoveryOnce (cut : List.Cut SocketAddrV4) (stamp : SocketAddrV4 → Int)
    (turn : Turn) (hash : InfoHash) (source : String) (peers : List PeerContact) (limit : Nat)
    (receipt : Uuid) (s : Store) : Except StoreError DiscoveryPersistence × Store :=
  transact turn.fate (persistDiscoveryBy cut turn.now stamp hash source peers limit receipt) s

section Operation

variable {cut : List.Cut SocketAddrV4} {stamp : SocketAddrV4 → Int} {turn : Turn} {now : Int}
  {h : InfoHash} {source : String} {peers : List PeerContact} {limit : Nat} {receipt : Uuid}
  {s s' : Store} {outcome : DiscoveryPersistence}

theorem persistDiscoveryBy_ok
    (hok : persistDiscoveryBy cut now stamp h source peers limit receipt s = .ok (outcome, s')) :
    recordDiscoveryBy cut now stamp h source peers limit s.catalogue =
      (outcome, s'.catalogue) := by
  rw [persistDiscoveryBy] at hok
  split at hok
  · cases hok
  · cases hok
    rfl

/-- Whatever the cut, the statements do what one upsert and one deletion would. -/
theorem recordDiscoveryBy_eq (cut : List.Cut SocketAddrV4) (now : Int)
    (stamp : SocketAddrV4 → Int) (h : InfoHash) (source : String) (peers : List PeerContact)
    (limit : Nat) (c : Catalogue) :
    recordDiscoveryBy cut now stamp h source peers limit c =
      let addresses := discoveredAddrs peers limit
      let stored := upsertPeerChunk stamp h (discover now h source (!addresses.isEmpty) c) addresses
      deletePeerChunk h stored ((rankedPeers h stored.2).drop limit) := by
  have hupsert : ∀ acc addrs, addrs.Nodup →
      (cut.chunks addrs).foldl (upsertPeerChunk stamp h) acc =
        upsertPeerChunk stamp h acc addrs := by
    intro acc addrs haddrs
    conv_rhs => rw [← cut.flatten_chunks addrs]
    refine List.foldl_chunks List.Nodup (fun _ => upsertPeerChunk_nil)
      (fun _ _ _ => upsertPeerChunk_append) (fun _ _ hxs => (List.nodup_append'.mp hxs).2.1) ?_ acc
    rwa [cut.flatten_chunks]
  have hdelete : ∀ acc addrs,
      (cut.chunks addrs).foldl (deletePeerChunk h) acc = deletePeerChunk h acc addrs := by
    intro acc addrs
    conv_rhs => rw [← cut.flatten_chunks addrs]
    exact List.foldl_chunks (fun _ => True) (fun _ => deletePeerChunk_nil)
      (fun _ _ _ _ => deletePeerChunk_append) (fun _ _ _ => trivial) trivial acc
  rw [recordDiscoveryBy]
  simp only [hupsert _ _ (nodup_discoveredAddrs peers limit), hdelete]

/-- The rows of the hash after a recorded discovery, and the counts of its outcome. -/
structure Retains (stamp : SocketAddrV4 → Int) (limit : Nat) (supplied : List SocketAddrV4)
    (before after : List PeerRow) (outcome : DiscoveryPersistence) : Prop where
  rows : after.Perm ((inOrder peerRank (overlay stamp supplied before)).take limit)
  addresses : outcome.peersInserted + outcome.peersUpdated = supplied.length
  updated : outcome.peersUpdated = (supplied.filter fun a => a ∈ before.map Prod.fst).length
  balance : after.length + outcome.peersDeleted = before.length + outcome.peersInserted

/-- One upsert and one deletion from a count of zero. -/
theorem upsert_delete_retains {found : DiscoveryPersistence × Catalogue}
    {addrs : List SocketAddrV4} (haddrs : addrs.Nodup) (hinserted : found.1.peersInserted = 0)
    (hupdated : found.1.peersUpdated = 0) (hdeleted : found.1.peersDeleted = 0) :
    let stored := upsertPeerChunk stamp h found addrs
    let kept := deletePeerChunk h stored ((rankedPeers h stored.2).drop limit)
    Retains stamp limit addrs (storedPeers h found.2) (storedPeers h kept.2) kept.1 := by
  intro stored kept
  have hle := existingPeers_le h addrs found.2
  have hnew : kept.1.peersInserted =
      found.1.peersInserted + (addrs.length - existingPeers h addrs found.2) := rfl
  have hold : kept.1.peersUpdated =
      found.1.peersUpdated + existingPeers h addrs found.2 := rfl
  constructor
  case rows =>
    rw [storedPeers_delete, rankedPeers_eq]
    refine (filter_dropped_perm (nodup_storedPeers h _)).trans ?_
    rw [inOrder_perm peerRank_injective (nodup_storedPeers h _).of_map
      (storedPeers_upsert haddrs)]
  case addresses => omega
  case updated =>
    rw [hold, hupdated, Nat.zero_add, existingPeers_eq haddrs]
  case balance =>
    have hup : (storedPeers h stored.2).length + found.1.peersInserted =
        (storedPeers h found.2).length + kept.1.peersInserted := upsertPeerChunk_rows haddrs
    have hdown : kept.1.peersDeleted + (storedPeers h kept.2).length =
        found.1.peersDeleted + (storedPeers h stored.2).length := deletePeerChunk_rows
    omega

theorem Retains.of_perm {supplied supplied' : List SocketAddrV4} {before after : List PeerRow}
    (hperm : supplied.Perm supplied') (hbefore : (before.map Prod.fst).Nodup)
    (hsupplied : supplied.Nodup) (hr : Retains stamp limit supplied before after outcome) :
    Retains stamp limit supplied' before after outcome where
  rows := by
    have hkeys : ((overlay stamp supplied before).map Prod.fst).Nodup :=
      nodup_keys_overlay hbefore hsupplied
    rw [← inOrder_perm peerRank_injective hkeys.of_map (overlay_perm hperm)]
    exact hr.rows
  addresses := hr.addresses.trans hperm.length_eq
  updated := hr.updated.trans (hperm.filter _).length_eq
  balance := hr.balance

theorem recordDiscoveryBy_retains (cut : List.Cut SocketAddrV4) (now : Int)
    (stamp : SocketAddrV4 → Int) (h : InfoHash) (source : String) (peers : List PeerContact)
    (limit : Nat) (c : Catalogue) :
    Retains stamp limit (peerAddrs (peers.take limit)).dedup (storedPeers h c)
      (storedPeers h (recordDiscoveryBy cut now stamp h source peers limit c).2)
      (recordDiscoveryBy cut now stamp h source peers limit c).1 := by
  have hnodup := nodup_discoveredAddrs peers limit
  have hfound : ∀ found, storedPeers h (discover now h source found c).2 = storedPeers h c := by
    intro found
    rw [storedPeers, discover_hashJobPeers, storedPeers]
  rw [recordDiscoveryBy_eq]
  refine Retains.of_perm (discoveredAddrs_perm peers limit) (nodup_storedPeers h c) hnodup ?_
  rw [← hfound (!(discoveredAddrs peers limit).isEmpty)]
  exact upsert_delete_retains hnodup rfl rfl rfl

/-- A discovery that is persisted leaves the first rows of the old ones under the new ones, and
counts what it has done; neither depends on how the addresses are cut. -/
theorem peer_retention (hdone : persistHashDiscoveryOnce cut stamp turn h source peers limit
      receipt s = (.ok outcome, s')) :
    Retains stamp limit (peerAddrs (peers.take limit)).dedup (storedPeers h s.catalogue)
        (storedPeers h s'.catalogue) outcome ∧
      (∀ other : List.Cut SocketAddrV4, persistHashDiscoveryOnce other stamp turn h source peers
        limit receipt s = (.ok outcome, s')) ∧
      ∀ chunk c, existingPeers h chunk c ≤ chunk.length := by
  have hrecord : ∀ other : List.Cut SocketAddrV4,
      persistDiscoveryBy other turn.now stamp h source peers limit receipt =
        persistDiscoveryBy cut turn.now stamp h source peers limit receipt := by
    intro other
    funext s
    rw [persistDiscoveryBy, persistDiscoveryBy, recordDiscoveryBy_eq, recordDiscoveryBy_eq]
  refine ⟨?_, fun other => ?_, existingPeers_le h⟩
  · have hbody := transact_ok (congrArg Prod.fst hdone)
    rw [← persistHashDiscoveryOnce, hdone] at hbody
    have hretains := recordDiscoveryBy_retains cut turn.now stamp h source peers limit s.catalogue
    rwa [persistDiscoveryBy_ok hbody] at hretains
  · rw [persistHashDiscoveryOnce, hrecord other]
    exact hdone

end Operation

/-- A database that has seen one discovery of two peers. -/
def retentionStore : Store :=
  (persistHashDiscoveryOnce (.every 128) (fun _ => 1) ⟨1, 0, .commits⟩ 7 "announce_peer"
    [⟨⟨1, 1, 1, 1⟩, 6881⟩, ⟨⟨8, 8, 8, 8⟩, 6881⟩] 2 0 .migrated).2

/-- Of three supplied peers two count, one of which is stored; the older row goes. -/
theorem peer_retention_pair :
    let second : SocketAddrV4 := ⟨⟨8, 8, 8, 8⟩, 6881⟩
    let third : SocketAddrV4 := ⟨⟨9, 9, 9, 9⟩, 6881⟩
    ∃ s', persistHashDiscoveryOnce (.every 128) (fun _ => 5) ⟨5, 0, .commits⟩ 7 "announce_peer"
        [⟨second⟩, ⟨third⟩, ⟨second⟩] 2 1 retentionStore =
          (.ok ⟨false, false, false, 1, 1, 1⟩, s') ∧
      Retains (fun _ => 5) 2 [second, third] (storedPeers 7 retentionStore.catalogue)
        (storedPeers 7 s'.catalogue) ⟨false, false, false, 1, 1, 1⟩ := by
  intro second third
  have hdone : (persistHashDiscoveryOnce (.every 128) (fun _ => 5) ⟨5, 0, .commits⟩ 7
      "announce_peer" [⟨second⟩, ⟨third⟩, ⟨second⟩] 2 1 retentionStore).1 =
        .ok ⟨false, false, false, 1, 1, 1⟩ := by
    decide
  have hsupplied : (peerAddrs ([⟨second⟩, ⟨third⟩, ⟨second⟩].take 2)).dedup = [second, third] := by
    decide
  generalize hrun : persistHashDiscoveryOnce (.every 128) (fun _ => 5) ⟨5, 0, .commits⟩ 7
    "announce_peer" [⟨second⟩, ⟨third⟩, ⟨second⟩] 2 1 retentionStore = run at hdone
  obtain ⟨result, s'⟩ := run
  cases hdone
  rw [← hsupplied]
  exact ⟨s', rfl, (peer_retention hrun).1⟩

end Btfind
