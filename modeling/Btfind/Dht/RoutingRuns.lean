import Btfind.Dht.RoutingInvariant

/-!
# Runs of the routing table

Sequences of the calls that change a routing table, from a new one. What holds of
every table reached, and how long a node stays live.
-/

namespace Btfind

open PrefixPath RoutingTable

inductive TableOp where
  | addCandidate (contact : NodeContact)
  | addNode (id : NodeId) (addr : SocketAddrV4)
  | markValidated (id : NodeId) (addr : SocketAddrV4)
  | recordFailure (id : NodeId)

namespace TableOp

/-- The result of a call that returns nothing is `false`. -/
def apply (t : RoutingTable) : TableOp → Option (RoutingTable × Bool)
  | .addCandidate contact => t.addCandidate contact
  | .addNode id addr => t.addNode id addr
  | .markValidated id addr => t.markValidated id addr
  | .recordFailure id => (t.recordFailure id).map fun t' => (t', false)

/-- The id and the address that a call validates. -/
def validation : TableOp → Option (NodeId × SocketAddrV4)
  | .addNode id addr => some (id, addr)
  | .markValidated id addr => some (id, addr)
  | _ => none

/-- The id that a call reports as failed. -/
def failure : TableOp → Option NodeId
  | .recordFailure id => some id
  | _ => none

end TableOp

def runOps (t : RoutingTable) (ops : List TableOp) : Option RoutingTable :=
  ops.foldlM (fun t op => (op.apply t).map Prod.fst) t

variable {t t' : RoutingTable} {ourId id x : NodeId} {addr : SocketAddrV4}
  {maxCandidates depth : Nat} {ops : List TableOp} {op : TableOp} {ret : Bool}
  {record : ContactRecord} {b : Bucket}

theorem runOps_concat (h : runOps t ops = some t') :
    runOps t (ops ++ [op]) = (op.apply t').map Prod.fst := by
  unfold runOps at h ⊢
  rw [List.foldlM_append, h]
  cases hop : (op.apply t').map Prod.fst <;> simp [hop]

theorem sound_new (ourId : NodeId) (maxCandidates : Nat) :
    (withCandidateCapacity ourId maxCandidates).Sound 0 where
  path := .root
  buckets := by
    intro b hb
    rw [List.mem_singleton.mp hb]
    exact .new ourId 0 0
  bounded := fun _ => Nat.zero_le _

theorem live_new (ourId : NodeId) (maxCandidates : Nat) (x : NodeId) :
    (withCandidateCapacity ourId maxCandidates).live x = none := rfl

/-- What one call does to the live nodes. -/
inductive TableEffect (t : RoutingTable) : TableOp → RoutingTable → Bool → Prop
  | same {contact : NodeContact} {t' : RoutingTable} {ret : Bool} (h : SameLive t t') :
      TableEffect t (.addCandidate contact) t' ret
  | validated {op : TableOp} {id : NodeId} {addr : SocketAddrV4} {t' : RoutingTable} {ret : Bool}
      (hop : op.validation = some (id, addr)) (h : Validated t id addr t' ret) :
      TableEffect t op t' ret
  | failed {id : NodeId} {t' : RoutingTable}
      (ourId : t'.ourId = t.ourId) (maxCandidates : t'.maxCandidates = t.maxCandidates)
      (live : ∀ k, t'.live k =
        if k = id then
          (t.live id).bind fun record =>
            if record.unanswered + 1 < badAfterFailures then
              some { record with unanswered := record.unanswered + 1 }
            else none
        else t.live k) :
      TableEffect t (.recordFailure id) t' false

/-- No call panics on a sound table. -/
theorem apply_sound (h : t.Sound depth) (op : TableOp) :
    ∃ t' ret depth', op.apply t = some (t', ret) ∧ t'.Sound depth' ∧ TableEffect t op t' ret := by
  cases op with
  | addCandidate contact =>
    obtain ⟨t', ret, happly, hsound, hsame⟩ := h.addCandidate contact
    exact ⟨t', ret, depth, happly, hsound, .same hsame⟩
  | addNode id addr =>
    obtain ⟨t', ret, depth', happly, hsound, hvalid⟩ := h.markValidated id addr
    exact ⟨t', ret, depth', happly, hsound, .validated rfl hvalid⟩
  | markValidated id addr =>
    obtain ⟨t', ret, depth', happly, hsound, hvalid⟩ := h.markValidated id addr
    exact ⟨t', ret, depth', happly, hsound, .validated rfl hvalid⟩
  | recordFailure id =>
    obtain ⟨t', hfailure, hsound, hid, hmax, hlive⟩ := h.recordFailure id
    refine ⟨t', false, depth, ?_, hsound, .failed hid hmax hlive⟩
    rw [TableOp.apply, hfailure]
    rfl

theorem TableEffect.config {t' : RoutingTable} (h : TableEffect t op t' ret) :
    t'.ourId = t.ourId ∧ t'.maxCandidates = t.maxCandidates := by
  cases h with
  | same h => exact ⟨h.ourId, h.maxCandidates⟩
  | validated _ h => exact ⟨h.ourId, h.maxCandidates⟩
  | failed hid hmax => exact ⟨hid, hmax⟩

/-- Every sequence of calls gives a sound table. -/
theorem run_sound (ourId : NodeId) (maxCandidates : Nat) (ops : List TableOp) :
    ∃ t depth, runOps (withCandidateCapacity ourId maxCandidates) ops = some t ∧
      t.Sound depth ∧ t.ourId = ourId ∧ t.maxCandidates = maxCandidates := by
  induction ops using List.reverseRecOn with
  | nil => exact ⟨_, 0, rfl, sound_new ourId maxCandidates, rfl, rfl⟩
  | append_singleton ops op ih =>
    obtain ⟨t, depth, hrun, hsound, hid, hmax⟩ := ih
    obtain ⟨t', ret, depth', happly, hsound', heffect⟩ := apply_sound hsound op
    obtain ⟨hid', hmax'⟩ := heffect.config
    refine ⟨t', depth', ?_, hsound', hid'.trans hid, hmax'.trans hmax⟩
    rw [runOps_concat hrun, happly]
    rfl

/-! ## The partition -/

theorem Bucket.contains_iff (h : b.span.len ≤ nodeIdBits) :
    b.contains id = some true ↔ b.span.contains id = true := by
  rw [Bucket.contains_eq h, Option.some_inj]

/-- The buckets of a table are a partition along the path of its own id, and hold what
they contain. -/
structure Partition (depth : Nat) (t : RoutingTable) : Prop where
  covered : ∀ id, t.buckets.countP (fun b => b.contains id = some true) = 1
  indexed : ∀ id, ∃ index b, t.bucketIndex id = some index ∧ t.buckets[index]? = some b ∧
    b.contains id = some true
  placed : ∀ b ∈ t.buckets, ∀ id, (b.nodes.lookup id).isSome → b.contains id = some true
  candidates_placed : ∀ b ∈ t.buckets, ∀ c ∈ b.replacements, b.contains c.id = some true
  path : SplitPath t.ourId depth t.spans
  near_path : ∀ b ∈ t.buckets, ∀ bit, bit + 1 < b.span.len →
    b.span.bits.getMsbD bit = t.ourId.getMsbD bit
  length_eq : t.buckets.length = depth + 1
  depth_le : depth ≤ nodeIdBits
  inner : ∀ len, 1 ≤ len → len < depth → t.buckets.countP (fun b => b.span.len = len) = 1
  last : 1 ≤ depth → t.buckets.countP (fun b => b.span.len = depth) = 2
  len_le : ∀ b ∈ t.buckets, b.span.len ≤ nodeIdBits
  padded : ∀ b ∈ t.buckets, ∀ bit, b.span.len ≤ bit → b.span.bits.getMsbD bit = false

theorem RoutingTable.Sound.partition (h : t.Sound depth) : Partition depth t := by
  have hcontains : ∀ b ∈ t.buckets, ∀ id, b.contains id = some true ↔ b.span.contains id = true :=
    fun b hb id => Bucket.contains_iff (h.len_le hb)
  have hlen : ∀ len, t.buckets.countP (fun b => b.span.len = len) =
      t.spans.countP fun p => p.len = len := by
    intro len
    rw [spans, List.countP_map]
    rfl
  refine ⟨?_, ?_, ?_, ?_, h.path, ?_, ?_, h.path.depth_le, ?_, ?_, ?_, ?_⟩
  · intro id
    rw [← h.path.count_eq_one id, spans, List.countP_map]
    refine List.countP_congr fun b hb => ?_
    simpa using hcontains b hb id
  · intro id
    obtain ⟨before, b, after, hloc⟩ := h.locate id
    exact ⟨before.length, b, hloc.bucketIndex h, hloc.getElem,
      (hcontains b hloc.mem id).mpr hloc.holds⟩
  · intro b hb id hlive
    obtain ⟨record, hrecord⟩ := Option.isSome_iff_exists.mp hlive
    exact (hcontains b hb id).mpr ((h.buckets b hb).placed id record hrecord)
  · intro b hb c hc
    exact (hcontains b hb c.id).mpr ((h.buckets b hb).candidates_placed c hc)
  · intro b hb
    exact h.path.near_path b.span (List.mem_map_of_mem hb)
  · rw [← h.path.length_eq, spans, List.length_map]
  · intro len hpos hlt
    rw [hlen]
    exact h.path.countP_inner hpos hlt
  · intro hpos
    rw [hlen]
    exact h.path.countP_last hpos
  · exact fun b hb => h.len_le hb
  · intro b hb
    exact h.path.padded b.span (List.mem_map_of_mem hb)

/-- No sequence of calls panics, and the buckets it leaves are a partition. -/
theorem run_partition (ourId : NodeId) (maxCandidates : Nat) (ops : List TableOp) :
    ∃ t depth, runOps (withCandidateCapacity ourId maxCandidates) ops = some t ∧
      t.ourId = ourId ∧ Partition depth t ∧ t.buckets.length ≤ 161 := by
  obtain ⟨t, depth, hrun, hsound, hid, _⟩ := run_sound ourId maxCandidates ops
  have hpartition := hsound.partition
  refine ⟨t, depth, hrun, hid, hpartition, ?_⟩
  have hdepth := hpartition.depth_le
  rw [hpartition.length_eq]
  rw [nodeIdBits] at hdepth
  omega

/-! ## The contacts -/

/-- What holds of the contacts of a table. -/
structure ContactsOk (t : RoutingTable) : Prop where
  live_le : ∀ b ∈ t.buckets, b.nodes.count ≤ bucketSize
  candidates_le : ∀ b ∈ t.buckets, b.replacements.length ≤ bucketSize
  foreign : t.live t.ourId = none
  candidates_foreign : ∀ c ∈ t.candidates, c.id ≠ t.ourId
  unvalidated : ∀ c ∈ t.candidates, t.live c.id = none
  ids : (t.candidates.map NodeContact.id).Nodup
  addrs : ∀ b ∈ t.buckets, (b.replacements.map NodeContact.addr).Nodup
  good : ∀ b ∈ t.buckets, ∀ id record, b.nodes.lookup id = some record →
    record.unanswered < badAfterFailures
  bounded : 1 ≤ t.maxCandidates → t.candidateCount ≤ t.maxCandidates

/-- Buckets hold different ids, so ids that differ in each bucket differ in all. -/
theorem contacts_nodup {f : Bucket → List NodeContact} {bs : List Bucket}
    (hpath : ∀ x, (bs.map Bucket.span).countP (fun p => p.contains x) ≤ 1)
    (hplaced : ∀ b ∈ bs, ∀ c ∈ f b, b.span.contains c.id = true)
    (hids : ∀ b ∈ bs, ((f b).map NodeContact.id).Nodup) :
    ((bs.flatMap f).map NodeContact.id).Nodup := by
  induction bs with
  | nil => exact List.nodup_nil
  | cons b bs ih =>
    rw [List.flatMap_cons, List.map_append, List.nodup_append]
    refine ⟨hids b List.mem_cons_self, ih ?_ ?_ ?_, ?_⟩
    · intro x
      have hx := hpath x
      rw [List.map_cons, List.countP_cons] at hx
      omega
    · exact fun b hb => hplaced b (List.mem_cons_of_mem _ hb)
    · exact fun b hb => hids b (List.mem_cons_of_mem _ hb)
    · intro x hx y hy
      obtain ⟨c, hc, rfl⟩ := List.mem_map.mp hx
      obtain ⟨d, hd, rfl⟩ := List.mem_map.mp hy
      obtain ⟨b', hb', hd⟩ := List.mem_flatMap.mp hd
      intro heq
      have hcount := hpath c.id
      rw [List.map_cons, List.countP_cons, if_pos (hplaced b List.mem_cons_self c hc)] at hcount
      have hzero : (bs.map Bucket.span).countP (fun p => p.contains c.id) = 0 := by omega
      rw [List.countP_eq_zero] at hzero
      refine hzero b'.span (List.mem_map_of_mem hb') ?_
      rw [heq]
      exact hplaced b' (List.mem_cons_of_mem _ hb') d hd

theorem RoutingTable.Sound.contactsOk (h : t.Sound depth) : ContactsOk t where
  live_le := fun b hb => (h.buckets b hb).live_le
  candidates_le := fun b hb => (h.buckets b hb).candidates_le
  foreign := h.own_not_live
  candidates_foreign := by
    intro c hc
    obtain ⟨b, hb, hc⟩ := List.mem_flatMap.mp hc
    exact (h.buckets b hb).candidates_foreign c hc
  unvalidated := by
    intro c hc
    obtain ⟨b, hb, hc⟩ := List.mem_flatMap.mp hc
    obtain ⟨before, after, hbuckets⟩ := List.append_of_mem hb
    have hloc : t.Located c.id before b after :=
      ⟨hbuckets, (h.buckets b hb).candidates_placed c hc⟩
    rw [hloc.live h]
    exact (h.buckets b hb).unvalidated c hc
  ids := contacts_nodup (fun x => (h.path.count_eq_one x).le)
    (fun b hb => (h.buckets b hb).candidates_placed) fun b hb => (h.buckets b hb).ids
  addrs := fun b hb => (h.buckets b hb).addrs
  good := fun b hb => (h.buckets b hb).good
  bounded := h.bounded

/-- Only a validation of an id makes it live. -/
theorem TableEffect.enters (h : TableEffect t op t' ret) (hbefore : t.live x = none)
    (hafter : t'.live x ≠ none) : ∃ addr, op.validation = some (x, addr) ∧ ret = true := by
  cases h with
  | same h => exact absurd ((h.live x).trans hbefore) hafter
  | @validated _ id addr _ _ hop h =>
    by_cases hx : x = id
    · subst hx
      refine ⟨addr, hop, ?_⟩
      by_contra hret
      rw [h.own, hbefore, Bool.eq_false_of_not_eq_true hret] at hafter
      exact hafter rfl
    · exact absurd ((h.other x hx).trans hbefore) hafter
  | @failed id _ _ _ hlive =>
    rw [hlive] at hafter
    split at hafter
    · next hx =>
      rw [← hx, hbefore] at hafter
      exact absurd rfl hafter
    · exact absurd hbefore hafter

theorem TableEffect.validates (h : TableEffect t op t' ret) (hop : op.validation = some (x, addr))
    (hret : ret = true) : t'.live x ≠ none := by
  cases h with
  | same => cases hop
  | @validated _ id addr' _ _ hop' h =>
    rw [hop] at hop'
    cases hop'
    rw [h.own, hret]
    simp
  | failed => cases hop

/-- The contacts of every table reached are sound, and the next call makes an id live
only by validating that id. -/
theorem run_contacts (ourId : NodeId) (maxCandidates : Nat) (hmax : 1 ≤ maxCandidates)
    (ops : List TableOp) :
    ∃ t, runOps (withCandidateCapacity ourId maxCandidates) ops = some t ∧ t.ourId = ourId ∧
      ContactsOk t ∧ t.candidateCount ≤ maxCandidates ∧
      ∀ (op : TableOp) (t' : RoutingTable) (ret : Bool), op.apply t = some (t', ret) →
        ∀ x, t.live x = none → t'.live x ≠ none →
          ∃ addr, op.validation = some (x, addr) := by
  obtain ⟨t, depth, hrun, hsound, hid, hcap⟩ := run_sound ourId maxCandidates ops
  refine ⟨t, hrun, hid, hsound.contactsOk, ?_, ?_⟩
  · rw [← hcap] at hmax ⊢
    exact hsound.bounded hmax
  · intro op t' ret happly x hbefore hafter
    obtain ⟨t₁, ret₁, _, happly₁, _, heffect⟩ := apply_sound hsound op
    rw [happly₁] at happly
    cases happly
    obtain ⟨addr, hop, _⟩ := heffect.enters hbefore hafter
    exact ⟨addr, hop⟩

/-- A live node, two candidates where one has room, and the live node as a candidate. -/
def crowded : List TableOp :=
  [.addNode 1 ⟨⟨10, 0, 0, 1⟩, 6881⟩, .addCandidate ⟨2, ⟨⟨10, 0, 0, 2⟩, 6881⟩⟩,
    .addCandidate ⟨3, ⟨⟨10, 0, 0, 3⟩, 6881⟩⟩, .addCandidate ⟨1, ⟨⟨10, 0, 0, 4⟩, 6881⟩⟩]

/-- The later candidate has taken the place of the earlier one. -/
theorem run_contacts_crowded :
    ∃ t, runOps (withCandidateCapacity 0 1) crowded = some t ∧
      t.candidates.map NodeContact.id = [3] ∧ (t.live 1).isSome = true ∧
      ContactsOk t ∧ t.candidateCount ≤ 1 := by
  have hids : (runOps (withCandidateCapacity 0 1) crowded).map (fun t =>
      (t.candidates.map NodeContact.id, (t.live 1).isSome)) = some ([3], true) := by decide
  obtain ⟨t, hrun, -, hcontacts, hcount, -⟩ := run_contacts 0 1 (le_refl 1) crowded
  rw [hrun] at hids
  obtain ⟨hcandidates, hlive⟩ := Prod.mk.inj (Option.some.inj hids)
  exact ⟨t, hrun, hcandidates, hlive, hcontacts, hcount⟩

/-! ## How long a node stays live -/

/-- The address of the latest validation of `x` and its failures since, after one more
call. -/
def tenureStep (x : NodeId) (tenure : Option (SocketAddrV4 × Nat)) (op : TableOp) :
    Option (SocketAddrV4 × Nat) :=
  match op.validation with
  | some (id, addr) => if id = x then some (addr, 0) else tenure
  | none =>
    if op.failure = some x then tenure.map fun (addr, failures) => (addr, failures + 1)
    else tenure

def tenure (x : NodeId) (ops : List TableOp) : Option (SocketAddrV4 × Nat) :=
  ops.foldl (tenureStep x) none

theorem tenure_concat (x : NodeId) (ops : List TableOp) (op : TableOp) :
    tenure x (ops ++ [op]) = tenureStep x (tenure x ops) op := by
  rw [tenure, List.foldl_append]
  rfl

/-- The record of a live node is what its history says. -/
def Tracks (ops : List TableOp) (t : RoutingTable) : Prop :=
  ∀ x record, t.live x = some record →
    record.contact.id = x ∧ tenure x ops = some (record.contact.addr, record.unanswered)

theorem Tracks.step (h : Tracks ops t) (heffect : TableEffect t op t' ret) :
    Tracks (ops ++ [op]) t' := by
  intro x record hlive
  rw [tenure_concat]
  cases heffect with
  | same hsame =>
    rw [hsame.live] at hlive
    exact h x record hlive
  | @validated _ id addr _ _ hop hvalid =>
    rw [tenureStep]
    rw [hop]
    by_cases hx : id = x
    · subst hx
      rw [hvalid.own] at hlive
      split at hlive
      · cases hlive
        exact ⟨rfl, if_pos rfl⟩
      · cases hlive
    -- Another id is validated: splits and replacements leave the record alone.
    · rw [hvalid.other x (Ne.symm hx)] at hlive
      obtain ⟨hid, htenure⟩ := h x record hlive
      exact ⟨hid, (if_neg hx).trans htenure⟩
  | @failed id _ _ _ hafter =>
    rw [hafter] at hlive
    unfold tenureStep TableOp.validation TableOp.failure
    split at hlive
    · next hx =>
      subst hx
      obtain ⟨old, hold, hrecord⟩ := Option.bind_eq_some_iff.mp hlive
      obtain ⟨hid, htenure⟩ := h x old hold
      split at hrecord
      · cases hrecord
        refine ⟨hid, ?_⟩
        simp [htenure]
      · cases hrecord
    · next hx =>
      obtain ⟨hid, htenure⟩ := h x record hlive
      refine ⟨hid, ?_⟩
      rw [← htenure]
      exact if_neg fun heq => hx (Option.some.inj heq).symm

theorem run_tracks (h : runOps (withCandidateCapacity ourId maxCandidates) ops = some t) :
    Tracks ops t := by
  induction ops using List.reverseRecOn generalizing t with
  | nil =>
    cases h
    intro x record hlive
    rw [live_new] at hlive
    cases hlive
  | append_singleton ops op ih =>
    obtain ⟨before, depth, hrun, hsound, _⟩ := run_sound ourId maxCandidates ops
    obtain ⟨t', ret, _, happly, _, heffect⟩ := apply_sound hsound op
    rw [runOps_concat hrun, happly] at h
    cases h
    exact (ih hrun).step heffect

/-- A live node leaves at its second failure since its latest validation only. -/
theorem Tracks.leaves (h : Tracks ops t) (heffect : TableEffect t op t' ret)
    (hbefore : t.live x = some record) (hgood : record.unanswered < badAfterFailures) :
    t'.live x = none ↔
      op.failure = some x ∧ ∃ addr, tenure x (ops ++ [op]) = some (addr, badAfterFailures) := by
  obtain ⟨hid, htenure⟩ := h x record hbefore
  rw [tenure_concat, htenure]
  cases heffect with
  | same hsame => simp [hsame.live, hbefore, TableOp.failure]
  | @validated _ id addr _ _ hop hvalid =>
    have hlive : t'.live x ≠ none := by
      by_cases hx : x = id
      · subst hx
        rw [hvalid.own, hbefore]
        simp
      · rw [hvalid.other x hx, hbefore]
        simp
    have hfailure : op.failure = none := by
      cases op <;> first | rfl | cases hop
    simp [hlive, hfailure]
  | @failed id _ _ _ hafter =>
    rw [hafter]
    by_cases hx : x = id
    · subst hx
      simp only [if_true, hbefore, Option.bind_some, tenureStep, TableOp.validation,
        TableOp.failure, Option.map_some, true_and]
      -- The failure evicts exactly when it makes the count reach the bound.
      constructor
      · intro hnone
        split at hnone
        · cases hnone
        · next hbad =>
          refine ⟨record.contact.addr, ?_⟩
          rw [show record.unanswered + 1 = badAfterFailures by omega]
      · rintro ⟨addr, heq⟩
        have hbad : record.unanswered + 1 = badAfterFailures :=
          congrArg Prod.snd (Option.some.inj heq)
        exact if_neg (by omega)
    · have hfailure : (TableOp.recordFailure id).failure ≠ some x :=
        fun heq => hx (Option.some.inj heq).symm
      simp [hx, hbefore, hfailure]

theorem RoutingTable.Sound.live_good (h : t.Sound depth) (hlive : t.live x = some record) :
    record.unanswered < badAfterFailures := by
  obtain ⟨before, b, after, hloc⟩ := h.locate x
  rw [hloc.live h] at hlive
  exact (h.buckets b hloc.mem).good x record hlive

/-- A node enters the live ones at its own validation only, stays for exactly as long
as it has not failed twice since its latest validation, and has the address of that
validation. -/
theorem run_lifetime (ourId : NodeId) (maxCandidates : Nat) (ops : List TableOp)
    (op : TableOp) :
    ∃ t t' ret, runOps (withCandidateCapacity ourId maxCandidates) ops = some t ∧
      op.apply t = some (t', ret) ∧
      runOps (withCandidateCapacity ourId maxCandidates) (ops ++ [op]) = some t' ∧
      ∀ x, (∀ record, t.live x = some record →
          record.contact.id = x ∧
          tenure x ops = some (record.contact.addr, record.unanswered)) ∧
        (t.live x = none →
          (t'.live x ≠ none ↔ ret = true ∧ ∃ addr, op.validation = some (x, addr))) ∧
        (t.live x ≠ none →
          (t'.live x = none ↔ op.failure = some x ∧
            ∃ addr, tenure x (ops ++ [op]) = some (addr, badAfterFailures))) := by
  obtain ⟨t, depth, hrun, hsound, _⟩ := run_sound ourId maxCandidates ops
  obtain ⟨t', ret, _, happly, _, heffect⟩ := apply_sound hsound op
  have htracks := run_tracks hrun
  refine ⟨t, t', ret, hrun, happly, ?_, fun x => ⟨htracks x, ?_, ?_⟩⟩
  · rw [runOps_concat hrun, happly]
    rfl
  · intro hbefore
    constructor
    · intro hafter
      obtain ⟨addr, hop, hret⟩ := heffect.enters hbefore hafter
      exact ⟨hret, addr, hop⟩
    · rintro ⟨hret, addr, hop⟩
      exact heffect.validates hop hret
  · intro hbefore
    obtain ⟨record, hlive⟩ := Option.ne_none_iff_exists'.mp hbefore
    exact htracks.leaves heffect hlive (hsound.live_good hlive)

end Btfind
