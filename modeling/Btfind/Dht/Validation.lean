import Btfind.Dht.RoutingRuns

/-!
# Validations

The loop of `mark_validated` splits the bucket of the table's own id until the bucket of the
validated id is another one or has room. Its last turn refreshes, enters or queues the node. The
splits lose nothing.
-/

namespace Btfind

open PrefixPath RoutingTable

variable {ourId id : NodeId} {addr : SocketAddrV4} {contact : NodeContact} {b l r : Bucket}

/-! ## Splits lose no replacement -/

theorem Bucket.offerReplacement_of_room (h : b.replacements.length < bucketSize) :
    b.offerReplacement contact = { b with replacements := b.replacements ++ [contact] } := by
  rw [Bucket.offerReplacement, if_pos h]

/-- When both halves have room for all that comes, none is refused. -/
theorem Bucket.scatterReplacements_all (contacts : List NodeContact) (l r : Bucket)
    (hright : r.span.len ≤ nodeIdBits)
    (hl : l.replacements.length + contacts.length ≤ bucketSize)
    (hr : r.replacements.length + contacts.length ≤ bucketSize) :
    contacts.foldlM Bucket.scatterReplacement (l, r) = some
      ({ l with replacements := l.replacements ++
          contacts.filter fun c => !r.span.contains c.id },
        { r with replacements := r.replacements ++ contacts.filter fun c => r.span.contains c.id }) := by
  induction contacts generalizing l r with
  | nil => simp
  | cons contact contacts ih =>
    rw [List.length_cons] at hl hr
    rw [List.foldlM_cons, Bucket.scatterReplacement]
    rw [Bucket.contains_eq hright]
    cases hside : r.span.contains contact.id with
    | true =>
      have hoffer : r.offerReplacement contact = _ := Bucket.offerReplacement_of_room (by omega)
      have hrest := ih l { r with replacements := r.replacements ++ [contact] } hright (by omega)
        (by simp only [List.length_append, List.length_singleton]; omega)
      simp only [Option.bind_eq_bind, Option.bind_some, if_true, hoffer]
      refine hrest.trans ?_
      simp [hside]
    | false =>
      have hoffer : l.offerReplacement contact = _ := Bucket.offerReplacement_of_room (by omega)
      have hrest := ih { l with replacements := l.replacements ++ [contact] } r hright
        (by simp only [List.length_append, List.length_singleton]; omega) (by omega)
      simp only [Option.bind_eq_bind, Option.bind_some, Bool.false_eq_true, if_false, hoffer]
      refine hrest.trans ?_
      simp [hside]

/-- Each half of a bucket gets the replacements that belong there. -/
theorem Bucket.split_replacements (h : BucketOk ourId b) (hlen : b.span.len < nodeIdBits)
    (hsplit : b.split = some (l, r)) :
    l.replacements = b.replacements.filter (fun c => !r.span.contains c.id) ∧
      r.replacements = b.replacements.filter fun c => r.span.contains c.id := by
  have hset : setBit b.span.bits b.span.len true = some b.span.right.bits := if_pos hlen
  let left := Bucket.new b.span.bits (b.span.len + 1)
  let right := Bucket.new b.span.right.bits (b.span.len + 1)
  obtain ⟨lnodes, rnodes, hnodes, -⟩ :=
    Bucket.scatterNodes_eq b.nodes.entries left right hlen b.nodes.nodupKeys
  have hfew : 0 + b.replacements.length ≤ bucketSize := by
    rw [Nat.zero_add]
    exact h.candidates_le
  have hall := Bucket.scatterReplacements_all b.replacements { left with nodes := lnodes }
    { right with nodes := rnodes } hlen hfew hfew
  rw [Bucket.split] at hsplit
  rw [hset, Option.bind_eq_bind, Option.bind_some, hnodes, Option.bind_eq_bind, Option.bind_some,
    hall] at hsplit
  cases hsplit
  exact ⟨rfl, rfl⟩

namespace RoutingTable

variable {t t' t₁ : RoutingTable} {before after : List Bucket} {depth n : Nat}

theorem candidates_middle (before : List Bucket) (b : Bucket) (after : List Bucket) :
    (t.withBuckets (before ++ b :: after)).candidates =
      before.flatMap Bucket.replacements ++
        (b.replacements ++ after.flatMap Bucket.replacements) := by
  rw [candidates, withBuckets, List.flatMap_append, List.flatMap_cons]

theorem Located.withBuckets_eq (hloc : t.Located id before b after) :
    t.withBuckets (before ++ b :: after) = t := by
  rw [← hloc.buckets]
  rfl

/-- A split keeps every candidate. -/
theorem Located.split_candidates (h : t.Sound depth) (hloc : t.Located id before b after)
    (hlen : b.span.len < nodeIdBits) (hsplit : t.splitBucket before.length = some t₁) :
    t₁.candidates.Perm t.candidates := by
  obtain ⟨l, r, hhalves, -⟩ := Bucket.split_eq hlen
  obtain ⟨hl, hr⟩ := Bucket.split_replacements (h.buckets b hloc.mem) hlen hhalves
  rw [hloc.splitBucket hhalves] at hsplit
  cases hsplit
  have hbefore := candidates_middle (t := t) before b after
  rw [hloc.withBuckets_eq] at hbefore
  have hparts : (l.replacements ++ r.replacements).Perm b.replacements := by
    have hfilter := List.filter_append_perm (fun c : NodeContact => r.span.contains c.id)
      b.replacements
    rw [hl, hr]
    exact List.perm_append_comm.trans hfilter
  have hassoc := List.append_assoc l.replacements r.replacements
    (after.flatMap Bucket.replacements)
  rw [hbefore, candidates_middle, List.flatMap_cons, ← hassoc]
  exact (hparts.append_right _).append_left _

/-! ## The loop -/

/-- The splits that the loop makes for an id, one for each turn. -/
inductive Splits (id : NodeId) : Nat → RoutingTable → RoutingTable → Prop
  | done (t : RoutingTable) : Splits id 0 t t
  | split {n index : Nat} {t t₁ t' : RoutingTable} {b : Bucket} (covers : t.bucketIndex id = some index)
      (bucket : t.buckets[index]? = some b) (absent : b.nodes.lookup id = none)
      (full : bucketSize ≤ b.nodes.count) (ours : b.contains t.ourId = some true)
      (len : b.span.len < nodeIdBits) (split : t.splitBucket index = some t₁)
      (rest : Splits id n t₁ t') : Splits id (n + 1) t t'

/-- The loop after its splits. -/
theorem Splits.markLoop (h : Splits id n t t') (addr : SocketAddrV4) (fuel : Nat) :
    RoutingTable.markLoop id addr (fuel + n) t = RoutingTable.markLoop id addr fuel t' := by
  induction h with
  | done => rfl
  | split hcovers hbucket habsent hfull hours hlen hsplit _ ih =>
    rw [← ih, ← Nat.add_assoc, RoutingTable.markLoop]
    rw [hcovers, Option.bind_eq_bind, Option.bind_some, hbucket, Option.bind_eq_bind,
      Option.bind_some, habsent]
    simp only [Option.isSome_none, Bool.false_eq_true, if_false, if_neg (Nat.not_lt.mpr hfull),
      hours, Option.bind_eq_bind, Option.bind_some, decide_eq_true hlen, Bool.and_self, if_true,
      hsplit]

/-- What the last turn of the loop does with the bucket of the id. -/
inductive LastTurn (id : NodeId) (addr : SocketAddrV4) (t : RoutingTable) (before : List Bucket)
    (b : Bucket) (after : List Bucket) : RoutingTable → Bool → Prop
  | refreshed {record : ContactRecord} (live : b.nodes.lookup id = some record) :
      LastTurn id addr t before b after (t.withBuckets (before ++ b.refresh id addr :: after)) false
  | entered (absent : b.nodes.lookup id = none) (room : b.nodes.count < bucketSize) :
      LastTurn id addr t before b after (t.withBuckets (before ++ b.enroll id addr :: after)) true
  | queued {t' : RoutingTable} {added : Bool} (absent : b.nodes.lookup id = none)
      (full : b.nodes.count = bucketSize) (foreign : b.span.contains t.ourId = false)
      (candidate : t.addCandidate ⟨id, addr⟩ = some (t', added)) :
      LastTurn id addr t before b after t' false

/-- A node is entered exactly when its bucket has room for it. -/
theorem LastTurn.entered_iff {ret : Bool} (h : LastTurn id addr t before b after t' ret) :
    ret = true ↔ b.nodes.lookup id = none ∧ b.nodes.count < bucketSize := by
  cases h with
  | refreshed hlive =>
    rw [hlive]
    exact iff_of_false Bool.false_ne_true fun h => Option.some_ne_none _ h.1
  | entered habsent hroom => exact iff_of_true rfl ⟨habsent, hroom⟩
  | queued _ hfull => exact iff_of_false Bool.false_ne_true fun h => Nat.ne_of_lt h.2 hfull

/-- A live node is refreshed in its place. -/
theorem LastTurn.of_live {record : ContactRecord} {ret : Bool}
    (h : LastTurn id addr t before b after t' ret) (hloc : t.Located id before b after)
    (hlive : b.nodes.lookup id = some record) :
    t'.candidates = t.candidates ∧ t'.spans = t.spans ∧ t'.ourId = t.ourId ∧
      t'.maxCandidates = t.maxCandidates := by
  cases h with
  | refreshed =>
    have hcandidates := candidates_middle (t := t) before b after
    rw [hloc.withBuckets_eq] at hcandidates
    refine ⟨?_, ?_, rfl, rfl⟩
    · rw [candidates_middle, hcandidates]
      rfl
    · rw [spans, spans, hloc.buckets, withBuckets, List.map_append, List.map_append]
      rfl
  | entered habsent =>
    rw [habsent] at hlive
    cases hlive
  | queued habsent =>
    rw [habsent] at hlive
    cases hlive

/-- A bucket with all the bits of an id contains no other id. -/
theorem Located.eq_of_full_span (hloc : t.Located id before b after)
    (hours : b.span.contains t.ourId = true) (hlen : nodeIdBits ≤ b.span.len) : id = t.ourId := by
  have hbits : ∀ i < nodeIdBits, id.getMsbD i = t.ourId.getMsbD i := by
    intro i hi
    have hid := List.all_eq_true.mp hloc.holds i (List.mem_range.mpr (lt_of_lt_of_le hi hlen))
    have hown := List.all_eq_true.mp hours i (List.mem_range.mpr (lt_of_lt_of_le hi hlen))
    rw [beq_iff_eq] at hid hown
    exact hid.symm.trans hown
  refine BitVec.eq_of_getMsbD_eq fun i hi => ?_
  exact hbits i hi

/-- A bucket that the loop splits for an id. -/
structure Splittable (id : NodeId) (t : RoutingTable) (b : Bucket) : Prop where
  absent : b.nodes.lookup id = none
  full : bucketSize ≤ b.nodes.count
  ours : b.span.contains t.ourId = true
  len : b.span.len < nodeIdBits

/-- The splits end, for an id has no more bits than a path. -/
theorem Sound.splits (h : t.Sound depth) (id : NodeId) (left : Nat) (hleft : depth + left = nodeIdBits) :
    ∃ n t₁ before b after, n ≤ left ∧ Splits id n t t₁ ∧ t₁.Sound (depth + n) ∧ SameLive t t₁ ∧
      t₁.candidates.Perm t.candidates ∧ t₁.Located id before b after ∧ ¬Splittable id t₁ b := by
  induction left generalizing t depth with
  | zero =>
    obtain ⟨before, b, after, hloc⟩ := h.locate id
    refine ⟨0, t, before, b, after, le_refl 0, .done t, h, .refl t, .refl _, hloc, fun hsplit => ?_⟩
    obtain ⟨t₁, -, hsound, -⟩ := hloc.split h hsplit.ours hsplit.len
    have hdepth := hsound.path.depth_le
    rw [← nodeIdBits] at hdepth
    omega
  | succ left ih =>
    obtain ⟨before, b, after, hloc⟩ := h.locate id
    by_cases hsplit : Splittable id t b
    · obtain ⟨t₁, hnext, hsound, hsame⟩ := hloc.split h hsplit.ours hsplit.len
      have hperm := hloc.split_candidates h hsplit.len hnext
      obtain ⟨n, t₂, before', b', after', hn, hsplits, hsound', hsame', hperm', hloc', hstop⟩ :=
        ih hsound (by omega)
      have hours : b.contains t.ourId = some true := by
        rw [Bucket.contains_eq (h.len_le hloc.mem), hsplit.ours]
      refine ⟨n + 1, t₂, before', b', after', Nat.succ_le_succ hn, ?_, ?_, hsame.trans hsame',
        hperm'.trans hperm, hloc', hstop⟩
      · exact .split (hloc.bucketIndex h) hloc.getElem hsplit.absent hsplit.full hours hsplit.len
          hnext hsplits
      · rw [Nat.add_comm n, ← Nat.add_assoc]
        exact hsound'
    · exact ⟨0, t, before, b, after, Nat.zero_le _, .done t, h, .refl t, .refl _, hloc, hsplit⟩

/-- The turn in which the loop returns. -/
theorem Sound.settles (h : t.Sound depth) (hid : id ≠ t.ourId) (hloc : t.Located id before b after)
    (hstop : ¬Splittable id t b) (addr : SocketAddrV4) :
    ∃ t' ret, LastTurn id addr t before b after t' ret ∧
      ∀ fuel, RoutingTable.markLoop id addr (fuel + 1) t = some (t', ret) := by
  have hb := h.buckets b hloc.mem
  simp only [RoutingTable.markLoop, hloc.bucketIndex h, Option.bind_eq_bind, Option.bind_some,
    hloc.getElem, hloc.setBucket]
  cases hrecord : b.nodes.lookup id with
  | some record => exact ⟨_, false, .refreshed hrecord, fun _ => rfl⟩
  | none =>
    simp only [Option.isSome_none, Bool.false_eq_true, if_false]
    by_cases hroom : b.nodes.count < bucketSize
    · exact ⟨_, true, .entered hrecord hroom, fun _ => if_pos hroom⟩
    · have hforeign : b.span.contains t.ourId = false := by
        by_contra hours
        rw [Bool.not_eq_false] at hours
        refine hstop ⟨hrecord, Nat.not_lt.mp hroom, hours, ?_⟩
        by_contra hlen
        exact hid (hloc.eq_of_full_span hours (Nat.not_lt.mp hlen))
      obtain ⟨t', added, hadd, -, -⟩ := h.addCandidate ⟨id, addr⟩
      have hfull : b.nodes.count = bucketSize := le_antisymm hb.live_le (Nat.not_lt.mp hroom)
      refine ⟨t', false, .queued hrecord hfull hforeign hadd, fun _ => ?_⟩
      -- A live node is never bad, so the search for a bad one finds nothing.
      rw [if_neg hroom, Bucket.contains_eq (h.len_le hloc.mem), hforeign, hadd,
        Bucket.firstBad_eq_none hb]
      rfl

/-- A live id is found in the first turn. -/
theorem Sound.absent_of_splits (h : t.Sound depth) (hsplits : Splits id (n + 1) t t₁) :
    t.live id = none := by
  obtain ⟨before, b, after, hloc⟩ := h.locate id
  cases hsplits with
  | split hcovers hbucket habsent =>
    rw [hloc.bucketIndex h] at hcovers
    cases hcovers
    rw [hloc.getElem] at hbucket
    cases hbucket
    rw [hloc.live h]
    exact habsent

/-- A node that finds no room is queued, unless its id or address is queued already. -/
theorem Sound.queues {added : Bool} (h : t.Sound depth) (hid : id ≠ t.ourId)
    (hloc : t.Located id before b after) (habsent : b.nodes.lookup id = none)
    (hadd : t.addCandidate ⟨id, addr⟩ = some (t', added)) :
    ∃ b', t'.buckets[before.length]? = some b' ∧ b'.span = b.span ∧ b'.nodes = b.nodes ∧
      (b.knows ⟨id, addr⟩ = false → ⟨id, addr⟩ ∈ b'.replacements) := by
  let contact : NodeContact := ⟨id, addr⟩
  have hother : contact.id ≠ t.ourId := hid
  have hlive : t.live contact.id = none := (hloc.live h).trans habsent
  have hcontact : t.Located contact.id before b after := hloc
  obtain ⟨hknown, hsame⟩ | ⟨-, before', b', after', hlength, hthin, -, -, -, hpushed⟩ :=
    h.addCandidate_cases hother hlive hcontact
  · rw [hadd] at hsame
    cases hsame
    refine ⟨b, hloc.getElem, rfl, rfl, fun hunknown => ?_⟩
    rw [hknown] at hunknown
    cases hunknown
  · rw [hadd] at hpushed
    cases hpushed
    have hpos : (t.withBuckets (before' ++ b'.pushReplacement ⟨id, addr⟩ :: after')).Located id
        before' (b'.pushReplacement ⟨id, addr⟩) after' := by
      refine ⟨rfl, ?_⟩
      show b'.span.contains id = true
      rw [hthin.span]
      exact hloc.holds
    refine ⟨b'.pushReplacement ⟨id, addr⟩, hlength ▸ hpos.getElem, hthin.span, hthin.nodes,
      fun _ => ?_⟩
    exact List.mem_append_right _ (List.mem_singleton_self _)

end RoutingTable

/-- What a validation does to a table. -/
theorem validation_outcome (ourId : NodeId) (maxCandidates : Nat) (ops : List TableOp)
    (id : NodeId) (addr : SocketAddrV4) :
    ∃ t t' ret n t₁ index b,
      runOps (withCandidateCapacity ourId maxCandidates) ops = some t ∧
      t.markValidated id addr = some (t', ret) ∧
      (n ≤ 160 ∧ Splits id n t t₁ ∧ t₁.bucketIndex id = some index ∧
        t₁.buckets[index]? = some b ∧ (id ≠ ourId →
          ∀ fuel, markLoop id addr (fuel + 1 + n) t = some (t', ret))) ∧
      ((∀ k, t₁.live k = t.live k) ∧ t₁.candidates.Perm t.candidates) ∧
      (ret = true ↔ id ≠ ourId ∧ t.live id = none ∧ b.nodes.count < bucketSize) ∧
      (ret = true → t'.live id = some ⟨⟨id, addr⟩, 0⟩ ∧ ∀ c ∈ t'.candidates, c.id ≠ id) ∧
      (∀ record, t.live id = some record → t'.live id = some ⟨⟨id, addr⟩, 0⟩ ∧
        (∀ k, k ≠ id → t'.live k = t.live k) ∧ t'.candidates = t.candidates ∧
        t'.spans = t.spans ∧ t'.ourId = t.ourId ∧ t'.maxCandidates = t.maxCandidates) ∧
      (ret = false → id ≠ ourId → t.live id = none →
        b.nodes.count = bucketSize ∧ b.contains ourId = some false ∧
        ∃ b', t'.buckets[index]? = some b' ∧ b'.span = b.span ∧ b'.nodes = b.nodes ∧
          (b.knows ⟨id, addr⟩ = false → ⟨id, addr⟩ ∈ b'.replacements)) := by
  obtain ⟨t, depth, hrun, hsound, rfl, -⟩ := run_sound ourId maxCandidates ops
  by_cases hid : id = t.ourId
  · -- Our own id is refused before the loop.
    subst hid
    obtain ⟨before, b, after, hloc⟩ := hsound.locate t.ourId
    have hnone := hsound.own_not_live
    refine ⟨t, t, false, 0, t, before.length, b, hrun, if_pos rfl, ⟨Nat.zero_le _, .done t,
      hloc.bucketIndex hsound, hloc.getElem, fun hne => absurd rfl hne⟩, ⟨fun _ => rfl, .refl _⟩,
      ?_, nofun, ?_, fun _ hne => absurd rfl hne⟩
    · exact iff_of_false Bool.false_ne_true fun h => h.1 rfl
    · intro record hrecord
      rw [hnone] at hrecord
      cases hrecord
  · have hdepth := hsound.path.depth_le
    obtain ⟨n, t₁, before, b, after, hn, hsplits, hsound₁, hsame, hperm, hloc, hstop⟩ :=
      hsound.splits id (nodeIdBits - depth) (Nat.add_sub_cancel' hdepth)
    have hid₁ : id ≠ t₁.ourId := hsame.ourId ▸ hid
    obtain ⟨t', ret, hsettled, hlast⟩ := hsound₁.settles hid₁ hloc hstop addr
    have hloop : ∀ fuel, markLoop id addr (fuel + 1 + n) t = some (t', ret) := fun fuel =>
      (hsplits.markLoop addr (fuel + 1)).trans (hlast fuel)
    have hn160 : n ≤ 160 := hn.trans (Nat.sub_le _ _)
    have hmark : t.markValidated id addr = some (t', ret) := by
      have hfuel : nodeIdBits + 1 = nodeIdBits - n + 1 + n := by
        have hbits : n ≤ nodeIdBits := hn160
        omega
      rw [markValidated, if_neg hid, hfuel]
      exact hloop (nodeIdBits - n)
    -- What becomes of the live nodes is known of every validation.
    obtain ⟨t'', ret'', depth', hmark'', hsound'', hvalid⟩ := hsound.markValidated id addr
    rw [hmark] at hmark''
    cases hmark''
    have hlive : t.live id = b.nodes.lookup id := (hsame.live id).symm.trans (hloc.live hsound₁)
    refine ⟨t, t', ret, n, t₁, before.length, b, hrun, hmark, ⟨hn160, hsplits,
      hloc.bucketIndex hsound₁, hloc.getElem, fun _ => hloop⟩, ⟨hsame.live, hperm⟩, ?_, ?_, ?_, ?_⟩
    · rw [hlive, hsettled.entered_iff]
      exact (and_iff_right hid).symm
    · rintro rfl
      have hown : t'.live id = some ⟨⟨id, addr⟩, 0⟩ := hvalid.own
      refine ⟨hown, fun c hc heq => ?_⟩
      have hcandidate := hsound''.contactsOk.unvalidated c hc
      rw [heq, hown] at hcandidate
      cases hcandidate
    · intro record hrecord
      have hown : t'.live id = some ⟨⟨id, addr⟩, 0⟩ := by
        rw [hvalid.own, hrecord, Option.isSome_some, Bool.or_true]
        rfl
      -- The id was found in the first turn, so no bucket was split.
      cases n with
      | succ n =>
        rw [hsound.absent_of_splits hsplits] at hrecord
        cases hrecord
      | zero =>
        cases hsplits
        rw [hlive] at hrecord
        exact ⟨hown, hvalid.other, hsettled.of_live hloc hrecord⟩
    · rintro rfl - hnone
      rw [hlive] at hnone
      cases hsettled with
      | refreshed hrecord =>
        rw [hnone] at hrecord
        cases hrecord
      | queued habsent hfull hforeign hadd =>
        refine ⟨hfull, ?_, hsound₁.queues hid₁ hloc habsent hadd⟩
        rw [Bucket.contains_eq (hsound₁.len_le hloc.mem), ← hsame.ourId, hforeign]

end Btfind
