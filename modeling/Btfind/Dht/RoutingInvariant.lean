import Btfind.Dht.Buckets

/-!
# The routing invariant

The spans of the buckets are a partition along the path of the table's own id, and
every bucket is sound. No operation on such a table panics, and each keeps it so.
-/

namespace Btfind

open PrefixPath

namespace RoutingTable

variable {t t' : RoutingTable} {id k : NodeId} {addr : SocketAddrV4} {b b' : Bucket}
  {before after bs bs' : List Bucket} {contact : NodeContact} {depth : Nat}

def withBuckets (bs : List Bucket) (t : RoutingTable) : RoutingTable := { t with buckets := bs }

/-- The record of a live node. -/
def live (t : RoutingTable) (id : NodeId) : Option ContactRecord :=
  t.buckets.findSome? fun b => b.nodes.lookup id

def spans (t : RoutingTable) : List (Prefix 160) := t.buckets.map Bucket.span

/-- The table after `depth` splits. -/
structure Sound (depth : Nat) (t : RoutingTable) : Prop where
  path : SplitPath t.ourId depth t.spans
  buckets : ∀ b ∈ t.buckets, BucketOk t.ourId b
  bounded : 1 ≤ t.maxCandidates → t.candidateCount ≤ t.maxCandidates

/-- The bucket of an id. -/
structure Located (t : RoutingTable) (id : NodeId) (before : List Bucket) (b : Bucket)
    (after : List Bucket) : Prop where
  buckets : t.buckets = before ++ b :: after
  holds : b.span.contains id = true

theorem Located.other (h : t.Sound depth) (hloc : t.Located id before b after) {c : Bucket}
    (hc : c ∈ before ∨ c ∈ after) : c.span.contains id = false := by
  have hpath := h.path
  rw [spans, hloc.buckets, List.map_append, List.map_cons] at hpath
  refine hpath.unique hloc.holds ?_
  exact hc.imp (fun hc => List.mem_map_of_mem hc) fun hc => List.mem_map_of_mem hc

theorem Located.mem (hloc : t.Located id before b after) : b ∈ t.buckets := by
  rw [hloc.buckets]
  simp

theorem Located.getElem (hloc : t.Located id before b after) :
    t.buckets[before.length]? = some b := by
  rw [hloc.buckets, List.getElem?_append_right (le_refl _), Nat.sub_self]
  rfl

theorem Located.setBucket (hloc : t.Located id before b after) (b' : Bucket) :
    t.setBucket before.length b' = t.withBuckets (before ++ b' :: after) := by
  rw [RoutingTable.setBucket]
  rw [hloc.buckets, List.set_append_right _ _ (le_refl _), Nat.sub_self]
  rfl

theorem Sound.len_le (h : t.Sound depth) (hb : b ∈ t.buckets) : b.span.len ≤ nodeIdBits :=
  h.path.len_le b.span (List.mem_map_of_mem hb)

theorem findBucket_eq (hlen : ∀ c ∈ before, c.span.len ≤ nodeIdBits)
    (hb : b.span.len ≤ nodeIdBits) (hother : ∀ c ∈ before, c.span.contains id = false)
    (hholds : b.span.contains id = true) :
    findBucket id (before ++ b :: after) = some before.length := by
  induction before with
  | nil =>
    rw [List.nil_append, findBucket, Bucket.contains_eq hb, hholds]
    rfl
  | cons c before ih =>
    have hc := hother c List.mem_cons_self
    have hrest := ih (fun c hc => hlen c (List.mem_cons_of_mem _ hc))
      fun c hc => hother c (List.mem_cons_of_mem _ hc)
    rw [List.cons_append, findBucket, Bucket.contains_eq (hlen c List.mem_cons_self), hc, hrest]
    rfl

theorem Located.bucketIndex (h : t.Sound depth) (hloc : t.Located id before b after) :
    t.bucketIndex id = some before.length := by
  rw [RoutingTable.bucketIndex]
  have hlen : ∀ c ∈ before ++ b :: after, c.span.len ≤ nodeIdBits := by
    intro c hc
    exact h.len_le (hloc.buckets ▸ hc)
  rw [hloc.buckets]
  exact findBucket_eq (fun c hc => hlen c (List.mem_append_left _ hc)) (hlen b (by simp))
    (fun c hc => hloc.other h (Or.inl hc)) hloc.holds

/-- Every id has a bucket. -/
theorem Sound.locate (h : t.Sound depth) (id : NodeId) :
    ∃ before b after, t.Located id before b after := by
  obtain ⟨p, hp, hholds⟩ := h.path.exists_part id
  obtain ⟨b, hb, rfl⟩ := List.mem_map.mp hp
  obtain ⟨before, after, hbuckets⟩ := List.append_of_mem hb
  exact ⟨before, b, after, hbuckets, hholds⟩

/-! ## Live nodes -/

theorem findSome_none (bs : List Bucket) (h : ∀ c ∈ bs, BucketOk t.ourId c)
    (hother : ∀ c ∈ bs, c.span.contains k = false) :
    bs.findSome? (fun b => b.nodes.lookup k) = none := by
  rw [List.findSome?_eq_none_iff]
  intro c hc
  by_contra hlive
  obtain ⟨record, hrecord⟩ := Option.ne_none_iff_exists'.mp hlive
  have hplaced := (h c hc).placed k record hrecord
  rw [hother c hc] at hplaced
  cases hplaced

theorem findSome_middle (k : NodeId) (before : List Bucket) (b : Bucket) (after : List Bucket) :
    (before ++ b :: after).findSome? (fun b => b.nodes.lookup k) =
      (before.findSome? fun b => b.nodes.lookup k).or
        ((b.nodes.lookup k).or (after.findSome? fun b => b.nodes.lookup k)) := by
  rw [List.findSome?_append, List.findSome?_cons]
  cases b.nodes.lookup k <;> rfl

/-- A live node is in the bucket of its id. -/
theorem Located.live (h : t.Sound depth) (hloc : t.Located id before b after) :
    t.live id = b.nodes.lookup id := by
  have hbuckets : ∀ c ∈ before ++ b :: after, BucketOk t.ourId c :=
    fun c hc => h.buckets c (hloc.buckets ▸ hc)
  rw [RoutingTable.live]
  rw [hloc.buckets, findSome_middle,
    findSome_none before (fun c hc => hbuckets c (by simp [hc])) fun c hc =>
      hloc.other h (Or.inl hc),
    findSome_none after (fun c hc => hbuckets c (by simp [hc])) fun c hc =>
      hloc.other h (Or.inr hc), Option.none_or, Option.or_none]

theorem Sound.contains (h : t.Sound depth) (id : NodeId) :
    t.contains id = some (t.live id).isSome := by
  obtain ⟨before, b, after, hloc⟩ := h.locate id
  rw [RoutingTable.contains]
  rw [hloc.bucketIndex h, Option.bind_eq_bind, Option.bind_some, hloc.getElem, hloc.live h]
  rfl

/-! ## Changing one bucket -/

theorem countReplacements_middle (before : List Bucket) (b : Bucket) (after : List Bucket) :
    countReplacements (before ++ b :: after) =
      countReplacements before + b.replacements.length + countReplacements after := by
  simp only [countReplacements, List.map_append, List.map_cons, List.sum_append, List.sum_cons]
  omega

/-- A bucket is replaced by one with the same span. -/
theorem Sound.replace (h : t.Sound depth) (hloc : t.Located id before b after)
    (hspan : b'.span = b.span) (hb' : BucketOk t.ourId b')
    (hbound : 1 ≤ t.maxCandidates →
      countReplacements (before ++ b' :: after) ≤ t.maxCandidates) :
    (t.withBuckets (before ++ b' :: after)).Sound depth := by
  refine ⟨?_, ?_, hbound⟩
  · have hpath := h.path
    rw [spans, hloc.buckets, List.map_append, List.map_cons, ← hspan, ← List.map_cons,
      ← List.map_append] at hpath
    exact hpath
  · intro c hc
    have hc : c ∈ before ++ b' :: after := hc
    rw [List.mem_append, List.mem_cons] at hc
    obtain hc | rfl | hc := hc
    · exact h.buckets c (by rw [hloc.buckets]; simp [hc])
    · exact hb'
    · exact h.buckets c (by rw [hloc.buckets]; simp [hc])

theorem Located.bounded (h : t.Sound depth) (hloc : t.Located id before b after)
    (hlen : b'.replacements.length ≤ b.replacements.length) (hmax : 1 ≤ t.maxCandidates) :
    countReplacements (before ++ b' :: after) ≤ t.maxCandidates := by
  have hbound := h.bounded hmax
  rw [candidateCount, hloc.buckets, countReplacements_middle] at hbound
  rw [countReplacements_middle]
  omega

/-- A change of one bucket changes no live node of another. -/
theorem Located.replace_live (h : t.Sound depth) (hloc : t.Located id before b after)
    (hspan : b'.span = b.span) (hb' : BucketOk t.ourId b') (k : NodeId) :
    (t.withBuckets (before ++ b' :: after)).live k =
      if b.span.contains k then b'.nodes.lookup k else t.live k := by
  have hbuckets : ∀ c ∈ before ++ b :: after, BucketOk t.ourId c :=
    fun c hc => h.buckets c (hloc.buckets ▸ hc)
  unfold RoutingTable.live withBuckets
  rw [hloc.buckets, findSome_middle, findSome_middle]
  split
  · next hk =>
    have hlock : t.Located k before b after := ⟨hloc.buckets, hk⟩
    rw [findSome_none before (fun c hc => hbuckets c (by simp [hc])) fun c hc =>
        hlock.other h (Or.inl hc),
      findSome_none after (fun c hc => hbuckets c (by simp [hc])) fun c hc =>
        hlock.other h (Or.inr hc), Option.none_or, Option.or_none]
  · next hk =>
    have hnone : ∀ c, BucketOk t.ourId c → c.span = b.span → c.nodes.lookup k = none := by
      intro c hc hcspan
      by_contra hlive
      obtain ⟨record, hrecord⟩ := Option.ne_none_iff_exists'.mp hlive
      exact hk (hcspan ▸ hc.placed k record hrecord)
    rw [hnone b' hb' hspan, hnone b (hbuckets b (by simp)) rfl]

/-! ## Making room -/

/-- No other node lives in the new table. -/
structure SameLive (t t' : RoutingTable) : Prop where
  ourId : t'.ourId = t.ourId
  maxCandidates : t'.maxCandidates = t.maxCandidates
  live : ∀ k, t'.live k = t.live k

theorem SameLive.refl (t : RoutingTable) : SameLive t t := ⟨rfl, rfl, fun _ => rfl⟩

theorem SameLive.trans {t'' : RoutingTable} (h : SameLive t t') (h' : SameLive t' t'') :
    SameLive t t'' :=
  ⟨h'.ourId.trans h.ourId, h'.maxCandidates.trans h.maxCandidates,
    fun k => (h'.live k).trans (h.live k)⟩

theorem forall₂_thinned_refl (bs : List Bucket) : List.Forall₂ Thinned bs bs :=
  List.forall₂_same.mpr fun b _ => Thinned.refl b

theorem forall₂_thinned_trans {bs'' : List Bucket} (h : List.Forall₂ Thinned bs bs')
    (h' : List.Forall₂ Thinned bs' bs'') : List.Forall₂ Thinned bs bs'' := by
  induction h generalizing bs'' with
  | nil => exact h'
  | cons hb _ ih =>
    obtain ⟨b'', rest, hb', hrest, rfl⟩ := List.forall₂_cons_left_iff.mp h'
    exact .cons (hb.trans hb') (ih hrest)

theorem forall₂_thinned_middle (h : List.Forall₂ Thinned (before ++ b :: after) bs') :
    ∃ before' b' after', bs' = before' ++ b' :: after' ∧ before'.length = before.length ∧
      Thinned b b' := by
  induction before generalizing bs' with
  | nil =>
    obtain ⟨b', after', hb, _, rfl⟩ := List.forall₂_cons_left_iff.mp h
    exact ⟨[], b', after', rfl, rfl, hb⟩
  | cons c before ih =>
    obtain ⟨c', rest, _, hrest, rfl⟩ := List.forall₂_cons_left_iff.mp h
    obtain ⟨before', b', after', rfl, hlen, hb⟩ := ih hrest
    exact ⟨c' :: before', b', after', rfl, congrArg (· + 1) hlen, hb⟩

theorem spans_thinned (h : List.Forall₂ Thinned bs bs') :
    bs'.map Bucket.span = bs.map Bucket.span := by
  induction h with
  | nil => rfl
  | cons hb _ ih => rw [List.map_cons, List.map_cons, hb.span, ih]

theorem live_thinned (h : List.Forall₂ Thinned bs bs') (k : NodeId) :
    (bs'.findSome? fun b => b.nodes.lookup k) = bs.findSome? fun b => b.nodes.lookup k := by
  induction h with
  | nil => rfl
  | cons hb _ ih => rw [List.findSome?_cons, List.findSome?_cons, hb.nodes, ih]

theorem countReplacements_thinned (h : List.Forall₂ Thinned bs bs') :
    countReplacements bs' ≤ countReplacements bs := by
  induction h with
  | nil => exact le_refl _
  | cons hb _ ih =>
    have hlen := hb.replacements.length_le
    simp only [countReplacements, List.map_cons, List.sum_cons] at ih ⊢
    omega

theorem bucketOk_thinned {ourId : NodeId} (h : List.Forall₂ Thinned bs bs')
    (hok : ∀ b ∈ bs, BucketOk ourId b) : ∀ b ∈ bs', BucketOk ourId b := by
  induction h with
  | nil => exact hok
  | cons hb _ ih =>
    intro c hc
    obtain rfl | hc := List.mem_cons.mp hc
    · exact (hok _ List.mem_cons_self).thinned hb
    · exact ih (fun b hb => hok b (List.mem_cons_of_mem _ hb)) c hc

theorem Sound.thinned (h : t.Sound depth) (hbs : List.Forall₂ Thinned t.buckets bs) :
    (t.withBuckets bs).Sound depth ∧ SameLive t (t.withBuckets bs) := by
  refine ⟨⟨?_, bucketOk_thinned hbs h.buckets, ?_⟩, rfl, rfl, live_thinned hbs⟩
  · have hpath := h.path
    rw [spans, ← spans_thinned hbs] at hpath
    exact hpath
  · intro hmax
    exact (countReplacements_thinned hbs).trans (h.bounded hmax)

/-- A pop takes one replacement, if there is one. -/
theorem popReplacement_eq (bs : List Bucket) :
    (popReplacement bs = none ∧ countReplacements bs = 0) ∨
      ∃ bs', popReplacement bs = some bs' ∧ List.Forall₂ Thinned bs bs' ∧
        countReplacements bs = countReplacements bs' + 1 := by
  induction bs with
  | nil => exact Or.inl ⟨rfl, rfl⟩
  | cons b bs ih =>
    cases hb : b.replacements with
    | nil =>
      obtain ⟨hnone, hzero⟩ | ⟨bs', hsome, hthin, hcount⟩ := ih
      · refine Or.inl ⟨?_, ?_⟩
        · simp [popReplacement, hb, hnone]
        · simpa [countReplacements, hb] using hzero
      · refine Or.inr ⟨b :: bs', ?_, .cons (.refl b) hthin, ?_⟩
        · simp [popReplacement, hb, hsome]
        · simpa [countReplacements, hb] using hcount
    | cons c cs =>
      refine Or.inr ⟨{ b with replacements := b.replacements.tail } :: bs, ?_, ?_, ?_⟩
      · simp [popReplacement, hb]
      · exact .cons ⟨rfl, rfl, List.tail_sublist _⟩ (forall₂_thinned_refl bs)
      · simp only [countReplacements, List.map_cons, List.sum_cons, hb, List.tail_cons,
          List.length_cons]
        omega

/-- The loop ends: there is room, or no bucket has a replacement. -/
theorem makeRoom_spec (maxCandidates fuel : Nat) (bs : List Bucket)
    (hfuel : countReplacements bs ≤ fuel) :
    List.Forall₂ Thinned bs (makeRoom maxCandidates fuel bs) ∧
      (countReplacements (makeRoom maxCandidates fuel bs) < maxCandidates ∨
        popReplacement (makeRoom maxCandidates fuel bs) = none) := by
  induction fuel generalizing bs with
  | zero =>
    refine ⟨forall₂_thinned_refl bs, Or.inr ?_⟩
    -- The fuel covers every replacement, so none is left to pop.
    obtain ⟨hnone, _⟩ | ⟨bs', _, _, hcount⟩ := popReplacement_eq bs
    · exact hnone
    · omega
  | succ fuel ih =>
    rw [makeRoom]
    split
    · obtain ⟨hnone, _⟩ | ⟨bs', hsome, hthin, hcount⟩ := popReplacement_eq bs
      · rw [hnone]
        exact ⟨forall₂_thinned_refl bs, Or.inr hnone⟩
      · rw [hsome]
        obtain ⟨hthin', hend⟩ := ih bs' (by omega)
        exact ⟨forall₂_thinned_trans hthin hthin', hend⟩
    · next hroom => exact ⟨forall₂_thinned_refl bs, Or.inl (Nat.not_le.mp hroom)⟩

theorem countReplacements_makeRoom {maxCandidates fuel : Nat} (hmax : 1 ≤ maxCandidates)
    (hfuel : countReplacements bs ≤ fuel) :
    countReplacements (makeRoom maxCandidates fuel bs) < maxCandidates := by
  obtain ⟨_, hroom | hnone⟩ := makeRoom_spec maxCandidates fuel bs hfuel
  · exact hroom
  · obtain ⟨_, hzero⟩ | ⟨bs', hsome, _⟩ := popReplacement_eq (makeRoom maxCandidates fuel bs)
    · omega
    · rw [hnone] at hsome
      cases hsome

/-! ## The operations -/

theorem pushReplacement_length (contact : NodeContact) (b : Bucket) :
    (b.pushReplacement contact).replacements.length ≤ b.replacements.length + 1 := by
  rw [Bucket.pushReplacement]
  simp only [List.length_append, List.length_singleton]
  split
  · rw [List.length_tail]
    omega
  · exact le_refl _

/-- A new replacement changes no live node. -/
theorem Sound.pushReplacement (h : t.Sound depth) (hloc : t.Located contact.id before b after)
    (hid : contact.id ≠ t.ourId) (hnew : t.live contact.id = none)
    (hunknown : b.knows contact = false)
    (hroom : 1 ≤ t.maxCandidates → t.candidateCount < t.maxCandidates) :
    (t.withBuckets (before ++ b.pushReplacement contact :: after)).Sound depth ∧
      SameLive t (t.withBuckets (before ++ b.pushReplacement contact :: after)) := by
  have hb := h.buckets b hloc.mem
  rw [hloc.live h] at hnew
  have hok := hb.pushReplacement hloc.holds hid hnew hunknown
  have hspan : (b.pushReplacement contact).span = b.span := rfl
  refine ⟨h.replace hloc hspan hok ?_, rfl, rfl, ?_⟩
  · intro hmax
    have hcount := hroom hmax
    have hlen := pushReplacement_length contact b
    rw [candidateCount, hloc.buckets, countReplacements_middle] at hcount
    rw [countReplacements_middle]
    omega
  · intro k
    rw [hloc.replace_live h hspan hok]
    split
    · next hk =>
      have hlock : t.Located k before b after := ⟨hloc.buckets, hk⟩
      exact (hlock.live h).symm
    · rfl

theorem knows_thinned (h : Thinned b b') (hunknown : b.knows contact = false) :
    b'.knows contact = false := by
  unfold Bucket.knows at hunknown ⊢
  rw [List.any_eq_false] at hunknown ⊢
  exact fun c hc => hunknown c (h.replacements.subset hc)

/-- A candidate for a bucket is refused when the bucket knows it, and pushed after room was made
otherwise. -/
theorem Sound.addCandidate_cases (h : t.Sound depth) (hid : contact.id ≠ t.ourId)
    (hlive : t.live contact.id = none) (hloc : t.Located contact.id before b after) :
    (b.knows contact = true ∧ t.addCandidate contact = some (t, false)) ∨
      (b.knows contact = false ∧ ∃ before' b' after', before'.length = before.length ∧
        Thinned b b' ∧ (t.withBuckets (before' ++ b' :: after')).Sound depth ∧
        SameLive t (t.withBuckets (before' ++ b' :: after')) ∧
        (1 ≤ t.maxCandidates →
          (t.withBuckets (before' ++ b' :: after')).candidateCount < t.maxCandidates) ∧
        t.addCandidate contact =
          some (t.withBuckets (before' ++ b'.pushReplacement contact :: after'), true)) := by
  rw [RoutingTable.addCandidate]
  simp only [if_neg hid, h.contains, hlive, Option.isSome_none, Option.bind_eq_bind,
    Option.bind_some, Bool.false_eq_true, if_false, hloc.bucketIndex h, hloc.getElem]
  cases hknown : b.knows contact with
  | true => exact Or.inl ⟨rfl, rfl⟩
  | false =>
    -- Making room moves no bucket, so the contact still belongs at the same index.
    have hroom : 1 ≤ t.maxCandidates → countReplacements
        (makeRoom t.maxCandidates t.candidateCount t.buckets) < t.maxCandidates :=
      fun hmax => countReplacements_makeRoom hmax (le_refl _)
    obtain ⟨hthin, _⟩ := makeRoom_spec t.maxCandidates t.candidateCount t.buckets (le_refl _)
    obtain ⟨hsound, hsame⟩ := h.thinned hthin
    rw [hloc.buckets] at hthin
    obtain ⟨before', b', after', hbuckets, hlen, hb⟩ := forall₂_thinned_middle hthin
    rw [← hloc.buckets] at hbuckets
    rw [hbuckets] at hsound hsame hroom
    refine Or.inr ⟨rfl, before', b', after', hlen, hb, hsound, hsame, hroom, ?_⟩
    have hloc' : (t.withBuckets (before' ++ b' :: after')).Located contact.id before' b' after' :=
      ⟨rfl, hb.span ▸ hloc.holds⟩
    have hget := hloc'.getElem
    have hset := hloc'.setBucket (b'.pushReplacement contact)
    rw [hlen] at hget hset
    unfold withBuckets at hget hset ⊢
    simp only [Bool.false_eq_true, if_false, hbuckets]
    rw [hget, Option.bind_some, hset]
    rfl

theorem Sound.addCandidate (h : t.Sound depth) (contact : NodeContact) :
    ∃ t' added, t.addCandidate contact = some (t', added) ∧ t'.Sound depth ∧ SameLive t t' := by
  by_cases hid : contact.id = t.ourId
  · rw [RoutingTable.addCandidate, if_pos hid]
    exact ⟨t, false, rfl, h, .refl t⟩
  cases hlive : t.live contact.id with
  | some record =>
    rw [RoutingTable.addCandidate, if_neg hid, h.contains, hlive]
    exact ⟨t, false, rfl, h, .refl t⟩
  | none =>
    obtain ⟨before, b, after, hloc⟩ := h.locate contact.id
    obtain ⟨-, hadd⟩ | ⟨hunknown, before', b', after', -, hb, hsound, hsame, hroom, hadd⟩ :=
      h.addCandidate_cases hid hlive hloc
    · exact ⟨t, false, hadd, h, .refl t⟩
    · have hloc' : (t.withBuckets (before' ++ b' :: after')).Located contact.id before' b' after' :=
        ⟨rfl, hb.span ▸ hloc.holds⟩
      obtain ⟨hpushed, hsame'⟩ := hsound.pushReplacement hloc' hid
        ((hsame.live contact.id).trans hlive) (knows_thinned hb hunknown) hroom
      exact ⟨_, true, hadd, hpushed, hsame.trans hsame'⟩

/-- What a failure leaves of the live nodes. -/
theorem Sound.recordFailure (h : t.Sound depth) (id : NodeId) :
    ∃ t', t.recordFailure id = some t' ∧ t'.Sound depth ∧ t'.ourId = t.ourId ∧
      t'.maxCandidates = t.maxCandidates ∧ ∀ k, t'.live k =
        if k = id then
          (t.live id).bind fun record =>
            if record.unanswered + 1 < badAfterFailures then
              some { record with unanswered := record.unanswered + 1 }
            else none
        else t.live k := by
  obtain ⟨before, b, after, hloc⟩ := h.locate id
  have hb := h.buckets b hloc.mem
  have hrest : (b.recordFailure id).span = b.span ∧
      (b.recordFailure id).replacements = b.replacements := by
    rw [Bucket.recordFailure]
    split
    · exact ⟨rfl, rfl⟩
    · simp only
      split <;> exact ⟨rfl, rfl⟩
  refine ⟨t.withBuckets (before ++ b.recordFailure id :: after), ?_, ?_, rfl, rfl, ?_⟩
  · rw [RoutingTable.recordFailure]
    rw [hloc.bucketIndex h, Option.bind_eq_bind, Option.bind_some, hloc.getElem,
      Option.bind_eq_bind, Option.bind_some, hloc.setBucket]
    rfl
  · exact h.replace hloc hrest.1 hb.recordFailure (hloc.bounded h (by rw [hrest.2]))
  · intro k
    rw [hloc.replace_live h hrest.1 hb.recordFailure, Bucket.recordFailure_lookup hb,
      hloc.live h]
    by_cases hk : b.span.contains k = true
    · have hlock : t.Located k before b after := ⟨hloc.buckets, hk⟩
      rw [if_pos hk, hlock.live h]
    · rw [if_neg hk, if_neg]
      rintro rfl
      exact hk hloc.holds

/-- A split puts the two halves in the place of the bucket. -/
theorem Located.splitBucket (hloc : t.Located id before b after) {l r : Bucket}
    (hsplit : b.split = some (l, r)) :
    t.splitBucket before.length = some (t.withBuckets (before ++ l :: r :: after)) := by
  rw [RoutingTable.splitBucket]
  rw [hloc.getElem, Option.bind_eq_bind, Option.bind_some, hsplit, hloc.buckets,
    List.take_left, List.drop_append]
  simp [withBuckets]

/-- A split of the table's own bucket moves its records and loses no live node. -/
theorem Located.split (h : t.Sound depth) (hloc : t.Located id before b after)
    (hours : b.span.contains t.ourId = true) (hlen : b.span.len < nodeIdBits) :
    ∃ t', t.splitBucket before.length = some t' ∧ t'.Sound (depth + 1) ∧ SameLive t t' := by
  obtain ⟨l, r, hsplit, hhalves⟩ := Bucket.split_eq hlen
  have hpath := h.path
  have hpadded : b.span.Padded := hpath.padded b.span (List.mem_map_of_mem hloc.mem)
  obtain ⟨hl, hr⟩ := (h.buckets b hloc.mem).halves hhalves hpadded hlen
  refine ⟨t.withBuckets (before ++ l :: r :: after), hloc.splitBucket hsplit, ⟨?_, ?_, ?_⟩, rfl,
    rfl, ?_⟩
  · rw [spans, hloc.buckets, List.map_append, List.map_cons] at hpath
    have hnext := hpath.split hours hlen
    rw [← hhalves.lspan, ← hhalves.rspan, ← List.map_cons, ← List.map_cons,
      ← List.map_append] at hnext
    exact hnext
  · intro c hc
    have hc : c ∈ before ++ l :: r :: after := hc
    rw [List.mem_append, List.mem_cons, List.mem_cons] at hc
    obtain hc | rfl | rfl | hc := hc
    · exact h.buckets c (by rw [hloc.buckets]; simp [hc])
    · exact hl
    · exact hr
    · exact h.buckets c (by rw [hloc.buckets]; simp [hc])
  · intro hmax
    have hbound := h.bounded hmax
    have hsum := hhalves.length_le
    rw [candidateCount, hloc.buckets, countReplacements_middle] at hbound
    rw [candidateCount, withBuckets, countReplacements_middle]
    simp only [countReplacements, List.map_cons, List.sum_cons] at hbound ⊢
    omega
  · intro k
    -- A node of the bucket is in one half only, so the search finds the same record.
    have hright := findSome_middle k [] r after
    rw [List.nil_append, List.findSome?_nil, Option.none_or] at hright
    unfold RoutingTable.live withBuckets
    rw [hloc.buckets, findSome_middle, findSome_middle, hright, hhalves.lnodes, hhalves.rnodes]
    cases r.span.contains k <;> simp

/-- What `mark_validated` does to the live nodes. -/
structure Validated (t : RoutingTable) (id : NodeId) (addr : SocketAddrV4) (t' : RoutingTable)
    (entered : Bool) : Prop where
  ourId : t'.ourId = t.ourId
  maxCandidates : t'.maxCandidates = t.maxCandidates
  fresh : entered = true → t.live id = none
  own : t'.live id = if entered || (t.live id).isSome then some ⟨⟨id, addr⟩, 0⟩ else none
  other : ∀ k, k ≠ id → t'.live k = t.live k

theorem Validated.of_sameLive {entered : Bool} {t'' : RoutingTable} (h : SameLive t t')
    (hv : Validated t' id addr t'' entered) : Validated t id addr t'' entered where
  ourId := hv.ourId.trans h.ourId
  maxCandidates := hv.maxCandidates.trans h.maxCandidates
  fresh := fun hentered => (h.live id).symm.trans (hv.fresh hentered)
  own := by rw [hv.own, h.live]
  other := fun k hk => (hv.other k hk).trans (h.live k)

theorem SameLive.validated (h : SameLive t t') (hnone : t.live id = none) :
    Validated t id addr t' false where
  ourId := h.ourId
  maxCandidates := h.maxCandidates
  fresh := fun hentered => nomatch hentered
  own := by simp [h.live, hnone]
  other := fun k _ => h.live k

/-- A change of the node of one bucket. -/
theorem Sound.changed {entered : Bool} (h : t.Sound depth) (hloc : t.Located id before b after)
    (hspan : b'.span = b.span) (hb' : BucketOk t.ourId b')
    (hown : b'.nodes.lookup id =
      if entered || (t.live id).isSome then some ⟨⟨id, addr⟩, 0⟩ else none)
    (hfresh : entered = true → t.live id = none)
    (hother : ∀ k, k ≠ id → b'.nodes.lookup k = b.nodes.lookup k) :
    Validated t id addr (t.withBuckets (before ++ b' :: after)) entered where
  ourId := rfl
  maxCandidates := rfl
  fresh := hfresh
  own := by rw [hloc.replace_live h hspan hb', if_pos hloc.holds, hown]
  other := by
    intro k hk
    rw [hloc.replace_live h hspan hb']
    split
    · next hkb =>
      have hlock : t.Located k before b after := ⟨hloc.buckets, hkb⟩
      rw [hother k hk, hlock.live h]
    · rfl

theorem Sound.own_not_live (h : t.Sound depth) : t.live t.ourId = none := by
  obtain ⟨before, b, after, hloc⟩ := h.locate t.ourId
  rw [hloc.live h]
  exact (h.buckets b hloc.mem).foreign

/-- The loop of `mark_validated` ends within the splits that are left. -/
theorem Sound.markLoop {fuel : Nat} (h : t.Sound depth) (hid : id ≠ t.ourId)
    (hfuel : nodeIdBits < fuel + depth) :
    ∃ t' entered depth', RoutingTable.markLoop id addr fuel t = some (t', entered) ∧
      t'.Sound depth' ∧ Validated t id addr t' entered := by
  induction fuel generalizing t depth with
  | zero =>
    -- Every split takes the path one bit further, and an id has no more bits.
    have hdepth := h.path.depth_le
    rw [nodeIdBits] at hfuel
    omega
  | succ fuel ih =>
    obtain ⟨before, b, after, hloc⟩ := h.locate id
    have hb := h.buckets b hloc.mem
    have hlive := hloc.live h
    rw [RoutingTable.markLoop]
    rw [hloc.bucketIndex h, Option.bind_eq_bind, Option.bind_some, hloc.getElem,
      Option.bind_eq_bind, Option.bind_some]
    cases hrecord : b.nodes.lookup id with
    | some record =>
      -- A live node gets the new address, and its failures are forgotten.
      have hok : BucketOk t.ourId (b.refresh id addr) := hb.refresh hrecord
      refine ⟨t.withBuckets (before ++ b.refresh id addr :: after), false, depth, ?_, ?_, ?_⟩
      · rw [← hloc.setBucket]
        rfl
      · exact h.replace hloc rfl hok (hloc.bounded h (le_refl _))
      · refine h.changed hloc rfl hok ?_ (fun hentered => nomatch hentered) fun k hk => ?_
        · rw [Bucket.refresh_lookup, if_pos rfl, hlive, hrecord]
          simp [hb.named id record hrecord]
        · rw [Bucket.refresh_lookup, if_neg hk]
    | none =>
      simp only [Option.isSome_none, Bool.false_eq_true, if_false]
      split
      · next hroom =>
        have hok : BucketOk t.ourId (b.enroll id addr) :=
          hb.enroll hloc.holds hid hrecord hroom
        refine ⟨t.withBuckets (before ++ b.enroll id addr :: after), true, depth, ?_, ?_, ?_⟩
        · rw [← hloc.setBucket]
          rfl
        · exact h.replace hloc rfl hok (hloc.bounded h (List.length_filter_le _ _))
        · refine h.changed hloc rfl hok ?_ (fun _ => hlive.trans hrecord) fun k hk => ?_
          · rw [Bucket.enroll_lookup, if_pos rfl]
            rfl
          · rw [Bucket.enroll_lookup, if_neg hk]
      · rw [Bucket.contains_eq (h.len_le hloc.mem), Option.bind_eq_bind, Option.bind_some]
        split
        · next hown =>
          -- The full bucket holds our own id: it is split, and the loop looks again.
          obtain ⟨hours, hlen⟩ := Bool.and_eq_true_iff.mp hown
          obtain ⟨t₁, hsplit, hsound, hsame⟩ := hloc.split h hours (of_decide_eq_true hlen)
          obtain ⟨t', entered, depth', hloop, hsound', hvalid⟩ :=
            ih hsound (hsame.ourId ▸ hid) (by omega)
          rw [hsplit]
          exact ⟨t', entered, depth', hloop, hsound', hvalid.of_sameLive hsame⟩
        -- A bad node is never kept, so no other node is replaced: the new one waits.
        · rw [Bucket.firstBad_eq_none hb]
          obtain ⟨t', added, hadd, hsound, hsame⟩ := h.addCandidate ⟨id, addr⟩
          rw [hadd]
          exact ⟨t', false, depth, rfl, hsound, hsame.validated (hlive.trans hrecord)⟩

/-- `mark_validated` never panics and always ends. -/
theorem Sound.markValidated (h : t.Sound depth) (id : NodeId) (addr : SocketAddrV4) :
    ∃ t' entered depth', t.markValidated id addr = some (t', entered) ∧ t'.Sound depth' ∧
      Validated t id addr t' entered := by
  rw [RoutingTable.markValidated]
  split
  · next hid =>
    subst hid
    exact ⟨t, false, depth, rfl, h, (SameLive.refl t).validated h.own_not_live⟩
  · next hid => exact h.markLoop hid (by omega)

end RoutingTable

end Btfind
