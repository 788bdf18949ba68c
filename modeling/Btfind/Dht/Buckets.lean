import Btfind.Dht.Routing

/-!
# Buckets of the routing table

What every bucket satisfies, and that each operation on a bucket keeps it. A bucket
holds only what its span contains, so that a split can move its records without a
choice.
-/

namespace Btfind

open PrefixPath

variable {ourId id : NodeId} {addr : SocketAddrV4} {b l r : Bucket} {contact : NodeContact}

/-- What every bucket of a table satisfies. -/
structure BucketOk (ourId : NodeId) (b : Bucket) : Prop where
  placed : ∀ id record, b.nodes.lookup id = some record → b.span.contains id = true
  named : ∀ id record, b.nodes.lookup id = some record → record.contact.id = id
  good : ∀ id record, b.nodes.lookup id = some record → record.unanswered < badAfterFailures
  live_le : b.nodes.count ≤ bucketSize
  foreign : b.nodes.lookup ourId = none
  candidates_placed : ∀ c ∈ b.replacements, b.span.contains c.id = true
  candidates_foreign : ∀ c ∈ b.replacements, c.id ≠ ourId
  candidates_le : b.replacements.length ≤ bucketSize
  unvalidated : ∀ c ∈ b.replacements, b.nodes.lookup c.id = none
  ids : (b.replacements.map NodeContact.id).Nodup
  addrs : (b.replacements.map NodeContact.addr).Nodup

theorem bitValue_of_lt {bit : Nat} (h : bit < nodeIdBits) :
    bitValue id bit = some (id.getMsbD bit) := if_pos h

theorem Bucket.contains_eq (h : b.span.len ≤ nodeIdBits) (id : NodeId) :
    b.contains id = some (b.span.contains id) := by
  have hall : ∀ bits : List Nat, (∀ bit ∈ bits, bit < nodeIdBits) →
      (bits.allM fun bit => do return (← bitValue b.span.bits bit) == (← bitValue id bit)) =
        some (bits.all fun bit => b.span.bits.getMsbD bit == id.getMsbD bit) := by
    intro bits
    induction bits with
    | nil => intro _; rfl
    | cons bit bits ih =>
      intro hbits
      have hbit := hbits bit List.mem_cons_self
      have hrest := ih fun bit hb => hbits bit (List.mem_cons_of_mem _ hb)
      rw [List.allM_cons, bitValue_of_lt hbit, bitValue_of_lt hbit, List.all_cons, hrest]
      cases heq : b.span.bits.getMsbD bit == id.getMsbD bit <;> simp [heq]
  refine hall _ ?_
  intro bit hbit
  exact lt_of_lt_of_le (List.mem_range.mp hbit) h

/-- Some of the replacements stay, and every node is checked. -/
theorem BucketOk.derive {b' : Bucket} (h : BucketOk ourId b)
    (hsub : b'.replacements.Sublist b.replacements)
    (hspan : ∀ c ∈ b'.replacements, b'.span.contains c.id = true)
    (hcount : b'.nodes.count ≤ bucketSize)
    (hnodes : ∀ k found, b'.nodes.lookup k = some found → b'.span.contains k = true ∧
      found.contact.id = k ∧ found.unanswered < badAfterFailures ∧ k ≠ ourId ∧
      ∀ c ∈ b'.replacements, c.id ≠ k) : BucketOk ourId b' where
  placed := fun k found hk => (hnodes k found hk).1
  named := fun k found hk => (hnodes k found hk).2.1
  good := fun k found hk => (hnodes k found hk).2.2.1
  live_le := hcount
  foreign := by
    by_contra hlive
    obtain ⟨found, hk⟩ := Option.ne_none_iff_exists'.mp hlive
    exact (hnodes _ found hk).2.2.2.1 rfl
  candidates_placed := hspan
  candidates_foreign := fun c hc => h.candidates_foreign c (hsub.subset hc)
  candidates_le := hsub.length_le.trans h.candidates_le
  unvalidated := by
    intro c hc
    by_contra hlive
    obtain ⟨found, hk⟩ := Option.ne_none_iff_exists'.mp hlive
    exact (hnodes _ found hk).2.2.2.2 c hc rfl
  ids := h.ids.sublist (hsub.map _)
  addrs := h.addrs.sublist (hsub.map _)

/-- A live node is neither the table's own nor a replacement. -/
theorem BucketOk.live_ne (h : BucketOk ourId b) {k : NodeId} {record : ContactRecord}
    (hk : b.nodes.lookup k = some record) : k ≠ ourId ∧ ∀ c ∈ b.replacements, c.id ≠ k := by
  constructor
  · rintro rfl
    rw [h.foreign] at hk
    cases hk
  · rintro c hc rfl
    rw [h.unvalidated c hc] at hk
    cases hk

/-- The same nodes, and some of the replacements. -/
structure Thinned (b b' : Bucket) : Prop where
  span : b'.span = b.span
  nodes : b'.nodes = b.nodes
  replacements : b'.replacements.Sublist b.replacements

theorem Thinned.refl (b : Bucket) : Thinned b b := ⟨rfl, rfl, List.Sublist.refl _⟩

theorem Thinned.trans {b₁ b₂ b₃ : Bucket} (h : Thinned b₁ b₂) (h' : Thinned b₂ b₃) :
    Thinned b₁ b₃ :=
  ⟨h'.span.trans h.span, h'.nodes.trans h.nodes, h'.replacements.trans h.replacements⟩

theorem BucketOk.thinned {b' : Bucket} (h : BucketOk ourId b) (ht : Thinned b b') :
    BucketOk ourId b' := by
  refine h.derive ht.replacements ?_ (ht.nodes ▸ h.live_le) ?_
  · intro c hc
    rw [ht.span]
    exact h.candidates_placed c (ht.replacements.subset hc)
  · intro k found hk
    rw [ht.nodes] at hk
    rw [ht.span]
    exact ⟨h.placed k found hk, h.named k found hk, h.good k found hk, (h.live_ne hk).1,
      fun c hc => (h.live_ne hk).2 c (ht.replacements.subset hc)⟩

theorem BucketOk.new (ourId bits : NodeId) (len : Nat) : BucketOk ourId (.new bits len) := by
  constructor <;> simp [Bucket.new, AList.count]

theorem Bucket.refresh_lookup (k : NodeId) : (b.refresh id addr).nodes.lookup k =
    if k = id then (b.nodes.lookup id).map fun record =>
      { record with contact.addr := addr, unanswered := 0 }
    else b.nodes.lookup k :=
  AList.lookup_adjust

theorem BucketOk.refresh (h : BucketOk ourId b) {record : ContactRecord}
    (hlive : b.nodes.lookup id = some record) : BucketOk ourId (b.refresh id addr) := by
  refine h.derive (List.Sublist.refl _) h.candidates_placed ?_ ?_
  · have hcount : (b.refresh id addr).nodes.count = b.nodes.count := by
      rw [Bucket.refresh, AList.adjust, hlive]
      exact AList.count_insert_of_some hlive
    exact hcount ▸ h.live_le
  · intro k found hk
    rw [Bucket.refresh_lookup] at hk
    split at hk
    · next heq =>
      subst heq
      rw [hlive] at hk
      cases hk
      exact ⟨h.placed k record hlive, h.named k record hlive, Nat.zero_lt_two, h.live_ne hlive⟩
    · exact ⟨h.placed k found hk, h.named k found hk, h.good k found hk, h.live_ne hk⟩

theorem Bucket.enroll_lookup (k : NodeId) : (b.enroll id addr).nodes.lookup k =
    if k = id then some ⟨⟨id, addr⟩, 0⟩ else b.nodes.lookup k :=
  AList.lookup_insert_eq

theorem BucketOk.enroll (h : BucketOk ourId b) (hspan : b.span.contains id = true)
    (hid : id ≠ ourId) (hnew : b.nodes.lookup id = none) (hroom : b.nodes.count < bucketSize) :
    BucketOk ourId (b.enroll id addr) := by
  have hsub : (b.enroll id addr).replacements.Sublist b.replacements := List.filter_sublist
  refine h.derive hsub (fun c hc => h.candidates_placed c (hsub.subset hc)) ?_ ?_
  · have hcount : (b.enroll id addr).nodes.count = b.nodes.count + 1 :=
      AList.count_insert_of_none hnew
    omega
  · intro k found hk
    rw [Bucket.enroll_lookup] at hk
    split at hk
    · next heq =>
      subst heq
      cases hk
      refine ⟨hspan, rfl, Nat.zero_lt_two, hid, ?_⟩
      intro c hc
      simpa using (List.mem_filter.mp hc).2
    · exact ⟨h.placed k found hk, h.named k found hk, h.good k found hk, (h.live_ne hk).1,
        fun c hc => (h.live_ne hk).2 c (hsub.subset hc)⟩

theorem Bucket.firstBad_eq_none (h : BucketOk ourId b) : b.firstBad = none := by
  rw [firstBad]
  simp only [Option.map_eq_none_iff, List.find?_eq_none, List.mem_insertionSort,
    decide_eq_true_eq]
  intro e he
  have := h.good e.1 e.2 (AList.lookup_eq_some_iff.mpr he)
  omega

theorem BucketOk.pushReplacement (h : BucketOk ourId b)
    (hspan : b.span.contains contact.id = true) (hid : contact.id ≠ ourId)
    (hnew : b.nodes.lookup contact.id = none) (hunknown : b.knows contact = false) :
    BucketOk ourId (b.pushReplacement contact) := by
  let kept := if bucketSize ≤ b.replacements.length then b.replacements.tail else b.replacements
  -- The oldest candidate makes room when the list is full.
  have hsub : kept.Sublist b.replacements := by
    unfold kept
    split
    · exact List.tail_sublist _
    · exact List.Sublist.refl _
  have hlen : kept.length < bucketSize := by
    have hle := h.candidates_le
    unfold kept
    split
    · rw [List.length_tail]
      simp only [bucketSize] at hle ⊢
      omega
    · omega
  have hother : ∀ c ∈ kept, c.id ≠ contact.id ∧ c.addr ≠ contact.addr := by
    intro c hc
    rw [Bucket.knows] at hunknown
    rw [List.any_eq_false] at hunknown
    simpa using hunknown c (hsub.subset hc)
  have hmem : ∀ c ∈ (b.pushReplacement contact).replacements, c ∈ b.replacements ∨ c = contact := by
    intro c hc
    obtain hold | hnew := List.mem_append.mp hc
    · exact Or.inl (hsub.subset hold)
    · exact Or.inr (List.mem_singleton.mp hnew)
  -- Ids and addresses are two cases of one argument.
  have hnodup : ∀ {β : Type} (f : NodeContact → β), (b.replacements.map f).Nodup →
      (∀ c ∈ kept, f c ≠ f contact) →
      ((b.pushReplacement contact).replacements.map f).Nodup := by
    intro β f hold hne
    show ((kept ++ [contact]).map f).Nodup
    rw [List.map_append, List.map_singleton, List.nodup_append]
    refine ⟨hold.sublist (hsub.map f), List.nodup_singleton _, ?_⟩
    intro x hx y hy
    obtain ⟨c, hc, rfl⟩ := List.mem_map.mp hx
    rw [List.mem_singleton.mp hy]
    exact hne c hc
  constructor
  case placed => exact h.placed
  case named => exact h.named
  case good => exact h.good
  case live_le => exact h.live_le
  case foreign => exact h.foreign
  case candidates_placed =>
    intro c hc
    obtain hold | rfl := hmem c hc
    · exact h.candidates_placed c hold
    · exact hspan
  case candidates_foreign =>
    intro c hc
    obtain hold | rfl := hmem c hc
    · exact h.candidates_foreign c hold
    · exact hid
  case candidates_le =>
    show (kept ++ [contact]).length ≤ bucketSize
    rw [List.length_append, List.length_singleton]
    omega
  case unvalidated =>
    intro c hc
    obtain hold | rfl := hmem c hc
    · exact h.unvalidated c hold
    · exact hnew
  case ids => exact hnodup _ h.ids fun c hc => (hother c hc).1
  case addrs => exact hnodup _ h.addrs fun c hc => (hother c hc).2

/-- What a failure leaves of the records of a bucket. -/
theorem Bucket.recordFailure_lookup (h : BucketOk ourId b) (k : NodeId) :
    (b.recordFailure id).nodes.lookup k =
      if k = id then
        (b.nodes.lookup id).bind fun record =>
          if record.unanswered + 1 < badAfterFailures then
            some { record with unanswered := record.unanswered + 1 }
          else none
      else b.nodes.lookup k := by
  rw [Bucket.recordFailure]
  cases hlive : b.nodes.lookup id with
  | none =>
    simp only [Option.bind_none]
    split
    · next hk => rw [hk, hlive]
    · rfl
  | some record =>
    have hgood := h.good id record hlive
    -- `saturating_add` does not saturate: a live node is below the bound.
    have hmin : min (record.unanswered + 1) 255 = record.unanswered + 1 := by
      rw [badAfterFailures] at hgood
      omega
    simp only [hmin, Option.bind_some]
    split
    · next hbad => rw [AList.lookup_erase_eq, if_neg (Nat.not_lt.mpr hbad)]
    · next hfine => rw [AList.lookup_insert_eq, if_pos (Nat.not_le.mp hfine)]

theorem BucketOk.recordFailure (h : BucketOk ourId b) : BucketOk ourId (b.recordFailure id) := by
  have hrest : (b.recordFailure id).span = b.span ∧
      (b.recordFailure id).replacements = b.replacements ∧
      (b.recordFailure id).nodes.count ≤ b.nodes.count := by
    rw [Bucket.recordFailure]
    split
    · exact ⟨rfl, rfl, le_refl _⟩
    · next record hlive =>
      simp only
      split
      · exact ⟨rfl, rfl, AList.count_erase_le _ _⟩
      · exact ⟨rfl, rfl, (AList.count_insert_of_some hlive).le⟩
  obtain ⟨hspan, hreplacements, hcount⟩ := hrest
  refine h.derive ?_ ?_ (hcount.trans h.live_le) ?_
  · rw [hreplacements]
  · rw [hreplacements, hspan]
    exact h.candidates_placed
  · intro k found hk
    rw [Bucket.recordFailure_lookup h] at hk
    rw [hspan, hreplacements]
    split at hk
    · next heq =>
      subst heq
      obtain ⟨record, hlive, hfound⟩ := Option.bind_eq_some_iff.mp hk
      split at hfound
      · next hfine =>
        cases hfound
        exact ⟨h.placed k record hlive, h.named k record hlive, hfine, h.live_ne hlive⟩
      · cases hfound
    · exact ⟨h.placed k found hk, h.named k found hk, h.good k found hk, h.live_ne hk⟩

/-! ## Splits -/

theorem Bucket.scatterNode_eq (hright : r.span.len ≤ nodeIdBits)
    (entry : Σ _ : NodeId, ContactRecord) :
    Bucket.scatterNode (l, r) entry = some
      (if r.span.contains entry.1 then
        (l, { r with nodes := r.nodes.insert entry.1 entry.2 })
      else ({ l with nodes := l.nodes.insert entry.1 entry.2 }, r)) := by
  rw [Bucket.scatterNode]
  rw [Bucket.contains_eq hright]
  simp only [Option.bind_eq_bind, Option.bind_some]
  split <;> rfl

theorem count_insert_le (t : KeyedTable NodeId ContactRecord) (k : NodeId)
    (record : ContactRecord) : (t.insert k record).count ≤ t.count + 1 := by
  cases hk : t.lookup k with
  | none => exact (AList.count_insert_of_none hk).le
  | some found => exact (AList.count_insert_of_some hk).le.trans (Nat.le_succ _)

/-- The nodes of a split bucket go to the half whose span contains them. -/
theorem Bucket.scatterNodes_eq (entries : List (Σ _ : NodeId, ContactRecord)) (l r : Bucket)
    (hright : r.span.len ≤ nodeIdBits) (hkeys : entries.NodupKeys) :
    ∃ lnodes rnodes, entries.foldlM Bucket.scatterNode (l, r) =
        some ({ l with nodes := lnodes }, { r with nodes := rnodes }) ∧
      (∀ k, lnodes.lookup k =
        if r.span.contains k then l.nodes.lookup k else (entries.dlookup k).or (l.nodes.lookup k)) ∧
      (∀ k, rnodes.lookup k =
        if r.span.contains k then (entries.dlookup k).or (r.nodes.lookup k) else r.nodes.lookup k) ∧
      lnodes.count ≤ l.nodes.count + entries.length ∧
      rnodes.count ≤ r.nodes.count + entries.length := by
  induction entries generalizing l r with
  | nil => exact ⟨l.nodes, r.nodes, rfl, by simp, by simp, le_refl _, le_refl _⟩
  | cons entry entries ih =>
    obtain ⟨key, record⟩ := entry
    obtain ⟨hfresh, hkeys⟩ := List.nodupKeys_cons.mp hkeys
    have hnone : entries.dlookup key = none := List.dlookup_eq_none.mpr hfresh
    have hskip : ∀ k, k ≠ key → List.dlookup k
        ((⟨key, record⟩ : Σ _ : NodeId, ContactRecord) :: entries) = entries.dlookup k :=
      fun k hk => List.dlookup_cons_ne entries ⟨key, record⟩ hk
    -- Keys are distinct, so an entry that was inserted first is not overwritten.
    have hstep : ∀ (t : KeyedTable NodeId ContactRecord) (k : NodeId),
        (entries.dlookup k).or ((t.insert key record).lookup k) =
          (List.dlookup k (⟨key, record⟩ :: entries)).or (t.lookup k) := by
      intro t k
      rw [AList.lookup_insert_eq]
      split
      · next hk =>
        subst hk
        simp [hnone]
      · next hk => rw [hskip k hk]
    rw [List.foldlM_cons, Bucket.scatterNode_eq hright, Option.bind_eq_bind, Option.bind_some]
    cases hside : r.span.contains key with
    | true =>
      obtain ⟨lnodes, rnodes, hfold, hl, hr, hlcount, hrcount⟩ :=
        ih l { r with nodes := r.nodes.insert key record } hright hkeys
      refine ⟨lnodes, rnodes, hfold, ?_, ?_, ?_, ?_⟩
      · intro k
        rw [hl]
        split
        · rfl
        · next hk =>
          have hne : k ≠ key := by
            rintro rfl
            exact hk hside
          rw [hskip k hne]
      · intro k
        rw [hr]
        split
        · exact hstep r.nodes k
        · next hk =>
          rw [AList.lookup_insert_eq, if_neg]
          rintro rfl
          exact hk hside
      · rw [List.length_cons]
        omega
      · have hinsert := count_insert_le r.nodes key record
        simp only at hrcount
        rw [List.length_cons]
        omega
    | false =>
      obtain ⟨lnodes, rnodes, hfold, hl, hr, hlcount, hrcount⟩ :=
        ih { l with nodes := l.nodes.insert key record } r hright hkeys
      refine ⟨lnodes, rnodes, hfold, ?_, ?_, ?_, ?_⟩
      · intro k
        rw [hl]
        split
        · next hk =>
          rw [AList.lookup_insert_eq, if_neg]
          rintro rfl
          rw [hside] at hk
          cases hk
        · exact hstep l.nodes k
      · intro k
        rw [hr]
        split
        · next hk =>
          have hne : k ≠ key := by
            rintro rfl
            rw [hside] at hk
            cases hk
          rw [hskip k hne]
        · rfl
      · have hinsert := count_insert_le l.nodes key record
        simp only at hlcount
        rw [List.length_cons]
        omega
      · rw [List.length_cons]
        omega

theorem Bucket.offerReplacement_eq (contact : NodeContact) (b : Bucket) :
    ∃ more, b.offerReplacement contact = { b with replacements := b.replacements ++ more } ∧
      more.Sublist [contact] := by
  rw [Bucket.offerReplacement]
  split
  · exact ⟨[contact], rfl, List.Sublist.refl _⟩
  · exact ⟨[], by rw [List.append_nil], List.nil_sublist _⟩

/-- The replacements of a split bucket go to the half whose span contains them, if
there is room. -/
theorem Bucket.scatterReplacements_eq (contacts : List NodeContact) (l r : Bucket)
    (hright : r.span.len ≤ nodeIdBits) :
    ∃ ls rs, contacts.foldlM Bucket.scatterReplacement (l, r) =
        some ({ l with replacements := l.replacements ++ ls },
          { r with replacements := r.replacements ++ rs }) ∧
      ls.Sublist (contacts.filter fun c => !r.span.contains c.id) ∧
      rs.Sublist (contacts.filter fun c => r.span.contains c.id) := by
  induction contacts generalizing l r with
  | nil => exact ⟨[], [], by simp, List.Sublist.refl _, List.Sublist.refl _⟩
  | cons contact contacts ih =>
    rw [List.foldlM_cons]
    cases hside : r.span.contains contact.id with
    | true =>
      obtain ⟨more, hoffer, hmore⟩ := r.offerReplacement_eq contact
      obtain ⟨ls, rs, hfold, hls, hrs⟩ :=
        ih l { r with replacements := r.replacements ++ more } hright
      have hstep : Bucket.scatterReplacement (l, r) contact =
          some (l, { r with replacements := r.replacements ++ more }) := by
        rw [Bucket.scatterReplacement]
        rw [Bucket.contains_eq hright, hside, ← hoffer]
        rfl
      refine ⟨ls, more ++ rs, ?_, ?_, ?_⟩
      · rw [hstep, Option.bind_eq_bind, Option.bind_some, hfold, List.append_assoc]
      · rw [List.filter_cons, hside]
        exact hls
      · rw [List.filter_cons, hside]
        exact hmore.append hrs
    | false =>
      obtain ⟨more, hoffer, hmore⟩ := l.offerReplacement_eq contact
      obtain ⟨ls, rs, hfold, hls, hrs⟩ :=
        ih { l with replacements := l.replacements ++ more } r hright
      have hstep : Bucket.scatterReplacement (l, r) contact =
          some ({ l with replacements := l.replacements ++ more }, r) := by
        rw [Bucket.scatterReplacement]
        rw [Bucket.contains_eq hright, hside, ← hoffer]
        rfl
      refine ⟨more ++ ls, rs, ?_, ?_, ?_⟩
      · rw [hstep, Option.bind_eq_bind, Option.bind_some, hfold, List.append_assoc]
      · rw [List.filter_cons, hside]
        exact hmore.append hls
      · rw [List.filter_cons, hside]
        exact hrs

/-- What a split gives: the halves of the span with the nodes and the replacements
that belong there. -/
structure Halves (b l r : Bucket) : Prop where
  lspan : l.span = b.span.left
  rspan : r.span = b.span.right
  lnodes : ∀ k, l.nodes.lookup k = if r.span.contains k then none else b.nodes.lookup k
  rnodes : ∀ k, r.nodes.lookup k = if r.span.contains k then b.nodes.lookup k else none
  lcount : l.nodes.count ≤ b.nodes.count
  rcount : r.nodes.count ≤ b.nodes.count
  lreplacements : l.replacements.Sublist
    (b.replacements.filter fun c => !r.span.contains c.id)
  rreplacements : r.replacements.Sublist (b.replacements.filter fun c => r.span.contains c.id)

theorem Bucket.split_eq (hlen : b.span.len < nodeIdBits) :
    ∃ l r, b.split = some (l, r) ∧ Halves b l r := by
  have hset : setBit b.span.bits b.span.len true = some b.span.right.bits := if_pos hlen
  let left := Bucket.new b.span.bits (b.span.len + 1)
  let right := Bucket.new b.span.right.bits (b.span.len + 1)
  have hright : right.span.len ≤ nodeIdBits := hlen
  obtain ⟨lnodes, rnodes, hnodes, hl, hr, hlcount, hrcount⟩ :=
    Bucket.scatterNodes_eq b.nodes.entries left right hright b.nodes.nodupKeys
  obtain ⟨ls, rs, hreplacements, hls, hrs⟩ := Bucket.scatterReplacements_eq b.replacements
    { left with nodes := lnodes } { right with nodes := rnodes } hright
  refine ⟨{ left with nodes := lnodes, replacements := ls },
    { right with nodes := rnodes, replacements := rs }, ?_, rfl, rfl, ?_, ?_, ?_, ?_, hls, hrs⟩
  · rw [Bucket.split]
    rw [hset, Option.bind_eq_bind, Option.bind_some, hnodes, Option.bind_eq_bind,
      Option.bind_some, hreplacements]
    rfl
  · intro k
    rw [hl]
    split
    · rfl
    · exact Option.or_none
  · intro k
    rw [hr]
    split
    · exact Option.or_none
    · rfl
  · simpa [left, Bucket.new, AList.count] using hlcount
  · simpa [right, Bucket.new, AList.count] using hrcount

theorem BucketOk.halves (h : BucketOk ourId b) (hh : Halves b l r) (hpadded : b.span.Padded)
    (hlen : b.span.len < nodeIdBits) : BucketOk ourId l ∧ BucketOk ourId r := by
  -- Within the span of the bucket each half is the complement of the other.
  have hside : ∀ k, b.span.contains k = true → l.span.contains k = !r.span.contains k := by
    intro k hk
    rw [hh.lspan, hh.rspan, Prefix.left_contains hpadded, Prefix.right_contains hlen, hk]
    rfl
  have hlsub := hh.lreplacements.trans List.filter_sublist
  have hrsub := hh.rreplacements.trans List.filter_sublist
  constructor
  · refine h.derive hlsub ?_ (hh.lcount.trans h.live_le) ?_
    · intro c hc
      obtain ⟨hold, hleft⟩ := List.mem_filter.mp (hh.lreplacements.subset hc)
      rw [hside _ (h.candidates_placed c hold)]
      exact hleft
    · intro k found hk
      rw [hh.lnodes] at hk
      split at hk
      · cases hk
      · next hleft =>
        refine ⟨?_, h.named k found hk, h.good k found hk, (h.live_ne hk).1,
          fun c hc => (h.live_ne hk).2 c (hlsub.subset hc)⟩
        rw [hside k (h.placed k found hk)]
        simpa using hleft
  · refine h.derive hrsub ?_ (hh.rcount.trans h.live_le) ?_
    · intro c hc
      exact (List.mem_filter.mp (hh.rreplacements.subset hc)).2
    · intro k found hk
      rw [hh.rnodes] at hk
      split at hk
      · next hright =>
        exact ⟨hright, h.named k found hk, h.good k found hk, (h.live_ne hk).1,
          fun c hc => (h.live_ne hk).2 c (hrsub.subset hc)⟩
      · cases hk

/-- A split drops replacements at most. -/
theorem Halves.length_le (hh : Halves b l r) :
    l.replacements.length + r.replacements.length ≤ b.replacements.length := by
  have hl := hh.lreplacements.length_le
  have hr := hh.rreplacements.length_le
  have hsum := List.length_eq_length_filter_add
    (l := b.replacements) fun c => r.span.contains c.id
  omega

end Btfind
