import Btfind.Dht.Rpcs

/-!
# The tracker of lookups

What each operation of the tracker does to the entry and the history of one lookup, and
that its counters add up.
-/

namespace Btfind

namespace RealLookupTracker

/-- What the tracker holds about one id. -/
structure View where
  progress : Option RealLookupProgress
  begun : Nat
  initiated : Nat
  finals : List Bool

/-- The result with which a lookup of an id was finalized. -/
def finalOf (id : BitVec 64) : LookupAction → Option Bool
  | .finalized id' succeeded => if id' = id then some succeeded else none
  | _ => none

/-- How often a lookup was begun with an id. -/
def begunAs (id : BitVec 64) (t : RealLookupTracker) : Nat :=
  t.history.countP fun a => a = .began id

def view (id : BitVec 64) (t : RealLookupTracker) : View where
  progress := t.active.lookup id
  begun := t.begunAs id
  initiated := t.history.countP fun a => a = .initiated id
  finals := t.history.filterMap (finalOf id)

def View.attach (v : View) : View :=
  { v with progress := v.progress.map fun p => { p with outstanding := p.outstanding + 1 } }

def View.complete (foundPeers : Bool) (v : View) : View :=
  match v.progress with
  | none => v
  | some p =>
    if 1 < p.outstanding then
      { v with progress := some ⟨p.outstanding - 1, p.peersFound || foundPeers⟩ }
    else { v with progress := none, finals := (p.peersFound || foundPeers) :: v.finals }

def View.started (v : View) : View :=
  if v.progress.any fun p => 0 < p.outstanding then { v with initiated := v.initiated + 1 }
  else { v with progress := none }

variable {id id' : BitVec 64} {t : RealLookupTracker} {foundPeers : Bool}

theorem view_congr {t' : RealLookupTracker} (hactive : t'.active.lookup id = t.active.lookup id)
    (hhistory : t'.history = t.history) : t'.view id = t.view id := by
  unfold view begunAs
  rw [hactive, hhistory]

theorem view_unsent (lookupId : Option (BitVec 64)) : (t.unsent lookupId).view id = t.view id := by
  rw [unsent]
  split <;> rfl

theorem view_attach : (t.attach id').view id =
    if id = id' then (t.view id).attach else t.view id := by
  have hlookup : (t.attach id').active.lookup id =
      if id = id' then (t.active.lookup id').map fun p => { p with outstanding := p.outstanding + 1 }
      else t.active.lookup id := AList.lookup_adjust
  split
  · next h =>
    subst h
    rw [if_pos rfl] at hlookup
    rw [view, View.attach]
    rw [hlookup]
    rfl
  · next h => exact view_congr (hlookup.trans (if_neg h)) rfl

theorem view_begin : t.begin.2.view id =
    if id = t.nextId then
      { t.view id with progress := some ⟨0, false⟩, begun := (t.view id).begun + 1 }
    else t.view id := by
  have hlookup : t.begin.2.active.lookup id =
      if id = t.nextId then some ⟨0, false⟩ else t.active.lookup id := AList.lookup_insert_eq
  unfold view begunAs
  rw [hlookup]
  by_cases h : id = t.nextId
  · subst h
    simp [begin, finalOf, List.filterMap_cons]
  · simp [begin, finalOf, List.filterMap_cons, h, Ne.symm h]

theorem view_started : (t.started id').view id =
    if id = id' then (t.view id).started else t.view id := by
  rw [started]
  by_cases h : id = id'
  · subst h
    rw [if_pos rfl]
    cases hany : (t.active.lookup id).any fun p => 0 < p.outstanding <;>
      simp [View.started, view, begunAs, finalOf, List.filterMap_cons, hany]
  · rw [if_neg h]
    split
    · simp [view, begunAs, finalOf, List.filterMap_cons, Ne.symm h]
    · exact view_congr (AList.lookup_erase_ne h) rfl

theorem view_complete : (t.complete id' foundPeers).view id =
    if id = id' then (t.view id).complete foundPeers else t.view id := by
  rw [complete]
  by_cases h : id = id'
  · subst h
    rw [if_pos rfl]
    cases hp : t.active.lookup id with
    | none => simp [View.complete, view, hp]
    | some p =>
      -- The last call finalizes the lookup, any other one is only subtracted.
      by_cases hmore : 1 < p.outstanding
      · have hpos : 0 < p.outstanding - 1 := by omega
        simp [View.complete, view, begunAs, hp, hmore, hpos]
      · have hzero : ¬0 < p.outstanding - 1 := by omega
        cases hfound : p.peersFound || foundPeers <;>
          simp [View.complete, view, begunAs, finalOf, hp, hmore, hzero, hfound]
  · rw [if_neg h]
    cases hp : t.active.lookup id' with
    | none => rfl
    | some p =>
      simp only
      split
      · exact view_congr (AList.lookup_insert_ne h) rfl
      · split <;>
          simp [view, begunAs, finalOf, Ne.symm h, AList.lookup_erase_ne h]

/-! ## The ids -/

theorem begunAs_begin : t.begin.2.begunAs id =
    if id = t.nextId then t.begunAs id + 1 else t.begunAs id := by
  have hview : (t.begin.2.view id).begun = _ := congrArg View.begun view_begin
  rw [apply_ite View.begun] at hview
  exact hview

/-- The number of lookups that were begun. -/
def begun (t : RealLookupTracker) : Nat := t.history.countP fun a => a matches .began _

/-- Ids are given out in order, and again from the start after the last one. -/
structure Numbered (t : RealLookupTracker) : Prop where
  next : t.nextId = BitVec.ofNat 64 t.begun
  begunAs : ∀ id, t.begunAs id = (t.begun + (2 ^ 64 - 1 - id.toNat)) / 2 ^ 64

/-- No lookup was begun in between. -/
structure NoneBegun (t t' : RealLookupTracker) : Prop where
  next : t'.nextId = t.nextId
  begun : t'.begun = t.begun
  begunAs : ∀ id, t'.begunAs id = t.begunAs id

theorem NoneBegun.refl (t : RealLookupTracker) : NoneBegun t t := ⟨rfl, rfl, fun _ => rfl⟩

theorem NoneBegun.trans {t' t'' : RealLookupTracker} (h : NoneBegun t t')
    (h' : NoneBegun t' t'') : NoneBegun t t'' :=
  ⟨h'.next.trans h.next, h'.begun.trans h.begun, fun id => (h'.begunAs id).trans (h.begunAs id)⟩

theorem Numbered.of_noneBegun {t' : RealLookupTracker} (h : t.Numbered) (hnone : NoneBegun t t') :
    t'.Numbered :=
  ⟨by rw [hnone.next, hnone.begun, h.next], fun id => by
    rw [hnone.begunAs, hnone.begun, h.begunAs]⟩

theorem noneBegun_unsent (lookupId : Option (BitVec 64)) (t : RealLookupTracker) :
    NoneBegun t (t.unsent lookupId) := by
  rw [unsent]
  split <;> exact ⟨rfl, rfl, fun _ => rfl⟩

theorem noneBegun_attach (id : BitVec 64) (t : RealLookupTracker) : NoneBegun t (t.attach id) :=
  ⟨rfl, rfl, fun _ => rfl⟩

theorem noneBegun_complete (id : BitVec 64) (foundPeers : Bool) (t : RealLookupTracker) :
    NoneBegun t (t.complete id foundPeers) := by
  rw [complete]
  split
  · exact .refl t
  · simp only
    split
    · exact ⟨rfl, rfl, fun _ => rfl⟩
    · split <;> exact ⟨rfl, by simp [RealLookupTracker.begun], fun id => by
        simp [RealLookupTracker.begunAs]⟩

theorem noneBegun_started (id : BitVec 64) (t : RealLookupTracker) : NoneBegun t (t.started id) := by
  rw [started]
  split
  · exact ⟨rfl, by simp [RealLookupTracker.begun], fun id => by
      simp [RealLookupTracker.begunAs]⟩
  · exact ⟨rfl, rfl, fun _ => rfl⟩

theorem Numbered.begin (h : t.Numbered) : t.begin.2.Numbered := by
  have hbegun : t.begin.2.begun = t.begun + 1 := by simp [RealLookupTracker.begin, begun]
  refine ⟨?_, fun id => ?_⟩
  · rw [hbegun, BitVec.ofNat_add, ← h.next]
    rfl
  -- Only for the next id does one begin more complete another round of all ids.
  · have hnext : t.nextId.toNat = t.begun % 2 ^ 64 := by rw [h.next, BitVec.toNat_ofNat]
    have hlt := id.isLt
    have hid := h.begunAs id
    rw [begunAs_begin, hbegun]
    split
    · next heq =>
      subst heq
      omega
    · next hne =>
      have hne' : id.toNat ≠ t.begun % 2 ^ 64 := fun heq =>
        hne (BitVec.eq_of_toNat_eq (heq.trans hnext.symm))
      omega

/-- Among fewer lookups than there are ids no id is given out twice. -/
theorem Numbered.begunAs_le (h : t.Numbered) (hfew : t.begun ≤ 2 ^ 64) (id : BitVec 64) :
    t.begunAs id ≤ 1 := by
  have hlt := id.isLt
  rw [h.begunAs]
  omega

theorem Numbered.begunAs_next (h : t.Numbered) (hfew : t.begun < 2 ^ 64) :
    t.begunAs t.nextId = 0 := by
  have hnext : t.nextId.toNat = t.begun % 2 ^ 64 := by rw [h.next, BitVec.toNat_ofNat]
  rw [h.begunAs]
  omega

/-! ## The counters -/

def succeededAct : LookupAction → Bool
  | .finalized _ succeeded => succeeded
  | _ => false

def failedAct : LookupAction → Bool
  | .finalized _ succeeded => !succeeded
  | _ => false

/-- The counters count the history, and every lookup that was initiated is active or was
finalized; `opening` lookups were begun and not yet initiated. -/
structure Tallied (opening : Nat) (t : RealLookupTracker) : Prop where
  initiated : t.initiated = t.history.countP fun a => a matches .initiated _
  succeeded : t.succeeded = t.history.countP succeededAct
  failed : t.failed = t.history.countP failedAct
  balanced : t.initiated + opening = t.succeeded + t.failed + t.active.count

variable {opening : Nat}

theorem Tallied.unsent (h : t.Tallied opening) (lookupId : Option (BitVec 64)) :
    (t.unsent lookupId).Tallied opening := by
  rw [RealLookupTracker.unsent]
  split
  · exact ⟨h.initiated, h.succeeded, h.failed, h.balanced⟩
  · exact h

theorem Tallied.attach (h : t.Tallied opening) (id : BitVec 64) :
    (t.attach id).Tallied opening := by
  have hcount : (t.attach id).active.count = t.active.count := by
    rw [RealLookupTracker.attach, AList.adjust]
    simp only
    split
    · next heq => exact AList.count_insert_of_some heq
    · rfl
  exact ⟨h.initiated, h.succeeded, h.failed, by rw [hcount]; exact h.balanced⟩

theorem Tallied.begin (h : t.Tallied opening) (hnew : t.active.lookup t.nextId = none) :
    t.begin.2.Tallied (opening + 1) where
  initiated := h.initiated.trans (by simp [RealLookupTracker.begin])
  succeeded := h.succeeded.trans (by simp [RealLookupTracker.begin, succeededAct])
  failed := h.failed.trans (by simp [RealLookupTracker.begin, failedAct])
  balanced := by
    have hcount : t.begin.2.active.count = t.active.count + 1 := AList.count_insert_of_none hnew
    have hbalanced := h.balanced
    rw [hcount]
    show t.initiated + (opening + 1) = t.succeeded + t.failed + _
    omega

theorem Tallied.started (h : t.Tallied (opening + 1)) {p : RealLookupProgress}
    (hactive : t.active.lookup id = some p) : (t.started id).Tallied opening := by
  have hbalanced := h.balanced
  rw [RealLookupTracker.started]
  split
  · refine ⟨?_, ?_, ?_, ?_⟩
    · simp [h.initiated]
    · simp [h.succeeded, succeededAct]
    · simp [h.failed, failedAct]
    · show t.initiated + 1 + opening = t.succeeded + t.failed + t.active.count
      omega
  · refine ⟨h.initiated, h.succeeded, h.failed, ?_⟩
    have hcount := AList.count_erase_of_some hactive
    show t.initiated + opening = t.succeeded + t.failed + (t.active.erase id).count
    omega

theorem Tallied.complete (h : t.Tallied opening) (id : BitVec 64) (foundPeers : Bool) :
    (t.complete id foundPeers).Tallied opening := by
  have hbalanced := h.balanced
  rw [RealLookupTracker.complete]
  split
  · exact h
  · next p hactive =>
    have hcount := AList.count_erase_of_some hactive
    simp only
    split
    · refine ⟨h.initiated, h.succeeded, h.failed, ?_⟩
      rw [AList.count_insert_of_some hactive]
      exact h.balanced
    · split
      · next hfound =>
        refine ⟨?_, ?_, ?_, ?_⟩
        · simp [h.initiated]
        · simp [h.succeeded, List.countP_cons, succeededAct, hfound]
        · simp [h.failed, failedAct, hfound]
        · show t.initiated + opening = t.succeeded + 1 + t.failed + (t.active.erase id).count
          omega
      · next hfound =>
        refine ⟨?_, ?_, ?_, ?_⟩
        · simp [h.initiated]
        · simp [h.succeeded, succeededAct, hfound]
        · simp [h.failed, failedAct, hfound]
        · show t.initiated + opening = t.succeeded + (t.failed + 1) + (t.active.erase id).count
          omega

end RealLookupTracker

end Btfind
