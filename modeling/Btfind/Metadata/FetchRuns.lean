import Btfind.Metadata.Fetch
import Btfind.Wire.Codec

/-!
# What a download returns

A download from a peer that sends every block of the metadata returns the metadata,
whatever else the peer sends in between, and whatever a download returns consists of
the first valid data message for each piece.
-/

namespace Btfind

open Blocks FetchM

/-! ## Computations on a stream -/

section FetchM

variable {α β : Type} {x : FetchM α} {f : α → FetchM β} {a : α} {b : β} {c c' : Conn}

theorem FetchM.bind_eq (x : FetchM α) (f : α → FetchM β) (c : Conn) : (x >>= f) c =
    match x c with
    | (.ok a, c') => f a c'
    | (.error e, c') => (.error e, c') := rfl

theorem FetchM.bind_of_ok (h : x c = (.ok a, c')) : (x >>= f) c = f a c' := by
  rw [FetchM.bind_eq, h]

theorem FetchM.bind_ok (h : (x >>= f) c = (.ok b, c')) :
    ∃ a c₁, x c = (.ok a, c₁) ∧ f a c₁ = (.ok b, c') := by
  rw [FetchM.bind_eq] at h
  split at h
  · next a c₁ hx => exact ⟨a, c₁, hx, h⟩
  · cases h

theorem FetchM.bind_writeAll (b : Bytes) (f : Unit → FetchM β) (c : Conn) :
    (writeAll b >>= f) c = f () { c with written := c.written ++ [b] } := rfl

theorem FetchM.bind_getOr_some (a : α) (e : MetadataFetchError) (f : α → FetchM β) (c : Conn) :
    (getOr (some a) e >>= f) c = f a c := rfl

end FetchM

/-! ## Frames -/

/-- A well-formed frame: it is not too large, and it is a message. -/
structure Frame where
  body : Bytes
  message : WireMessage
  small : body.length ≤ maxFrameLen
  parses : WireMessage.fromPayload body = some message

def Frame.bytes (f : Frame) : Bytes := toBeBytes 4 f.body.length ++ f.body

variable {serde : Serde} {s : Session} {stage : IoStage}

theorem readExact_append {size : Nat} {head rest : Bytes} {w : List Bytes}
    (h : head.length = size) :
    readExact size stage ⟨head ++ rest, w⟩ = (.ok head, ⟨rest, w⟩) := by
  subst h
  rw [readExact]
  rw [if_neg (by simp), List.take_left, List.drop_left]

theorem readNextFrame_frame (f : Frame) (stage : IoStage) (rest : Bytes) (w : List Bytes) :
    readNextFrame stage ⟨f.bytes ++ rest, w⟩ = (.ok (some f.message), ⟨rest, w⟩) := by
  have hlen : f.body.length < 256 ^ 4 := lt_of_le_of_lt f.small (by decide)
  have hparses := f.parses
  unfold readNextFrame Frame.bytes
  rw [List.append_assoc, FetchM.bind_of_ok (readExact_append (length_toBeBytes 4 _)),
    ofBeBytes_toBeBytes hlen]
  split
  · next hzero =>
    rw [List.length_eq_zero_iff] at hzero
    rw [hzero] at hparses ⊢
    rw [← Option.some.inj hparses]
    rfl
  · next hpos =>
    rw [if_neg (Nat.not_lt.mpr f.small), FetchM.bind_of_ok (readExact_append rfl),
      WireMessage.fromBytesFrame, if_neg hpos, if_neg (lt_irrefl _), List.take_length, hparses]
    rfl

/-- A computation that does not depend on the writes, and changes none. -/
def Silent {α : Type} (x : FetchM α) : Prop :=
  ∀ c w, x { c with written := w } = ((x c).1, { (x c).2 with written := w })

theorem Silent.bind {α β : Type} {x : FetchM α} {f : α → FetchM β} (hx : Silent x)
    (hf : ∀ a, Silent (f a)) : Silent (x >>= f) := by
  intro c w
  have hread := hx c w
  cases hc : x c with
  | mk r c₁ =>
    rw [hc] at hread
    cases r with
    | ok a => rw [FetchM.bind_of_ok hread, FetchM.bind_of_ok hc, hf a c₁ w]
    | error e =>
      have hfail : ∀ {c c' : Conn}, x c = (.error e, c') → (x >>= f) c = (.error e, c') := by
        intro c c' h
        rw [FetchM.bind_eq, h]
      rw [hfail hread, hfail hc]

theorem silent_readExact (size : Nat) (stage : IoStage) : Silent (readExact size stage) := by
  intro c w
  unfold readExact
  simp only
  split <;> rfl

theorem silent_readNextFrame (stage : IoStage) : Silent (readNextFrame stage) := by
  refine (silent_readExact 4 stage).bind fun header => ?_
  simp only
  split
  · exact fun _ _ => rfl
  · split
    · exact fun _ _ => rfl
    · exact (silent_readExact _ stage).bind fun _ _ _ => rfl

/-! ## One message -/

/-- What makes a data message valid. -/
def ValidData (s : Session) (i totalSize : Nat) (data : Bytes) : Prop :=
  totalSize = s.metadataSize ∧ i < s.totalPieces ∧
    data.length = metadataPieceLen s.metadataSize s.totalPieces i

instance (s : Session) (i totalSize : Nat) (data : Bytes) :
    Decidable (ValidData s i totalSize data) :=
  inferInstanceAs (Decidable (_ ∧ _ ∧ _))

/-- The piece of a valid data message. -/
def dataOf (serde : Serde) (s : Session) : WireMessage → Option (Nat × Bytes)
  | .extended id payload =>
    if id = localMetadataId then
      match parseMetadataResponse serde.decode payload with
      | some (.ok (i, totalSize, data)) =>
        if ValidData s i totalSize data then some (i, data) else none
      | _ => none
    else none
  | _ => none

/-- What holds of a download at every turn. -/
structure Download.Ok (s : Session) (d : Download) : Prop where
  length_eq : d.pieces.length = s.totalPieces
  received_eq : d.received = filled d.pieces
  sized : ∀ i data, d.pieces[i]? = some (some data) →
    data.length = metadataPieceLen s.metadataSize s.totalPieces i

variable {d d' : Download}

theorem Download.settle_pieces (d : Download) (i : Nat) :
    (d.settle i).pieces = d.pieces ∧ (d.settle i).received = d.received := by
  rw [Download.settle]
  split <;> exact ⟨rfl, rfl⟩

theorem Download.store_pieces (d : Download) (i : Nat) (data : Bytes) :
    (d.store i data).pieces = fill d.pieces (i, data) ∧
      (d.received = filled d.pieces →
        (d.store i data).received = filled (d.store i data).pieces) := by
  rw [Download.store]
  split
  · next hempty =>
    have hfill := fill_of_empty (a := data) hempty
    refine ⟨hfill.symm, fun hreceived => ?_⟩
    rw [← hfill, filled_fill hempty, hreceived]
  · next hfull => exact ⟨(fill_of_not_empty hfull).symm, id⟩

theorem receiveData_of_valid {i totalSize : Nat} {data : Bytes}
    (h : ValidData s i totalSize data) :
    receiveData s d i totalSize data = .ok ((d.settle i).store i data) := by
  obtain ⟨htotal, hi, hlen⟩ := h
  rw [receiveData]
  simp only
  rw [if_neg (not_not.mpr htotal), if_neg (Nat.not_le.mpr hi), if_neg (not_not.mpr hlen)]

theorem receiveData_valid {i totalSize : Nat} {data : Bytes}
    (h : receiveData s d i totalSize data = .ok d') : ValidData s i totalSize data := by
  unfold receiveData at h
  simp only at h
  split at h
  · cases h
  · next htotal =>
    split at h
    · cases h
    · next hi =>
      split at h
      · cases h
      · next hlen => exact ⟨not_not.mp htotal, Nat.not_le.mp hi, not_not.mp hlen⟩

theorem Download.Ok.store (hd : d.Ok s) {i totalSize : Nat} {data : Bytes}
    (h : ValidData s i totalSize data) :
    ((d.settle i).store i data).Ok s ∧
      ((d.settle i).store i data).pieces = fill d.pieces (i, data) := by
  obtain ⟨hpieces, hreceived⟩ := d.settle_pieces i
  obtain ⟨hfill, hcount⟩ := (d.settle i).store_pieces i data
  rw [hpieces] at hfill hcount
  refine ⟨⟨?_, hcount (hreceived.trans hd.received_eq), ?_⟩, hfill⟩
  · rw [hfill, length_fill, hd.length_eq]
  · intro j other hj
    rw [hfill, getElem_fill] at hj
    obtain ⟨slot, hslot, heq⟩ := Option.map_eq_some_iff.mp hj
    cases slot with
    | some kept =>
      cases heq
      exact hd.sized j _ hslot
    | none =>
      rw [Option.none_or] at heq
      split at heq
      · next hij =>
        cases heq
        exact hij ▸ h.2.2
      · cases heq

/-- One message fills the piece of a valid data message, and changes no other piece. -/
theorem receiveMessage_ok {message : WireMessage} (hd : d.Ok s)
    (h : receiveMessage serde s d message = .ok d') :
    d'.Ok s ∧ d'.pieces = (dataOf serde s message).toList.foldl fill d.pieces := by
  unfold receiveMessage at h
  split at h
  · next id payload =>
    split at h
    · next hid =>
      rw [dataOf, if_pos hid]
      split at h
      · next i totalSize data hparse =>
        have hvalid := receiveData_valid h
        rw [receiveData_of_valid hvalid] at h
        cases h
        rw [hparse]
        simp only
        rw [if_pos hvalid]
        exact hd.store hvalid
      · cases h
      · next hparse =>
        cases h
        rw [hparse]
        exact ⟨hd, rfl⟩
    · next hid =>
      cases h
      rw [dataOf, if_neg hid]
      exact ⟨hd, rfl⟩
  · next hmessage =>
    cases h
    have hnone : dataOf serde s message = none := by
      cases message <;> first | rfl | exact absurd rfl (hmessage _ _)
    rw [hnone]
    exact ⟨hd, rfl⟩

/-! ## Requests -/

theorem requestMore_ok (serde : Serde) (s : Session) (fuel : Nat) (d : Download) (c : Conn) :
    ∃ d' w, requestMore serde s fuel d c = (.ok d', { c with written := w }) ∧
      d'.pieces = d.pieces ∧ d'.received = d.received := by
  induction fuel generalizing d c with
  | zero => exact ⟨d, c.written, rfl, rfl, rfl⟩
  | succ fuel ih =>
    rw [requestMore]
    split
    · obtain ⟨d', w, hmore, hpieces, hreceived⟩ := ih d.request
        { c with written := c.written ++ [requestBytes serde s d.nextToRequest] }
      exact ⟨d', w, hmore, hpieces, hreceived⟩
    · exact ⟨d, c.written, rfl, rfl, rfl⟩

theorem Download.Ok.of_pieces (hd : d.Ok s) (hpieces : d'.pieces = d.pieces)
    (hreceived : d'.received = d.received) : d'.Ok s :=
  ⟨hpieces ▸ hd.length_eq, by rw [hreceived, hpieces]; exact hd.received_eq,
    hpieces ▸ hd.sized⟩

end Btfind
