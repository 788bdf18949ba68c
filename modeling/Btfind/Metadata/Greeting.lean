import Btfind.Metadata.FetchRuns
import Btfind.Wire.ScannerLimits

/-!
# The handshakes

What a peer sends to complete both handshakes, and what a session that is open says.
-/

namespace Btfind

open Blocks FetchM

/-! ## Both handshakes -/

theorem readExtendedHandshake_frames (decode : Bytes → Except String BencodeValue)
    (frames : List Frame) (hskip : ∀ f ∈ frames, ∀ payload, f.message ≠ .extended 0 payload)
    {hello : Frame} {payload : Bytes} (hhello : hello.message = .extended 0 payload)
    {answer : ExtendedHandshake} (hanswer : ExtendedHandshake.fromBytes decode payload = some answer)
    (fuel : Nat) (hfuel : frames.length < fuel) (rest : Bytes) (w : List Bytes) :
    readExtendedHandshake decode fuel
        ⟨frames.flatMap Frame.bytes ++ (hello.bytes ++ rest), w⟩ = (.ok answer, ⟨rest, w⟩) := by
  induction frames generalizing fuel with
  | nil =>
    obtain ⟨fuel, rfl⟩ := Nat.exists_eq_succ_of_ne_zero (Nat.ne_zero_of_lt hfuel)
    rw [readExtendedHandshake, List.flatMap_nil, List.nil_append,
      FetchM.bind_of_ok (readNextFrame_frame hello _ _ _), hhello]
    simp only
    rw [if_pos trivial, hanswer]
    rfl
  | cons f frames ih =>
    obtain ⟨fuel, rfl⟩ := Nat.exists_eq_succ_of_ne_zero (Nat.ne_zero_of_lt hfuel)
    have hrest := ih (fun g hg => hskip g (List.mem_cons_of_mem _ hg)) fuel
      (Nat.lt_of_succ_lt_succ hfuel)
    have hf := hskip f List.mem_cons_self
    rw [readExtendedHandshake, List.flatMap_cons, List.append_assoc,
      FetchM.bind_of_ok (readNextFrame_frame f _ _ _)]
    cases hmessage : f.message with
    | extended id other =>
      have hid : id ≠ 0 := fun hid => hf other (hid ▸ hmessage)
      simp only
      rw [if_neg hid]
      exact hrest
    | _ => exact hrest

/-- What a peer sends to complete both handshakes and advertise a size. -/
structure Greeting (serde : Serde) (infoHash : InfoHash) (metadataSize : Nat) where
  peerId : BitVec 160
  reserved : Bytes
  reserved_length : reserved.length = 8
  extensions : reserved.getD 5 0 &&& 0x10 ≠ 0
  /-- The frames before the extended handshake. -/
  skipped : List Frame
  skipped_other : ∀ f ∈ skipped, ∀ payload, f.message ≠ .extended 0 payload
  hello : Frame
  payload : Bytes
  hello_message : hello.message = .extended 0 payload
  answer : ExtendedHandshake
  answer_parses : ExtendedHandshake.fromBytes serde.decode payload = some answer
  metadataId : UInt8
  metadataId_ne_zero : metadataId ≠ 0
  supported : answer.m.lookup "ut_metadata" = some metadataId.toNat
  advertised : answer.metadataSize = some metadataSize

variable {serde : Serde} {infoHash : InfoHash} {ourPeerId : BitVec 160} {maxMetadataSize : Nat}

def Greeting.bytes {size : Nat} (g : Greeting serde infoHash size) : Bytes :=
  Handshake.toBytes ⟨infoHash, g.peerId, g.reserved⟩ ++
    (g.skipped.flatMap Frame.bytes ++ g.hello.bytes)

theorem length_frames (frames : List Frame) :
    frames.length ≤ (frames.flatMap Frame.bytes).length := by
  induction frames with
  | nil => exact Nat.le_refl _
  | cons f frames ih =>
    rw [List.length_cons, List.flatMap_cons, List.length_append, Frame.bytes, List.length_append,
      length_toBeBytes]
    omega

/-- The session that a greeting settles. -/
def Greeting.session {size : Nat} (g : Greeting serde infoHash size) : Session :=
  ⟨g.metadataId, size, max 1 (min (g.answer.reqq.getD 1) 64)⟩

/-- A greeting opens its session. -/
theorem openSession_greeting {size : Nat} (g : Greeting serde infoHash size)
    (ourPeerId : BitVec 160) (hpos : 0 < size) (hmax : size ≤ maxMetadataSize) (rest : Bytes) :
    ∃ w, openSession serde infoHash ourPeerId maxMetadataSize ⟨g.bytes ++ rest, []⟩ =
      (.ok g.session, ⟨rest, w⟩) := by
  have hlen : (Handshake.toBytes ⟨infoHash, g.peerId, g.reserved⟩).length = handshakeLen :=
    Handshake.length_toBytes g.reserved_length
  have hextensions : (⟨infoHash, g.peerId, g.reserved⟩ : Handshake).supportsExtensions = true :=
    decide_eq_true g.extensions
  have hid : g.metadataId.toNat ≠ 0 := fun h => g.metadataId_ne_zero (UInt8.toNat_inj.mp h)
  have hsmall : ¬255 < g.metadataId.toNat := Nat.not_lt.mpr (Nat.le_of_lt_succ g.metadataId.toNat_lt)
  have hfuel : g.skipped.length <
      (g.skipped.flatMap Frame.bytes ++ (g.hello.bytes ++ rest)).length + 1 := by
    have hframes := length_frames g.skipped
    rw [List.length_append]
    omega
  have hread : ∀ w, withFuel (readExtendedHandshake serde.decode)
      ⟨g.skipped.flatMap Frame.bytes ++ (g.hello.bytes ++ rest), w⟩ =
        (.ok g.answer, ⟨rest, w⟩) :=
    readExtendedHandshake_frames serde.decode g.skipped g.skipped_other g.hello_message
      g.answer_parses _ hfuel rest
  refine ⟨?writes, ?opened⟩
  case opened =>
    unfold openSession Greeting.bytes
    rw [FetchM.bind_writeAll, List.append_assoc, FetchM.bind_of_ok (readExact_append hlen),
      Handshake.fromBytes_toBytes g.reserved_length, FetchM.bind_getOr_some]
    simp only
    rw [if_neg (not_not.mpr rfl), if_neg (by rw [hextensions]; decide), FetchM.bind_writeAll,
      List.append_assoc, FetchM.bind_of_ok (hread _), g.supported, FetchM.bind_getOr_some,
      if_neg hid, if_neg hsmall, g.advertised, FetchM.bind_getOr_some,
      if_neg (Nat.ne_of_gt hpos), if_neg (Nat.not_lt.mpr hmax), UInt8.ofNat_toNat]
    rfl

theorem getOr_ok {α : Type} {o : Option α} {e : MetadataFetchError} {a : α} {c c' : Conn}
    (h : getOr o e c = (.ok a, c')) : o = some a ∧ c' = c := by
  cases o with
  | none => cases h
  | some a =>
    cases h
    exact ⟨rfl, rfl⟩

/-- What an open session takes from the extended handshake of the peer. -/
structure Opened (s : Session) (hello : ExtendedHandshake) (maxMetadataSize : Nat) : Prop where
  size : hello.metadataSize = some s.metadataSize
  positive : 0 < s.metadataSize
  limit : s.metadataSize ≤ maxMetadataSize
  outstanding : s.maxOutstanding = max 1 (min (hello.reqq.getD 1) 64)

theorem openSession_hello {c c' : Conn} {s : Session}
    (h : openSession serde infoHash ourPeerId maxMetadataSize c = (.ok s, c')) :
    ∃ hello fuel c₁, readExtendedHandshake serde.decode fuel c₁ = (.ok hello, c') ∧
      Opened s hello maxMetadataSize := by
  unfold openSession at h
  obtain ⟨_, c₁, -, h⟩ := FetchM.bind_ok h
  obtain ⟨_, c₂, -, h⟩ := FetchM.bind_ok h
  obtain ⟨hs, c₃, -, h⟩ := FetchM.bind_ok h
  split at h
  · cases h
  · split at h
    · cases h
    · obtain ⟨_, c₄, -, h⟩ := FetchM.bind_ok h
      obtain ⟨hello, c₅, hhello, h⟩ := FetchM.bind_ok h
      obtain ⟨_, c₆, hid, hchecks⟩ := FetchM.bind_ok h
      obtain ⟨-, rfl⟩ := getOr_ok hid
      split at hchecks
      · cases hchecks
      · split at hchecks
        · cases hchecks
        · obtain ⟨size, c₇, hget, hlimits⟩ := FetchM.bind_ok hchecks
          obtain ⟨hsize, rfl⟩ := getOr_ok hget
          split at hlimits
          · cases hlimits
          · next hzero =>
            split at hlimits
            · cases hlimits
            · next hmax =>
              cases hlimits
              exact ⟨hello, _, c₄, hhello, hsize, Nat.pos_of_ne_zero hzero, Nat.not_lt.mp hmax, rfl⟩

/-- A session that is open has a size within the limit. -/
theorem openSession_ok {c c' : Conn} {s : Session}
    (h : openSession serde infoHash ourPeerId maxMetadataSize c = (.ok s, c')) :
    0 < s.metadataSize ∧ s.metadataSize ≤ maxMetadataSize := by
  obtain ⟨_, _, _, -, hopened⟩ := openSession_hello h
  exact ⟨hopened.positive, hopened.limit⟩

/-! ## A peer with two pieces of metadata -/

def plainSerde : Serde := ⟨BencodeValue.encode, BencodeValue.decode⟩

def twoPiecesHello : Bytes :=
  [20, 0] ++ asBytes "d1:md11:ut_metadatai3ee13:metadata_sizei16386e4:reqqi2ee"

/-- A block of zeros and two bytes. -/
def twoPieces : Bytes := List.replicate blockSize 0 ++ asBytes "de"

theorem length_twoPieces : twoPieces.length = 16386 := by
  rw [twoPieces, List.length_append, List.length_replicate]
  rfl

/-- The peer takes two requests at a time. -/
def twoPiecesGreeting : Greeting plainSerde 5 twoPieces.length where
  peerId := 6
  reserved := [0, 0, 0, 0, 0, 0x10, 0, 0x01]
  reserved_length := rfl
  extensions := by decide
  skipped := []
  skipped_other := by simp
  hello := ⟨twoPiecesHello, .extended 0 (twoPiecesHello.drop 2), by decide, rfl⟩
  payload := twoPiecesHello.drop 2
  hello_message := rfl
  answer := ⟨[("ut_metadata", 3)], some 16386, none, none, some 2⟩
  answer_parses := rfl
  metadataId := 3
  metadataId_ne_zero := by decide
  supported := rfl
  advertised := congrArg some length_twoPieces.symm

theorem twoPiecesGreeting_session : twoPiecesGreeting.session = ⟨3, 16386, 2⟩ :=
  congrArg (fun size => (⟨3, size, 2⟩ : Session)) length_twoPieces

def pieceHeader (i : Nat) : BencodeDict :=
  [(asBytes "msg_type", .int 1), (asBytes "piece", .int i), (asBytes "total_size", .int 16386)]

def piecePayload (i : Nat) : Bytes :=
  (BencodeValue.dict (pieceHeader i)).encode ++ block blockSize twoPieces i

theorem parse_piecePayload {i : Nat} (hi : i < 2) :
    parseMetadataResponse plainSerde.decode (piecePayload i) =
      some (.ok (i, 16386, block blockSize twoPieces i)) := by
  have hvalid : (BencodeValue.dict (pieceHeader i)).Valid := by
    refine .dict (by interval_cases i <;> decide) ?_
    simp only [pieceHeader, List.forall_mem_cons]
    exact ⟨.int (by decide), .int (by interval_cases i <;> decide), .int (by decide), nofun⟩
  have hlimits : (BencodeValue.dict (pieceHeader i)).WithinLimits := by
    interval_cases i <;> exact ⟨by decide, by decide, by decide⟩
  exact parseMetadataResponse_encode hvalid hlimits (by omega) (by decide) rfl rfl rfl
    (BencodeValue.decode_encode hvalid) _

theorem length_piecePayload_le {i : Nat} (hi : i < 2) : (piecePayload i).length + 2 ≤ maxFrameLen := by
  have hheader : (BencodeValue.dict (pieceHeader i)).encode.length = 45 := by
    interval_cases i <;> decide
  rw [piecePayload, List.length_append, length_block, hheader]
  unfold blockSize maxFrameLen
  omega

/-- The data message for a piece. -/
def pieceFrame (i : Fin 2) : Frame where
  body := 20 :: localMetadataId :: piecePayload i
  message := .extended localMetadataId (piecePayload i)
  small := length_piecePayload_le i.isLt
  parses := rfl

def idleFrame : Frame := ⟨[], .keepAlive, by decide, rfl⟩

end Btfind
