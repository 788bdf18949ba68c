import Mathlib.Data.List.Induction
import Btfind.Bencode.Text
import Btfind.Wire.Messages

/-!
# The wire codec

Every message and every handshake is read back from its bytes, whatever follows them, and
the decoder of one frame agrees with the decoder of a slice.
-/

namespace Btfind

/-! ## Big-endian numbers -/

theorem length_toBeBytes (size n : Nat) : (toBeBytes size n).length = size := by
  induction size generalizing n with
  | zero => rfl
  | succ size ih => rw [toBeBytes, List.length_append, ih, List.length_singleton]

theorem ofBeBytes_toBeBytes {size n : Nat} (h : n < 256 ^ size) :
    ofBeBytes (toBeBytes size n) = n := by
  induction size generalizing n with
  | zero =>
    rw [pow_zero, Nat.lt_one_iff] at h
    rw [h]
    rfl
  | succ size ih =>
    have hhead := ih (n := n / 256) (by rw [pow_succ] at h; omega)
    unfold ofBeBytes at hhead ⊢
    rw [toBeBytes, List.foldl_append, hhead, List.foldl_cons, List.foldl_nil,
      toNat_ofNat_byte (Nat.mod_lt _ (by decide))]
    omega

theorem toBeBytes_inj {size m n : Nat} (hm : m < 256 ^ size) (hn : n < 256 ^ size) :
    toBeBytes size m = toBeBytes size n ↔ m = n := by
  refine ⟨fun h => ?_, fun h => by rw [h]⟩
  rw [← ofBeBytes_toBeBytes hm, h, ofBeBytes_toBeBytes hn]

theorem toBeBytes_ofBeBytes (b : Bytes) : toBeBytes b.length (ofBeBytes b) = b := by
  induction b using List.reverseRecOn with
  | nil => rfl
  | append_singleton b x ih =>
    have hx : x.toNat < 256 := x.toNat_lt
    have hread : ofBeBytes (b ++ [x]) = ofBeBytes b * 256 + x.toNat := List.foldl_concat ..
    have hhead : (ofBeBytes b * 256 + x.toNat) / 256 = ofBeBytes b := by omega
    have hlast : (ofBeBytes b * 256 + x.toNat) % 256 = x.toNat := by omega
    rw [hread, List.length_append, List.length_singleton, toBeBytes, hhead, hlast, ih,
      UInt8.ofNat_toNat]

theorem ofBeBytes_lt (b : Bytes) : ofBeBytes b < 256 ^ b.length := by
  induction b using List.reverseRecOn with
  | nil => exact Nat.one_pos
  | append_singleton b x ih =>
    have hx : x.toNat < 256 := x.toNat_lt
    have hread : ofBeBytes (b ++ [x]) = ofBeBytes b * 256 + x.toNat := List.foldl_concat ..
    rw [hread, List.length_append, List.length_singleton, Nat.pow_succ]
    omega

theorem append_singleton_lt {xs ys : Bytes} {x y : UInt8} (h : xs.length = ys.length) :
    xs ++ [x] < ys ++ [y] ↔ xs < ys ∨ xs = ys ∧ x < y := by
  induction xs generalizing ys with
  | nil =>
    rw [List.length_nil, eq_comm, List.length_eq_zero_iff] at h
    subst h
    simp [List.cons_lt_cons_iff]
  | cons a xs ih =>
    cases ys with
    | nil => cases h
    | cons b ys =>
      rw [List.cons_append, List.cons_append, List.cons_lt_cons_iff, List.cons_lt_cons_iff,
        ih (Nat.succ.inj h), List.cons.injEq]
      by_cases hab : a = b
      · subst hab
        simp
      · simp [hab]

/-- Bytes in big-endian order compare like the numbers. -/
theorem toBeBytes_lt {size m n : Nat} (hm : m < 256 ^ size) (hn : n < 256 ^ size) :
    toBeBytes size m < toBeBytes size n ↔ m < n := by
  induction size generalizing m n with
  | zero =>
    rw [Nat.pow_zero, Nat.lt_one_iff] at hm hn
    simp [hm, hn]
  | succ size ih =>
    rw [Nat.pow_succ] at hm hn
    have hm' : m / 256 < 256 ^ size := Nat.div_lt_of_lt_mul (Nat.mul_comm _ _ ▸ hm)
    have hn' : n / 256 < 256 ^ size := Nat.div_lt_of_lt_mul (Nat.mul_comm _ _ ▸ hn)
    rw [toBeBytes, toBeBytes, append_singleton_lt (by rw [length_toBeBytes, length_toBeBytes]),
      ih hm' hn', toBeBytes_inj hm' hn', UInt8.lt_iff_toNat_lt, UInt8.toNat_ofNat',
      UInt8.toNat_ofNat']
    omega

theorem toBeBytes_xor (size m n : Nat) :
    List.zipWith (· ^^^ ·) (toBeBytes size m) (toBeBytes size n) = toBeBytes size (m ^^^ n) := by
  induction size generalizing m n with
  | zero => rfl
  | succ size ih =>
    have hbyte : 256 = 2 ^ 8 := rfl
    rw [toBeBytes, toBeBytes, toBeBytes,
      List.zipWith_append (by rw [length_toBeBytes, length_toBeBytes]), ih, hbyte,
      Nat.xor_div_two_pow, Nat.xor_mod_two_pow, UInt8.ofNat_xor]
    rfl

theorem length_idToBytes (id : BitVec 160) : (idToBytes id).length = 20 := length_toBeBytes 20 _

theorem idOfBytes_idToBytes (id : BitVec 160) : idOfBytes (idToBytes id) = id := by
  unfold idOfBytes idToBytes
  rw [ofBeBytes_toBeBytes (by have := id.isLt; omega), BitVec.ofNat_toNat, BitVec.setWidth_eq]

theorem idToBytes_idOfBytes {b : Bytes} (h : b.length = 20) : idToBytes (idOfBytes b) = b := by
  have hpow : 256 ^ 20 = 2 ^ 160 := by norm_num
  have hlt : ofBeBytes b < 2 ^ 160 := by
    rw [← hpow, ← h]
    exact ofBeBytes_lt b
  rw [idToBytes, idOfBytes, BitVec.toNat_ofNat, Nat.mod_eq_of_lt hlt, ← h]
  exact toBeBytes_ofBeBytes b

/-- A field of a record of fields with fixed lengths. -/
theorem field_of_append {before field after : Bytes} {offset size : Nat}
    (hbefore : before.length = offset) (hfield : field.length = size) :
    ((before ++ (field ++ after)).drop offset).take size = field := by
  subst hbefore hfield
  rw [List.drop_left, List.take_left]

/-! ## The handshake -/

namespace Handshake

theorem length_toBytes {h : Handshake} (hreserved : h.reserved.length = 8) :
    h.toBytes.length = handshakeLen := by
  rw [Handshake.toBytes]
  rw [List.length_cons, List.length_append, List.length_append, List.length_append,
    length_idToBytes, length_idToBytes, hreserved]
  decide

/-- Bytes after the handshake are not read. -/
theorem fromBytes_append {h : Handshake} (hreserved : h.reserved.length = 8) (after : Bytes) :
    Handshake.fromBytes (h.toBytes ++ after) = some h := by
  have hprotocol : btProtocol.length = 19 := by decide
  have hinfo := length_idToBytes h.infoHash
  have hpeer := length_idToBytes h.peerId
  have hlength : handshakeLen ≤ (h.toBytes ++ after).length := by
    rw [List.length_append, length_toBytes hreserved]
    exact Nat.le_add_right _ _
  have hbytes : h.toBytes ++ after = [19] ++ (btProtocol ++ (h.reserved ++
      (idToBytes h.infoHash ++ (idToBytes h.peerId ++ after)))) := by
    simp only [Handshake.toBytes, hprotocol, List.append_assoc, List.cons_append]
    rfl
  have hname : ((h.toBytes ++ after).drop 1).take 19 = btProtocol := by
    rw [hbytes]
    exact field_of_append rfl hprotocol
  have hflags : ((h.toBytes ++ after).drop 20).take 8 = h.reserved := by
    rw [hbytes, ← List.append_assoc]
    exact field_of_append (by rw [List.length_append, hprotocol]; rfl) hreserved
  have hhash : ((h.toBytes ++ after).drop 28).take 20 = idToBytes h.infoHash := by
    rw [hbytes, ← List.append_assoc, ← List.append_assoc]
    refine field_of_append ?_ hinfo
    rw [List.length_append, List.length_append, hprotocol, hreserved]
    rfl
  have hid : ((h.toBytes ++ after).drop 48).take 20 = idToBytes h.peerId := by
    rw [hbytes, ← List.append_assoc, ← List.append_assoc, ← List.append_assoc]
    refine field_of_append ?_ hpeer
    rw [List.length_append, List.length_append, List.length_append, hprotocol, hreserved, hinfo]
    rfl
  have hhead : (h.toBytes ++ after).head? = some 19 := by
    rw [hbytes]
    rfl
  rw [Handshake.fromBytes]
  rw [if_neg (Nat.not_lt.mpr hlength), if_neg (by rw [hhead, hname]; simp), hhash, hid, hflags,
    idOfBytes_idToBytes, idOfBytes_idToBytes]

theorem fromBytes_toBytes {h : Handshake} (hreserved : h.reserved.length = 8) :
    Handshake.fromBytes h.toBytes = some h := by
  have hread := fromBytes_append hreserved []
  rwa [List.append_nil] at hread

theorem fromBytes_of_short {data : Bytes} (h : data.length < handshakeLen) :
    Handshake.fromBytes data = none := if_pos h

/-- Whatever is accepted starts with the length of the protocol string and the string. -/
theorem prefix_of_fromBytes {data : Bytes} {h : Handshake}
    (hread : Handshake.fromBytes data = some h) : 19 :: btProtocol <+: data := by
  rw [Handshake.fromBytes] at hread
  split at hread
  · cases hread
  · split at hread
    · cases hread
    · next hstart =>
      rw [not_or, not_not, not_not] at hstart
      obtain ⟨hhead, hname⟩ := hstart
      cases data with
      | nil => cases hhead
      | cons first rest =>
        obtain rfl : first = 19 := Option.some.inj hhead
        rw [List.drop_succ_cons, List.drop_zero] at hname
        rw [← hname, List.cons_prefix_cons]
        exact ⟨rfl, List.take_prefix 19 rest⟩

end Handshake

/-! ## Messages -/

namespace WireMessage

/-- The numbers of a message fit their machine integers. -/
def Typed : WireMessage → Prop
  | .have index => index < 2 ^ 32
  | .request index begin length => index < 2 ^ 32 ∧ begin < 2 ^ 32 ∧ length < 2 ^ 32
  | .piece index begin _ => index < 2 ^ 32 ∧ begin < 2 ^ 32
  | .cancel index begin length => index < 2 ^ 32 ∧ begin < 2 ^ 32 ∧ length < 2 ^ 32
  | .port number => number < 2 ^ 16
  | _ => True

instance : DecidablePred Typed
  | .keepAlive | .choke | .unchoke | .interested | .notInterested | .bitfield _
  | .extended _ _ => isTrue trivial
  | .have _ | .port _ => inferInstanceAs (Decidable (_ < _))
  | .request _ _ _ | .cancel _ _ _ => inferInstanceAs (Decidable (_ ∧ _ ∧ _))
  | .piece _ _ _ => inferInstanceAs (Decidable (_ ∧ _))

theorem u32At_append {before after : Bytes} {offset n : Nat} (hbefore : before.length = offset)
    (hn : n < 2 ^ 32) : u32At (before ++ (toBeBytes 4 n ++ after)) offset = n := by
  rw [u32At, field_of_append hbefore (length_toBeBytes 4 n), ofBeBytes_toBeBytes]
  exact hn

theorem u32At_head {after : Bytes} {n : Nat} (hn : n < 2 ^ 32) :
    u32At (toBeBytes 4 n ++ after) 0 = n :=
  show u32At ([] ++ (toBeBytes 4 n ++ after)) 0 = n from u32At_append rfl hn

/-- Three numbers of 32 bits, one after the other. -/
theorem u32At_three {index begin length : Nat} (hindex : index < 2 ^ 32) (hbegin : begin < 2 ^ 32)
    (hlength : length < 2 ^ 32) :
    12 ≤ (toBeBytes 4 index ++ toBeBytes 4 begin ++ toBeBytes 4 length).length ∧
      u32At (toBeBytes 4 index ++ toBeBytes 4 begin ++ toBeBytes 4 length) 0 = index ∧
      u32At (toBeBytes 4 index ++ toBeBytes 4 begin ++ toBeBytes 4 length) 4 = begin ∧
      u32At (toBeBytes 4 index ++ toBeBytes 4 begin ++ toBeBytes 4 length) 8 = length := by
  refine ⟨?_, ?_, ?_, ?_⟩
  · rw [List.length_append, List.length_append, length_toBeBytes, length_toBeBytes,
      length_toBeBytes]
  · rw [List.append_assoc]
    exact u32At_head hindex
  · rw [List.append_assoc]
    exact u32At_append (length_toBeBytes 4 index) hbegin
  · have height : (toBeBytes 4 index ++ toBeBytes 4 begin).length = 8 := by
      rw [List.length_append, length_toBeBytes, length_toBeBytes]
    have hread : u32At (toBeBytes 4 index ++ toBeBytes 4 begin ++ (toBeBytes 4 length ++ [])) 8 =
        length := u32At_append height hlength
    rwa [List.append_nil] at hread

theorem fromPayload_toPayload {m : WireMessage} (htyped : m.Typed) :
    fromPayload m.toPayload = some m := by
  cases m with
  | keepAlive | choke | unchoke | interested | notInterested | bitfield | extended => rfl
  | «have» index =>
    have hread : u32At (toBeBytes 4 index ++ []) 0 = index :=
      u32At_head htyped
    rw [List.append_nil] at hread
    simp [toPayload, fromPayload, hread, length_toBeBytes]
  | request index begin length =>
    obtain ⟨hlong, hindex, hbegin, hlength⟩ := u32At_three htyped.1 htyped.2.1 htyped.2.2
    simp [-List.append_assoc, -List.length_append, toPayload, fromPayload, hlong, hindex, hbegin,
      hlength]
  | piece index begin block =>
    have hindex : u32At (toBeBytes 4 index ++ (toBeBytes 4 begin ++ block)) 0 = index :=
      u32At_head htyped.1
    have hbegin : u32At (toBeBytes 4 index ++ (toBeBytes 4 begin ++ block)) 4 = begin :=
      u32At_append (length_toBeBytes 4 index) htyped.2
    have hblock : (toBeBytes 4 index ++ (toBeBytes 4 begin ++ block)).drop 8 = block := by
      rw [← List.append_assoc]
      apply List.drop_left'
      rw [List.length_append, length_toBeBytes, length_toBeBytes]
    simp [toPayload, fromPayload, hindex, hbegin, hblock, length_toBeBytes]
    omega
  | cancel index begin length =>
    obtain ⟨hlong, hindex, hbegin, hlength⟩ := u32At_three htyped.1 htyped.2.1 htyped.2.2
    simp [-List.append_assoc, -List.length_append, toPayload, fromPayload, hlong, hindex, hbegin,
      hlength]
  | port number =>
    have hread : ofBeBytes ((toBeBytes 2 number).take 2) = number := by
      rw [List.take_of_length_le (le_of_eq (length_toBeBytes 2 number)), ofBeBytes_toBeBytes]
      exact htyped
    simp [toPayload, fromPayload, hread, length_toBeBytes]

/-- The decoder of one frame is the decoder of a slice after the length of the frame. -/
theorem fromBytes_eq_fromBytesFrame {len : Nat} (hlen : len < 2 ^ 32) (body : Bytes) :
    fromBytes (toBeBytes 4 len ++ body) = fromBytesFrame len body := by
  have hheader : (toBeBytes 4 len).length = 4 := length_toBeBytes 4 len
  have htake : (toBeBytes 4 len ++ body).take 4 = toBeBytes 4 len := List.take_left' hheader
  have hdrop : (toBeBytes 4 len ++ body).drop 4 = body := List.drop_left' hheader
  have hlength : ofBeBytes (toBeBytes 4 len) = len := ofBeBytes_toBeBytes hlen
  rw [fromBytes, fromBytesFrame, htake, hdrop, hlength, List.length_append, hheader,
    if_neg (Nat.not_lt.mpr (Nat.le_add_right 4 _))]
  simp only [Nat.add_lt_add_iff_left]

theorem fromBytesFrame_toPayload {m : WireMessage} (htyped : m.Typed) (after : Bytes) :
    fromBytesFrame m.toPayload.length (m.toPayload ++ after) = some m := by
  have hread := fromPayload_toPayload htyped
  rw [fromBytesFrame]
  by_cases hempty : m.toPayload = []
  · -- Only a keep-alive has no payload, and both decoders read it from the length alone.
    rw [hempty] at hread ⊢
    rw [← Option.some.inj hread]
    rfl
  · rw [if_neg (mt List.length_eq_zero_iff.mp hempty), if_neg, List.take_left, hread]
    rw [List.length_append]
    exact Nat.not_lt.mpr (Nat.le_add_right _ _)

theorem fromBytes_toBytes_append {m : WireMessage} (htyped : m.Typed)
    (hsmall : m.toPayload.length < 2 ^ 32) (after : Bytes) :
    fromBytes (m.toBytes ++ after) = some m := by
  rw [toBytes, List.append_assoc, fromBytes_eq_fromBytesFrame hsmall,
    fromBytesFrame_toPayload htyped]

end WireMessage

/-! ## Both codecs -/

theorem wire_codec :
    (∀ m : WireMessage, m.Typed → m.toPayload.length < 2 ^ 32 →
      ∀ after, WireMessage.fromBytes (m.toBytes ++ after) = some m) ∧
    (∀ len, len < 2 ^ 32 → ∀ body,
      WireMessage.fromBytesFrame len body = WireMessage.fromBytes (toBeBytes 4 len ++ body)) ∧
    (∀ h : Handshake, h.reserved.length = 8 →
      ∀ after, Handshake.fromBytes (h.toBytes ++ after) = some h) ∧
    ∀ data : Bytes, data.length < 68 ∨ ¬ 19 :: btProtocol <+: data →
      Handshake.fromBytes data = none := by
  refine ⟨?_, ?_, ?_, ?_⟩
  · intro m htyped hsmall after
    exact WireMessage.fromBytes_toBytes_append htyped hsmall after
  · intro len hlen body
    exact (WireMessage.fromBytes_eq_fromBytesFrame hlen body).symm
  · intro h hreserved after
    exact Handshake.fromBytes_append hreserved after
  · rintro data (hshort | hstart)
    · exact Handshake.fromBytes_of_short hshort
    · cases hread : Handshake.fromBytes data with
      | none => rfl
      | some h => exact absurd (Handshake.prefix_of_fromBytes hread) hstart

/-- A request followed by two bytes, a frame that announces three bytes, our own handshake
and an empty stream. -/
theorem wire_codec_example :
    WireMessage.fromBytes ((WireMessage.request 1 16384 255).toBytes ++ [7, 7]) =
      some (.request 1 16384 255) ∧
    WireMessage.fromBytesFrame 3 [9, 26, 225] =
      WireMessage.fromBytes (toBeBytes 4 3 ++ [9, 26, 225]) ∧
    Handshake.fromBytes ((Handshake.new 5 9).toBytes ++ [0]) = some (Handshake.new 5 9) ∧
    Handshake.fromBytes [] = none := by
  obtain ⟨hmessage, hframe, hhandshake, hother⟩ := wire_codec
  exact ⟨hmessage (.request 1 16384 255) (by decide) (by decide) [7, 7],
    hframe 3 (by decide) [9, 26, 225], hhandshake (Handshake.new 5 9) rfl [0],
    hother [] (.inl (by decide))⟩

end Btfind
