import Btfind.Dht.Packets
import Btfind.Wire.Codec

/-!
# The compact forms

A node is 26 bytes and a peer is 6 bytes, one record after the other. The decoders drop what is
not a public endpoint, and nothing else; a list of strings says the same as one string.
-/

namespace Btfind

open Blocks

/-! ## Addresses -/

theorem length_addrToBytes (addr : SocketAddrV4) : (addrToBytes addr).length = 6 := by
  rw [addrToBytes, List.length_append, length_toBeBytes]
  rfl

theorem addrOfBytes_addrToBytes (addr : SocketAddrV4) : addrOfBytes (addrToBytes addr) = addr := by
  obtain ⟨⟨a, b, c, d⟩, port⟩ := addr
  have hport : port.toNat < 256 ^ 2 := port.toNat_lt
  have hdrop : (addrToBytes ⟨⟨a, b, c, d⟩, port⟩).drop 4 = toBeBytes 2 port.toNat := rfl
  rw [addrOfBytes, hdrop, ofBeBytes_toBeBytes hport, UInt16.ofNat_toNat]
  rfl

theorem addrToBytes_addrOfBytes {b : Bytes} (h : b.length = 6) :
    addrToBytes (addrOfBytes b) = b := by
  have hport : (b.drop 4).length = 2 := by rw [List.length_drop, h]
  have hlt : ofBeBytes (b.drop 4) < 2 ^ 16 := by
    have hpow : ofBeBytes (b.drop 4) < 256 ^ (b.drop 4).length := ofBeBytes_lt _
    rw [hport] at hpow
    exact hpow
  have hoctets : (addrOfBytes b).ip.octets = b.take 4 := by
    match b, h with
    | [_, _, _, _, _, _], _ => rfl
  rw [addrToBytes, hoctets, addrOfBytes, UInt16.toNat_ofNat', Nat.mod_eq_of_lt hlt]
  conv_lhs => rw [← hport, toBeBytes_ofBeBytes, List.take_append_drop]

/-! ## Records -/

/-- The record of a node in `encode_compact_nodes`. -/
def encodeNode (node : NodeContact) : Bytes := idToBytes node.id ++ addrToBytes node.addr

theorem length_encodeNode (node : NodeContact) : (encodeNode node).length = nodeIdLen + 6 := by
  rw [encodeNode, List.length_append, length_idToBytes, length_addrToBytes]
  rfl

theorem decodeNode_encodeNode (node : NodeContact) :
    decodeNode (encodeNode node) = if isPublicEndpoint node.addr then some node else none := by
  have hid : (encodeNode node).take nodeIdLen = idToBytes node.id :=
    List.take_left' (length_idToBytes node.id)
  have haddr : (encodeNode node).drop nodeIdLen = addrToBytes node.addr :=
    List.drop_left' (length_idToBytes node.id)
  simp only [decodeNode, hid, haddr, idOfBytes_idToBytes, addrOfBytes_addrToBytes]

theorem encodeNode_of_decodeNode {b : Bytes} {node : NodeContact} (hb : b.length = nodeIdLen + 6)
    (h : decodeNode b = some node) : encodeNode node = b := by
  have hid : (b.take nodeIdLen).length = 20 := by
    rw [List.length_take, hb]
    rfl
  have haddr : (b.drop nodeIdLen).length = 6 := by
    rw [List.length_drop, hb]
    rfl
  simp only [decodeNode] at h
  split at h
  · cases h
    rw [encodeNode, idToBytes_idOfBytes hid, addrToBytes_addrOfBytes haddr, List.take_append_drop]
  · cases h

theorem isSome_decodeNode {b : Bytes} :
    (decodeNode b).isSome = isPublicEndpoint (addrOfBytes (b.drop nodeIdLen)) := by
  simp only [decodeNode]
  split
  · next hpublic => exact hpublic.symm
  · next hprivate => exact (Bool.eq_false_iff.mpr hprivate).symm

theorem length_encodeCompactPeer (peer : PeerContact) : (encodeCompactPeer peer).length = 6 :=
  length_addrToBytes peer.addr

theorem decodePeer_encodeCompactPeer (peer : PeerContact) :
    decodePeer (encodeCompactPeer peer) =
      if isPublicEndpoint peer.addr then some peer else none := by
  simp only [decodePeer, encodeCompactPeer, addrOfBytes_addrToBytes]

theorem encodeCompactPeer_of_decodePeer {b : Bytes} {peer : PeerContact} (hb : b.length = 6)
    (h : decodePeer b = some peer) : encodeCompactPeer peer = b := by
  simp only [decodePeer] at h
  split at h
  · cases h
    exact addrToBytes_addrOfBytes hb
  · cases h

theorem isSome_decodePeer {b : Bytes} :
    (decodePeer b).isSome = isPublicEndpoint (addrOfBytes b) := by
  simp only [decodePeer]
  split
  · next hpublic => exact hpublic.symm
  · next hprivate => exact (Bool.eq_false_iff.mpr hprivate).symm

/-! ## The codecs -/

/-- What an encoder and a decoder of records do with each other. `endpoint` is the address of a
record and `endpointAt` is where a chunk has it. -/
structure CompactCodec {β : Type} (size : Nat) (endpoint : β → SocketAddrV4)
    (endpointAt : Bytes → SocketAddrV4) (encode : List β → Bytes) (decode : Bytes → List β) :
    Prop where
  decode_encode : ∀ rs, decode (encode rs) = rs.filter fun r => isPublicEndpoint (endpoint r)
  encode_decode : ∀ d : Bytes, d.length % size = 0 →
    (∀ chunk ∈ chunks size d, isPublicEndpoint (endpointAt chunk)) → encode (decode d) = d
  partial_record : ∀ d : Bytes, d.length % size ≠ 0 → decode d = []

/-- The codec of a record of `size` bytes: each record is read back from its bytes if its endpoint
is public, and a chunk that is read has the bytes of what is read. -/
theorem CompactCodec.of_records {β : Type} {size : Nat} {endpoint : β → SocketAddrV4}
    {endpointAt : Bytes → SocketAddrV4} {encodeRecord : β → Bytes} {decodeRecord : Bytes → Option β}
    {decode : Bytes → List β} (hsize : 0 < size)
    (hdecode : ∀ d, decode d =
      if d.length % size ≠ 0 then [] else (chunks size d).filterMap decodeRecord)
    (hlen : ∀ r, (encodeRecord r).length = size)
    (hback : ∀ r, decodeRecord (encodeRecord r) =
      if isPublicEndpoint (endpoint r) then some r else none)
    (hforth : ∀ b r, b.length = size → decodeRecord b = some r → encodeRecord r = b)
    (hsome : ∀ b, (decodeRecord b).isSome = isPublicEndpoint (endpointAt b)) :
    CompactCodec size endpoint endpointAt (fun rs => rs.flatMap encodeRecord) decode where
  decode_encode rs := by
    have hwhole : (rs.flatMap encodeRecord).length % size = 0 := length_records hlen rs
    rw [hdecode, if_neg (not_not_intro hwhole)]
    exact Blocks.decode_encode hsize hlen hback rs
  encode_decode d hwhole hpublic := by
    rw [hdecode, if_neg (not_not_intro hwhole)]
    refine Blocks.encode_decode hwhole hforth fun b hb => ?_
    rw [hsome]
    exact hpublic b hb
  partial_record d hpartial := by
    rw [hdecode]
    exact if_pos hpartial

theorem compactNodes_codec :
    CompactCodec (nodeIdLen + 6) NodeContact.addr (fun chunk => addrOfBytes (chunk.drop nodeIdLen))
      encodeCompactNodes decodeCompactNodes :=
  .of_records (Nat.succ_pos _) (fun _ => rfl) length_encodeNode decodeNode_encodeNode
    (fun _ _ => encodeNode_of_decodeNode) fun _ => isSome_decodeNode

theorem compactPeers_codec :
    CompactCodec 6 PeerContact.addr addrOfBytes (fun peers => peers.flatMap encodeCompactPeer)
      decodeCompactPeers :=
  .of_records (Nat.succ_pos _) (fun _ => rfl) length_encodeCompactPeer
    decodePeer_encodeCompactPeer (fun _ _ => encodeCompactPeer_of_decodePeer) fun _ =>
      isSome_decodePeer

/-! ## The peers of a response -/

theorem decodeCompactPeers_flatten {parts : List Bytes}
    (hparts : ∀ part ∈ parts, part.length % 6 = 0) :
    decodeCompactPeers parts.flatten = parts.flatMap decodeCompactPeers := by
  have hwhole : parts.flatten.length % 6 = 0 := by
    induction parts with
    | nil => rfl
    | cons part parts ih =>
      have hrest := ih fun p hp => hparts p (List.mem_cons_of_mem _ hp)
      rw [List.flatten_cons, List.length_append, Nat.add_mod, hparts part List.mem_cons_self, hrest]
  -- No record lies across two strings.
  have hblocks : chunks 6 parts.flatten = parts.flatMap (chunks 6) :=
    blocks_of_parts (by decide) hparts
  rw [decodeCompactPeers, if_neg (not_not_intro hwhole), hblocks, List.filterMap_flatMap]
  refine List.flatMap_congr fun part hpart => ?_
  rw [decodeCompactPeers, if_neg (not_not_intro (hparts part hpart))]

theorem valuesPeers_list {r r' : KrpcMap} {parts : List Bytes}
    (hparts : ∀ part ∈ parts, part.length % 6 = 0)
    (hlist : r.get "values" = some (.list (parts.map .bytes)))
    (hstring : r'.get "values" = some (.bytes parts.flatten)) :
    KrpcMessage.valuesPeers r = KrpcMessage.valuesPeers r' := by
  rw [KrpcMessage.valuesPeers, KrpcMessage.valuesPeers, hlist, hstring]
  simp only [decodeCompactPeers_flatten hparts, List.flatMap_map]

/-- Both codecs give back what is public and refuse a partial record, and the two forms of the
field `values` give the same peers. -/
theorem compact_codecs :
    CompactCodec (nodeIdLen + 6) NodeContact.addr (fun chunk => addrOfBytes (chunk.drop nodeIdLen))
      encodeCompactNodes decodeCompactNodes ∧
    CompactCodec 6 PeerContact.addr addrOfBytes (fun peers => peers.flatMap encodeCompactPeer)
      decodeCompactPeers ∧
    ∀ (t t' : Bytes) (y y' : String) (r r' extra extra' : KrpcMap) (parts : List Bytes),
      (∀ part ∈ parts, part.length % 6 = 0) →
      r.get "values" = some (.list (parts.map .bytes)) →
      r'.get "values" = some (.bytes parts.flatten) →
      (KrpcMessage.parseGetPeersResponse (.response t y r extra)).1 =
        (KrpcMessage.parseGetPeersResponse (.response t' y' r' extra')).1 := by
  refine ⟨compactNodes_codec, compactPeers_codec, ?_⟩
  intro t t' y y' r r' extra extra' parts hparts hlist hstring
  exact valuesPeers_list hparts hlist hstring

/-- Two peers, the second of which is private, in two strings and in one. -/
theorem compact_codecs_example :
    (KrpcMessage.parseGetPeersResponse (.response [] "r"
      [("values", .list [.bytes [8, 8, 8, 8, 0, 80], .bytes [10, 0, 0, 1, 0, 80]])] [])).1 =
      (KrpcMessage.parseGetPeersResponse (.response [] "r"
        [("values", .bytes [8, 8, 8, 8, 0, 80, 10, 0, 0, 1, 0, 80])] [])).1 :=
  compact_codecs.2.2 [] [] "r" "r"
    [("values", .list [.bytes [8, 8, 8, 8, 0, 80], .bytes [10, 0, 0, 1, 0, 80]])]
    [("values", .bytes [8, 8, 8, 8, 0, 80, 10, 0, 0, 1, 0, 80])] [] []
    [[8, 8, 8, 8, 0, 80], [10, 0, 0, 1, 0, 80]] (by decide) rfl rfl

end Btfind
