import Mathlib.Data.String.Basic
import Btfind.Bencode.Value

/-!
# Wire messages

The handshakes, the frames and the `ut_metadata` requests of the peer protocol, as bytes.
-/

namespace Btfind

/-- Big-endian bytes as a number. -/
def ofBeBytes (b : Bytes) : Nat := b.foldl (fun acc x => acc * 256 + x.toNat) 0

/-- The low `size` bytes of a number, in big-endian order. -/
def toBeBytes : Nat → Nat → Bytes
  | 0, _ => []
  | size + 1, n => toBeBytes size (n / 256) ++ [UInt8.ofNat (n % 256)]

def idToBytes (id : BitVec 160) : Bytes := toBeBytes 20 id.toNat

def idOfBytes (b : Bytes) : BitVec 160 := BitVec.ofNat 160 (ofBeBytes b)

/-! ## The handshake -/

def btProtocol : Bytes := asBytes "BitTorrent protocol"

def handshakeLen : Nat := 68

structure Handshake where
  infoHash : InfoHash
  peerId : BitVec 160
  reserved : Bytes

namespace Handshake

def new (infoHash : InfoHash) (peerId : BitVec 160) : Handshake :=
  ⟨infoHash, peerId, [0, 0, 0, 0, 0, 0x10, 0, 0x01]⟩

def toBytes (h : Handshake) : Bytes :=
  UInt8.ofNat btProtocol.length ::
    (btProtocol ++ h.reserved ++ idToBytes h.infoHash ++ idToBytes h.peerId)

def fromBytes (data : Bytes) : Option Handshake :=
  if data.length < handshakeLen then none
  else if data.head? ≠ some 19 ∨ (data.drop 1).take 19 ≠ btProtocol then none
  else
    some ⟨idOfBytes ((data.drop 28).take 20), idOfBytes ((data.drop 48).take 20),
      (data.drop 20).take 8⟩

def supportsExtensions (h : Handshake) : Bool := h.reserved.getD 5 0 &&& 0x10 ≠ 0

end Handshake

/-! ## Frames -/

inductive WireMessage
  | keepAlive
  | choke
  | unchoke
  | interested
  | notInterested
  | have (index : Nat)
  | bitfield (data : Bytes)
  | request (index begin length : Nat)
  | piece (index begin : Nat) (block : Bytes)
  | cancel (index begin length : Nat)
  | port (number : Nat)
  | extended (id : UInt8) (payload : Bytes)

namespace WireMessage

def toPayload : WireMessage → Bytes
  | .keepAlive => []
  | .choke => [0]
  | .unchoke => [1]
  | .interested => [2]
  | .notInterested => [3]
  | .have index => 4 :: toBeBytes 4 index
  | .bitfield data => 5 :: data
  | .request index begin length =>
    6 :: (toBeBytes 4 index ++ toBeBytes 4 begin ++ toBeBytes 4 length)
  | .piece index begin block => 7 :: (toBeBytes 4 index ++ toBeBytes 4 begin ++ block)
  | .cancel index begin length =>
    8 :: (toBeBytes 4 index ++ toBeBytes 4 begin ++ toBeBytes 4 length)
  | .port number => 9 :: toBeBytes 2 number
  | .extended id payload => 20 :: id :: payload

/-- The length of the payload and the payload; a keep-alive is four zero bytes. -/
def toBytes (m : WireMessage) : Bytes := toBeBytes 4 m.toPayload.length ++ m.toPayload

/-- The 32-bit number at an offset of a body. -/
def u32At (body : Bytes) (offset : Nat) : Nat := ofBeBytes ((body.drop offset).take 4)

def fromPayload : Bytes → Option WireMessage
  | [] => some .keepAlive
  | id :: body =>
    if id = 0 then some .choke
    else if id = 1 then some .unchoke
    else if id = 2 then some .interested
    else if id = 3 then some .notInterested
    else if id = 4 ∧ 4 ≤ body.length then some (.have (u32At body 0))
    else if id = 5 then some (.bitfield body)
    else if id = 6 ∧ 12 ≤ body.length then
      some (.request (u32At body 0) (u32At body 4) (u32At body 8))
    else if id = 7 ∧ 8 ≤ body.length then
      some (.piece (u32At body 0) (u32At body 4) (body.drop 8))
    else if id = 8 ∧ 12 ≤ body.length then
      some (.cancel (u32At body 0) (u32At body 4) (u32At body 8))
    else if id = 9 ∧ 2 ≤ body.length then some (.port (ofBeBytes (body.take 2)))
    else if id = 20 then
      match body with
      | [] => none
      | extId :: payload => some (.extended extId payload)
    else none

def fromBytesFrame (len : Nat) (body : Bytes) : Option WireMessage :=
  if len = 0 then some .keepAlive
  else if body.length < len then none
  else fromPayload (body.take len)

def fromBytes (data : Bytes) : Option WireMessage :=
  if data.length < 4 then none
  else if ofBeBytes (data.take 4) = 0 then some .keepAlive
  else if data.length < 4 + ofBeBytes (data.take 4) then none
  else fromPayload ((data.drop 4).take (ofBeBytes (data.take 4)))

end WireMessage

/-! ## The extended handshake -/

structure ExtendedHandshake where
  m : List (String × Nat)
  metadataSize : Option Nat
  v : Option String
  yourIp : Option String
  reqq : Option Nat

namespace ExtendedHandshake

def toDict (h : ExtendedHandshake) : BencodeDict :=
  let put (key : String) (v : BencodeValue) (dict : BencodeDict) : BencodeDict :=
    SortedMap.insert BencodeValue.keyRank (asBytes key) v dict
  let mDict := h.m.foldl (fun dict e => put e.1 (.int e.2) dict) []
  let dict := put "m" (.dict mDict) []
  let dict := h.metadataSize.elim dict fun size => put "metadata_size" (.int size) dict
  let dict := h.v.elim dict fun v => put "v" (.bytes (asBytes v)) dict
  let dict := h.yourIp.elim dict fun ip => put "yourip" (.bytes (asBytes ip)) dict
  h.reqq.elim dict fun reqq => put "reqq" (.int reqq) dict

/-- The loop over the extension ids. -/
def parseIds : List (String × Nat) → BencodeDict → Option (List (String × Nat))
  | m, [] => some m
  | m, (key, .int i) :: entries =>
    match fromUtf8 key with
    | none => parseIds m entries
    | some key =>
      if 0 ≤ i ∧ i ≤ 255 then parseIds (SortedMap.insert id key i.toNat m) entries
      else if key = "ut_metadata" then none
      else parseIds m entries
  | m, (key, _) :: entries =>
    if key = asBytes "ut_metadata" then none else parseIds m entries

/-- The entries of the field come in an order that the hash map chooses. -/
def parseM (order : BencodeDict → BencodeDict) (dict : BencodeDict) :
    Option (List (String × Nat)) :=
  match dict.get "m" with
  | some (.dict entries) => parseIds [] (order entries)
  | none => some []
  | some _ => none

/-- `None` inside is an absent field, and `none` is a field that is refused. -/
def parseMetadataSize (dict : BencodeDict) : Option (Option Nat) :=
  match dict.get "metadata_size" with
  | some (.int i) => if i ≤ 0 ∨ 64 * 1024 * 1024 < i then none else some (some i.toNat)
  | none => some none
  | some _ => none

def parseText (dict : BencodeDict) (key : String) : Option String :=
  match dict.get key with
  | some (.bytes b) => some (fromUtf8Lossy b)
  | _ => none

def parseReqq (dict : BencodeDict) : Option Nat :=
  match dict.get "reqq" with
  | some (.int i) => if 1 ≤ i ∧ i ≤ 64 then some i.toNat else none
  | _ => none

def fromBytesInOrder (order : BencodeDict → BencodeDict)
    (decode : Bytes → Except String BencodeValue) (data : Bytes) : Option ExtendedHandshake :=
  match decode data with
  | .ok (.dict dict) => do
    let m ← parseM order dict
    let metadataSize ← parseMetadataSize dict
    return ⟨m, metadataSize, parseText dict "v", parseText dict "yourip", parseReqq dict⟩
  | _ => none

def fromBytes (decode : Bytes → Except String BencodeValue) (data : Bytes) :
    Option ExtendedHandshake := fromBytesInOrder id decode data

end ExtendedHandshake

def buildMetadataRequest (encode : BencodeValue → Bytes) (piece : Nat) : Bytes :=
  encode (.dict [(asBytes "msg_type", .int 0), (asBytes "piece", .int piece)])

end Btfind
