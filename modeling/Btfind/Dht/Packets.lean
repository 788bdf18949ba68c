import Btfind.Dht.Rpcs
import Btfind.Library.Blocks

/-!
# Packets

The public addresses, the compact forms of nodes and peers, the fields of responses and
the messages that the crawler sends. SHA-1 is a parameter.
-/

namespace Btfind

open Blocks

def nodeIdLen : Nat := 20

/-! ## Public addresses -/

def Ipv4Addr.octets (ip : Ipv4Addr) : Bytes := [ip.a, ip.b, ip.c, ip.d]

/-- `is_private` -/
def Ipv4Addr.isPrivate (ip : Ipv4Addr) : Bool :=
  ip.a = 10 || (ip.a = 172 && 16 ≤ ip.b && ip.b ≤ 31) || (ip.a = 192 && ip.b = 168)

/-- The first four conditions of the standard library are `is_unspecified`,
`is_broadcast`, `is_multicast` and `is_loopback`. -/
def isPublicIpv4 (ip : Ipv4Addr) : Bool :=
  !(ip.octets = [0, 0, 0, 0]
    || ip.octets = [255, 255, 255, 255]
    || (224 ≤ ip.a && ip.a ≤ 239)
    || ip.a = 127
    || ip.isPrivate
    || (ip.a = 169 && ip.b = 254)
    || ip.a = 0
    || (ip.a = 100 && 64 ≤ ip.b && ip.b ≤ 127)
    || (ip.a = 192 && ip.b = 0 && ip.c = 0)
    || (ip.a = 192 && ip.b = 0 && ip.c = 2)
    || (ip.a = 192 && ip.b = 88 && ip.c = 99)
    || (ip.a = 198 && ip.b = 51 && ip.c = 100)
    || (ip.a = 203 && ip.b = 0 && ip.c = 113)
    || (ip.a = 198 && 18 ≤ ip.b && ip.b ≤ 19)
    || 240 ≤ ip.a)

def isPublicEndpoint (addr : SocketAddrV4) : Bool := addr.port ≠ 0 && isPublicIpv4 addr.ip

/-! ## Compact forms -/

/-- The six bytes of an address. -/
def addrOfBytes (b : Bytes) : SocketAddrV4 :=
  ⟨⟨b.getD 0 0, b.getD 1 0, b.getD 2 0, b.getD 3 0⟩, UInt16.ofNat (ofBeBytes (b.drop 4))⟩

def addrToBytes (addr : SocketAddrV4) : Bytes := addr.ip.octets ++ toBeBytes 2 addr.port.toNat

/-- `as_chunks`, for a length that the size divides. -/
def chunks (size : Nat) (data : Bytes) : List Bytes :=
  (List.range (data.length / size)).map (block size data)

/-- One chunk of `decode_compact_nodes`. -/
def decodeNode (chunk : Bytes) : Option NodeContact :=
  let addr := addrOfBytes (chunk.drop nodeIdLen)
  if isPublicEndpoint addr then some ⟨idOfBytes (chunk.take nodeIdLen), addr⟩ else none

def decodeCompactNodes (data : Bytes) : List NodeContact :=
  if data.length % (nodeIdLen + 6) ≠ 0 then [] else (chunks (nodeIdLen + 6) data).filterMap decodeNode

def encodeCompactNodes (nodes : List NodeContact) : Bytes :=
  nodes.flatMap fun node => idToBytes node.id ++ addrToBytes node.addr

/-- One chunk of `decode_compact_peers`. -/
def decodePeer (chunk : Bytes) : Option PeerContact :=
  let addr := addrOfBytes chunk
  if isPublicEndpoint addr then some ⟨addr⟩ else none

def decodeCompactPeers (data : Bytes) : List PeerContact :=
  if data.length % 6 ≠ 0 then [] else (chunks 6 data).filterMap decodePeer

def encodeCompactPeer (peer : PeerContact) : Bytes := addrToBytes peer.addr

/-! ## Fields -/

def KrpcMap.get (values : KrpcMap) (key : String) : Option KrpcValue := List.lookup key values

def fieldId (values : KrpcMap) (key : String) : Option NodeId :=
  match values.get key with
  | some (.bytes b) => if b.length ≠ nodeIdLen then none else some (idOfBytes b)
  | _ => none

namespace KrpcMessage

def transactionId : KrpcMessage → Bytes
  | .query t _ _ _ _ => t
  | .response t _ _ _ => t
  | .error t _ _ _ => t

def extractNodeId : KrpcMessage → Option NodeId
  | .query _ _ _ a _ => fieldId a "id"
  | .response _ _ r _ => fieldId r "id"
  | .error .. => none

def hasBytes (r : KrpcMap) (key : String) : Bool := (r.get key) matches some (.bytes _)

def hasInt (r : KrpcMap) (key : String) : Bool := (r.get key) matches some (.int _)

def hasList (r : KrpcMap) (key : String) : Bool := (r.get key) matches some (.list _)

/-- The fields that a response to a method must have. -/
def hasFields (r : KrpcMap) : RpcMethod → Bool
  | .ping => true
  | .findNode => hasBytes r "nodes"
  | .getPeers => hasBytes r "nodes" || hasList r "values" || hasBytes r "values"
  | .sampleInfohashes => hasInt r "interval" && hasInt r "num" && hasBytes r "samples"

def responseHasShape (msg : KrpcMessage) (method : RpcMethod) : Bool :=
  match msg with
  | .response _ _ r _ => msg.extractNodeId.isSome && hasFields r method
  | _ => false

def responseNodes : KrpcMessage → List NodeContact
  | .response _ _ r _ =>
    match r.get "nodes" with
    | some (.bytes nodes) => decodeCompactNodes nodes
    | _ => []
  | _ => []

/-- The peers of the `values` field. -/
def valuesPeers (r : KrpcMap) : List PeerContact :=
  match r.get "values" with
  | some (.list values) =>
    values.flatMap fun
      | .bytes b => decodeCompactPeers b
      | _ => []
  | some (.bytes b) => decodeCompactPeers b
  | _ => []

def parseGetPeersResponse : KrpcMessage → List PeerContact × List NodeContact
  | .response t y r extra => (valuesPeers r, responseNodes (.response t y r extra))
  | _ => ([], [])

end KrpcMessage

/-- `Duration::from_secs`, in nanoseconds. -/
def fromSecs (secs : Nat) : Nat := secs * 1000000000

structure SampleInfohashesResponse where
  nodeId : NodeId
  interval : Nat
  totalNum : Nat
  samples : List InfoHash
  nodes : List NodeContact

def parseSampleInfohashesResponse (msg : KrpcMessage) (maxSamples : Nat) :
    Except String SampleInfohashesResponse :=
  match msg with
  | .response _ _ r _ => do
    let nodeId ← KrpcMessage.okOr msg.extractNodeId "missing response node id"
    let interval ← match r.get "interval" with
      | some (.int i) =>
        if 1 ≤ i ∧ i ≤ 86400 then .ok (fromSecs i.toNat) else .error "invalid sample interval"
      | _ => .error "invalid sample interval"
    let totalNum ← match r.get "num" with
      | some (.int i) => if 0 ≤ i then .ok i.toNat else .error "invalid sample count"
      | _ => .error "invalid sample count"
    match r.get "samples" with
    | some (.bytes b) =>
      if b.length % 20 ≠ 0 ∨ maxSamples < b.length / 20 then
        .error "invalid samples payload length"
      else .ok ⟨nodeId, interval, totalNum, (chunks 20 b).map idOfBytes, msg.responseNodes⟩
    | _ => .error "missing samples"
  | _ => .error "not a response"

/-! ## Messages of the crawler -/

def RpcMethod.query : RpcMethod → String
  | .ping => "ping"
  | .findNode => "find_node"
  | .getPeers => "get_peers"
  | .sampleInfohashes => "sample_infohashes"

/-- The argument that holds the target. -/
def RpcMethod.targetKey : RpcMethod → Option String
  | .ping => none
  | .findNode => some "target"
  | .getPeers => some "info_hash"
  | .sampleInfohashes => some "target"

def queryMessage (method : RpcMethod) (ourId target : NodeId) (tx : BitVec 16) : KrpcMessage :=
  let args : KrpcMap := [("id", .bytes (idToBytes ourId))]
  let args := method.targetKey.elim args fun key =>
    SortedMap.insert id key (.bytes (idToBytes target)) args
  .query (transactionIdBytes tx) "q" method.query args [("v", .bytes (asBytes "BF01"))]

def responseMessage (ourId : NodeId) (transaction : Bytes) (values : KrpcMap) : KrpcMessage :=
  .response transaction "r" (SortedMap.insert id "id" (.bytes (idToBytes ourId)) values) []

def errorMessage (transaction : Bytes) (description : String) : KrpcMessage :=
  .error transaction "e" ⟨203, description⟩ []

/-! ## Tokens -/

/-- The key of an HMAC, filled with zeros to the size of a block. -/
def normalizeKey (sha1 : Bytes → Bytes) (key : Bytes) : Bytes :=
  let short := if 64 < key.length then sha1 key else key
  short ++ List.replicate (64 - short.length) 0

def hmacSha1 (sha1 : Bytes → Bytes) (key data : Bytes) : Bytes :=
  let normalized := normalizeKey sha1 key
  let innerPad := normalized.map (0x36 ^^^ ·)
  let outerPad := normalized.map (0x5c ^^^ ·)
  sha1 (outerPad ++ sha1 (innerPad ++ data))

def makeTokenForBucket (sha1 : Bytes → Bytes) (secret : Bytes) (ip : Ipv4Addr) (bucket : Nat) :
    Bytes :=
  hmacSha1 sha1 secret (ip.octets ++ toBeBytes 8 bucket)

/-- `current_token_bucket` at a Unix time. -/
def tokenBucket (unixTime : Nat) : Nat := unixTime / 300

def makeToken (sha1 : Bytes → Bytes) (secret : Bytes) (ip : Ipv4Addr) (unixTime : Nat) : Bytes :=
  makeTokenForBucket sha1 secret ip (tokenBucket unixTime)

def constantTimeEq (left right : Bytes) : Bool :=
  if left.length ≠ right.length then false
  else (left.zip right).foldl (fun difference e => difference ||| (e.1 ^^^ e.2)) 0 = 0

def validateToken (sha1 : Bytes → Bytes) (secret : Bytes) (ip : Ipv4Addr) (unixTime : Nat)
    (token : Bytes) : Bool :=
  let bucket := tokenBucket unixTime
  constantTimeEq token (makeTokenForBucket sha1 secret ip bucket)
    || constantTimeEq token (makeTokenForBucket sha1 secret ip (bucket - 1))

end Btfind
