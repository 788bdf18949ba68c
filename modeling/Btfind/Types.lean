import Mathlib.Data.List.AList

namespace Btfind

/-- Twenty bytes read as one big-endian number. -/
abbrev NodeId := BitVec 160

abbrev InfoHash := BitVec 160

abbrev Bytes := List UInt8

structure Ipv4Addr where
  a : UInt8
  b : UInt8
  c : UInt8
  d : UInt8
  deriving DecidableEq

structure SocketAddrV4 where
  ip : Ipv4Addr
  port : UInt16
  deriving DecidableEq

def Ipv4Addr.toString (ip : Ipv4Addr) : String :=
  s!"{ip.a.toNat}.{ip.b.toNat}.{ip.c.toNat}.{ip.d.toNat}"

/-- The text under which the database stores an address. -/
def SocketAddrV4.toString (addr : SocketAddrV4) : String :=
  s!"{addr.ip.toString}:{addr.port.toNat}"

structure NodeContact where
  id : NodeId
  addr : SocketAddrV4
  deriving DecidableEq

structure PeerContact where
  addr : SocketAddrV4
  deriving DecidableEq

abbrev peerAddrs (peers : List PeerContact) : List SocketAddrV4 := peers.map PeerContact.addr

inductive DiscoverySource
  | inboundGetPeers
  | announcePeer
  | resume
  | sampleInfohashes
  | outboundGetPeers
  deriving DecidableEq

def DiscoverySource.asStr : DiscoverySource → String
  | .inboundGetPeers => "inbound_get_peers"
  | .announcePeer => "announce_peer"
  | .resume => "resume"
  | .sampleInfohashes => "sample_infohashes"
  | .outboundGetPeers => "outbound_get_peers"

structure HashDiscovery where
  infoHash : InfoHash
  peers : List PeerContact
  source : DiscoverySource

inductive MetadataFailureReason
  | connect
  | connectTimeout
  | handshakeTimeout
  | extensionTimeout
  | metadataTimeout
  | handshakeIo
  | extensionIo
  | metadataIo
  | handshake
  | extensionsUnsupported
  | metadataUnsupported
  | metadataDisabled
  | metadataSizeMissing
  | metadataTooLarge
  | extensionProtocol
  | rejected
  | protocol
  | hashMismatch
  | parse
  deriving DecidableEq

def MetadataFailureReason.asStr : MetadataFailureReason → String
  | .connectTimeout => "connect_timeout"
  | .handshakeTimeout => "handshake_timeout"
  | .extensionTimeout => "extension_timeout"
  | .metadataTimeout => "metadata_timeout"
  | .handshakeIo => "handshake_io"
  | .extensionIo => "extension_io"
  | .metadataIo => "metadata_io"
  | .extensionsUnsupported => "extensions_unsupported"
  | .metadataUnsupported => "metadata_unsupported"
  | .metadataDisabled => "metadata_disabled"
  | .metadataSizeMissing => "metadata_size_missing"
  | .metadataTooLarge => "metadata_too_large"
  | .extensionProtocol => "extension_protocol"
  | .connect => "connect"
  | .handshake => "handshake"
  | .rejected => "rejected"
  | .protocol => "protocol"
  | .hashMismatch => "hash_mismatch"
  | .parse => "parse"

inductive MetadataJobAdmission
  | accepted
  | unchanged
  | noPeers
  | atCapacity
  deriving DecidableEq

inductive MetadataRetrievalOutcome
  | complete
  | retryAt
  | waitingPeers
  | invalid
  | unsupported
  deriving DecidableEq

inductive CrawlStatsEvent
  | dhtSnapshot (nodesKnown queriesSent infoHashesFound : Nat)
  | dhtNodeSeen (id : NodeId) (addr : SocketAddrV4)
  | metadataFetched
  | metadataFetchFailed (reason : MetadataFailureReason)
  | rpcAnswered
  | rpcTimedOut
  | rpcMalformed
  | rpcUnsolicited
  | rpcUnexpectedSource
  | discoveryBackpressure
  | samplingResponse (samples : Nat)
  | metadataQueue (activeJobs queuedJobs pendingPeers : Nat)
  | sampleObserved (infoHash : InfoHash) (nodeId : NodeId) (addr : SocketAddrV4) (roundId : Nat)
  | hashObserved (infoHash : InfoHash) (source : DiscoverySource) (hasPeers accepted : Bool)
      (peers : Nat)
  deriving DecidableEq

/-! ## Machine arithmetic -/

def u32Max : Nat := 4294967295

def i64Max : Int := 9223372036854775807

/-- `u32::saturating_add`. -/
def saturatingAddU32 (a b : Nat) : Nat := min (a + b) u32Max

theorem saturatingAddU32_pos (n : Nat) : 0 < saturatingAddU32 n 1 := by
  rw [saturatingAddU32, u32Max]
  omega

/-- `i64::saturating_add` of a non-negative amount. -/
def saturatingAddI64 (a b : Int) : Int := min (a + b) i64Max

/-- The nearest `i64` to an exact result, as the saturating operations return it. -/
def clampI64 (x : Int) : Int := max (-i64Max - 1) (min x i64Max)

/-- The largest Unix time that the `chrono` clock returns. -/
def maxTimestamp : Int := 8210266876799

theorem saturatingAddI64_le {a b now : Int} (hnow : now ≤ maxTimestamp)
    (h : saturatingAddI64 a b ≤ now) : a + b ≤ now := by
  unfold saturatingAddI64 i64Max at h
  unfold maxTimestamp at hnow
  omega

end Btfind
