import Btfind.Library.Blocks
import Btfind.Metadata.Round
import Btfind.Wire.Messages
import Btfind.Wire.Scanner

/-!
# Metadata downloads

`fetch_from_stream_with_limit` on the bytes that the peer sends. The stream is the bytes
that are left to read and the writes so far; a read past the end is an I/O error, and no
timeout fires. A loop over frames is bounded by the bytes that are left, of which every
frame takes four at least.
-/

namespace Btfind

open Blocks

structure Conn where
  incoming : Bytes
  written : List Bytes

/-- A computation on a stream that can fail. -/
def FetchM (α : Type) : Type := Conn → Except MetadataFetchError α × Conn

namespace FetchM

instance : Monad FetchM where
  pure a c := (.ok a, c)
  bind x f c :=
    match x c with
    | (.ok a, c') => f a c'
    | (.error e, c') => (.error e, c')

def fail {α : Type} (e : MetadataFetchError) : FetchM α := fun c => (.error e, c)

/-- `write_all_timeout` -/
def writeAll (b : Bytes) : FetchM Unit := fun c => (.ok (), { c with written := c.written ++ [b] })

/-- `read_exact_timeout` -/
def readExact (size : Nat) (stage : IoStage) : FetchM Bytes := fun c =>
  if c.incoming.length < size then (.error (.io stage "early eof"), c)
  else (.ok (c.incoming.take size), { c with incoming := c.incoming.drop size })

/-- Enough fuel for a loop over frames. -/
def withFuel {α : Type} (f : Nat → FetchM α) : FetchM α := fun c => f (c.incoming.length + 1) c

/-- `ok_or` -/
def getOr {α : Type} (o : Option α) (e : MetadataFetchError) : FetchM α :=
  match o with
  | some a => pure a
  | none => fail e

end FetchM

open FetchM

def maxFrameLen : Nat := 262144

def readNextFrame (stage : IoStage) : FetchM (Option WireMessage) := do
  let len := ofBeBytes (← readExact 4 stage)
  -- An empty frame has no id.
  if len = 0 then return some .keepAlive
  else if maxFrameLen < len then fail (.protocol stage s!"frame too large: {len} bytes")
  else return WireMessage.fromBytesFrame len (← readExact len stage)

def readExtendedHandshake (decode : Bytes → Except String BencodeValue) :
    Nat → FetchM ExtendedHandshake
  | 0 => fail (.io .extensionRead "early eof")
  | fuel + 1 => do
    match ← readNextFrame .extensionRead with
    | some (.extended id payload) =>
      if id = 0 then
        getOr (ExtendedHandshake.fromBytes decode payload)
          (.protocol .extensionRead "invalid extended handshake")
      else readExtendedHandshake decode fuel
    | some _ => readExtendedHandshake decode fuel
    | none => fail (.protocol .extensionRead "invalid frame during extended handshake")

def localMetadataId : UInt8 := 1

def blockSize : Nat := 16384

def metadataPieceCount (totalSize : Nat) : Nat := (totalSize + (blockSize - 1)) / blockSize

def metadataPieceLen (totalSize totalPieces pieceIdx : Nat) : Nat :=
  if pieceIdx + 1 = totalPieces then totalSize - pieceIdx * blockSize else blockSize

/-- The bencode serializer. -/
structure Serde where
  encode : BencodeValue → Bytes
  decode : Bytes → Except String BencodeValue

/-- What the handshakes settle. -/
structure Session where
  peerMetadataId : UInt8
  metadataSize : Nat
  maxOutstanding : Nat

def Session.totalPieces (s : Session) : Nat := metadataPieceCount s.metadataSize

/-- Both handshakes, and the checks on what the peer answers. -/
def openSession (serde : Serde) (infoHash : InfoHash) (ourPeerId : BitVec 160)
    (maxMetadataSize : Nat) : FetchM Session := do
  writeAll (Handshake.new infoHash ourPeerId).toBytes
  let hsResp ← getOr (Handshake.fromBytes (← readExact handshakeLen .handshakeRead))
    .invalidHandshake
  if hsResp.infoHash ≠ infoHash then fail .invalidHandshake
  else if !hsResp.supportsExtensions then fail (.extensionUnavailable .extensionsUnsupported)
  else
    let extHs : ExtendedHandshake :=
      ⟨[("ut_metadata", localMetadataId.toNat)], none, some "btfind 0.1", none, none⟩
    writeAll (WireMessage.extended 0 (serde.encode (.dict extHs.toDict))).toBytes
    let peerExtHs ← withFuel (readExtendedHandshake serde.decode)
    let peerMetadataId ← getOr (peerExtHs.m.lookup "ut_metadata")
      (.extensionUnavailable .metadataUnsupported)
    if peerMetadataId = 0 then fail (.extensionUnavailable .metadataDisabled)
    else if 255 < peerMetadataId then
      fail (.protocol .extensionRead s!"invalid ut_metadata id: {peerMetadataId}")
    else
      let metadataSize ← getOr peerExtHs.metadataSize (.extensionUnavailable .metadataSizeMissing)
      if metadataSize = 0 then fail (.protocol .extensionRead "metadata_size is zero")
      else if maxMetadataSize < metadataSize then
        fail (.metadataTooLarge metadataSize maxMetadataSize)
      else
        -- A peer without `reqq` is asked for one piece at a time.
        return ⟨UInt8.ofNat peerMetadataId, metadataSize, max 1 (min (peerExtHs.reqq.getD 1) 64)⟩

/-! ## The download -/

structure Download where
  pieces : List (Option Bytes)
  received : Nat
  nextToRequest : Nat
  inFlight : Nat
  requested : List Nat

/-- The download before the first request. -/
def Download.start (s : Session) : Download := ⟨List.replicate s.totalPieces none, 0, 0, 0, []⟩

/-- The condition of the loop that requests pieces. -/
def Download.Wants (s : Session) (d : Download) : Prop :=
  d.nextToRequest < s.totalPieces ∧ d.inFlight < s.maxOutstanding

instance (s : Session) (d : Download) : Decidable (d.Wants s) := inferInstanceAs (Decidable (_ ∧ _))

/-- The counters of that loop after a request. -/
def Download.request (d : Download) : Download :=
  { d with
    nextToRequest := d.nextToRequest + 1
    inFlight := d.inFlight + 1
    requested := d.nextToRequest :: d.requested }

def requestBytes (serde : Serde) (s : Session) (pieceIdx : Nat) : Bytes :=
  (WireMessage.extended s.peerMetadataId (buildMetadataRequest serde.encode pieceIdx)).toBytes

/-- The loop that requests pieces; the pieces that are left are enough fuel. -/
def requestMore (serde : Serde) (s : Session) : Nat → Download → FetchM Download
  | 0, d => pure d
  | fuel + 1, d => do
    if d.Wants s then
      writeAll (requestBytes serde s d.nextToRequest)
      requestMore serde s fuel d.request
    else return d

/-- `if requested.remove(&piece_idx) { in_flight -= 1; }` -/
def Download.settle (d : Download) (pieceIdx : Nat) : Download :=
  if pieceIdx ∈ d.requested then
    { d with requested := d.requested.erase pieceIdx, inFlight := d.inFlight - 1 }
  else d

/-- Keep the data, if the piece is not there yet. -/
def Download.store (d : Download) (pieceIdx : Nat) (data : Bytes) : Download :=
  if d.pieces[pieceIdx]? = some none then
    { d with pieces := d.pieces.set pieceIdx (some data), received := d.received + 1 }
  else d

/-- The checks on a data message, and the piece it fills. -/
def receiveData (s : Session) (d : Download) (pieceIdx totalSize : Nat) (data : Bytes) :
    Except MetadataFetchError Download :=
  -- The request is settled whether or not the data is taken.
  let d := d.settle pieceIdx
  if totalSize ≠ s.metadataSize then
    .error (.protocol .metadataRead "metadata total_size mismatch")
  else if s.totalPieces ≤ pieceIdx then
    .error (.protocol .metadataRead "metadata piece out of range")
  else
    let expectedLen := metadataPieceLen s.metadataSize s.totalPieces pieceIdx
    if data.length ≠ expectedLen then
      .error (.protocol .metadataRead
        s!"invalid metadata piece length: got {data.length}, expected {expectedLen}")
    else .ok (d.store pieceIdx data)

/-- One frame of the download. -/
def receiveMessage (serde : Serde) (s : Session) (d : Download) :
    WireMessage → Except MetadataFetchError Download
  | .extended id payload =>
    if id = localMetadataId then
      match parseMetadataResponse serde.decode payload with
      | some (.ok (pieceIdx, totalSize, data)) => receiveData s d pieceIdx totalSize data
      | some (.error ()) => .error .metadataRejected
      -- A payload that is no answer is skipped.
      | none => .ok d
    else .ok d
  | _ => .ok d

/-- The loop that receives pieces; a frame that is no message ends it. -/
def receivePieces (serde : Serde) (s : Session) : Nat → Download → FetchM Download
  | 0, _ => fail (.io .metadataRead "early eof")
  | fuel + 1, d => do
    if s.totalPieces ≤ d.received then return d
    else
      match ← readNextFrame .metadataRead with
      | none => return d
      | some message =>
        match receiveMessage serde s d message with
        | .error e => fail e
        | .ok d => do
          let d ← requestMore serde s s.totalPieces d
          receivePieces serde s fuel d

/-- The pieces in order, with the checks on the whole. -/
def assemble (s : Session) (d : Download) : Except MetadataFetchError Bytes :=
  match contents d.pieces with
  | none => .error (.protocol .metadataRead "missing metadata piece")
  | some pieces =>
    let allData := pieces.flatten
    if allData.isEmpty then .error (.protocol .metadataRead "empty metadata")
    else if allData.length ≠ s.metadataSize then
      .error (.protocol .metadataRead
        s!"metadata size mismatch: got {allData.length}, expected {s.metadataSize}")
    else .ok allData

def download (serde : Serde) (s : Session) : FetchM Bytes := do
  let d ← requestMore serde s s.totalPieces (Download.start s)
  let d ← withFuel fun fuel => receivePieces serde s fuel d
  match assemble s d with
  | .ok data => return data
  | .error e => fail e

def fetchFromStreamWithLimit (serde : Serde) (infoHash : InfoHash) (ourPeerId : BitVec 160)
    (maxMetadataSize : Nat) : FetchM Bytes := do
  download serde (← openSession serde infoHash ourPeerId maxMetadataSize)

end Btfind
