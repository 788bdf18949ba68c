import Btfind.Metadata.Scheduler
import Btfind.Metadata.TorrentInfo
import Btfind.Store.Catalog
import Btfind.Store.HashJobs

/-!
# A metadata round

`process_hash_round_with_fetch` as an automaton that makes one call of the
database or of a peer at every step, so that everything else can happen in
between. The peer's answer, the clock, the random jitter and the fate of the
database call are inputs of the step.
-/

namespace Btfind

open Transaction

/-! ## Fetch errors -/

inductive IoStage
  | connect
  | handshakeRead
  | handshakeWrite
  | extensionRead
  | extensionWrite
  | metadataRead
  | metadataWrite

inductive ExtensionUnavailable
  | extensionsUnsupported
  | metadataUnsupported
  | metadataDisabled
  | metadataSizeMissing

inductive MetadataFetchError
  | io (stage : IoStage) (source : String)
  | timeout (stage : IoStage)
  | invalidHandshake
  | extensionUnavailable (reason : ExtensionUnavailable)
  | metadataTooLarge (size limit : Nat)
  | metadataRejected
  | protocol (stage : IoStage) (message : String)

def IoStage.toString : IoStage → String
  | .connect => "Connect"
  | .handshakeRead => "HandshakeRead"
  | .handshakeWrite => "HandshakeWrite"
  | .extensionRead => "ExtensionRead"
  | .extensionWrite => "ExtensionWrite"
  | .metadataRead => "MetadataRead"
  | .metadataWrite => "MetadataWrite"

def ExtensionUnavailable.toString : ExtensionUnavailable → String
  | .extensionsUnsupported => "peer does not support extensions"
  | .metadataUnsupported => "peer does not advertise ut_metadata"
  | .metadataDisabled => "peer disabled ut_metadata"
  | .metadataSizeMissing => "peer did not advertise metadata_size"

def MetadataFetchError.toString : MetadataFetchError → String
  | .io stage source => s!"I/O during {stage.toString}: {source}"
  | .timeout stage => s!"timeout during {stage.toString}"
  | .invalidHandshake => "invalid handshake or info_hash mismatch"
  | .extensionUnavailable reason => reason.toString
  | .metadataTooLarge size limit => s!"metadata size {size} exceeds limit {limit}"
  | .metadataRejected => "metadata rejected"
  | .protocol stage message => s!"protocol error during {stage.toString}: {message}"

def MetadataFetchError.longBackoff : MetadataFetchError → Bool
  | .extensionUnavailable _ | .metadataTooLarge _ _ | .metadataRejected => true
  | _ => false

def StoreError.toString : StoreError → String
  | .database _ message => message
  | .documentTooLarge hash budget =>
    s!"error occurred while encoding a value: search document {hexEncode hash} exceeds " ++
      s!"document byte limit {budget}; document was not truncated"
  | .invalid message => s!"encountered unexpected or invalid data: {message}"

/-! ## The automaton -/

/-- The call that a round makes next. -/
inductive RoundPhase
  | checkTerminal
  | filtering (todo eligible : List PeerContact)
  | attempting (todo : List PeerContact)
  | fetching (peer : PeerContact) (todo : List PeerContact)
  | recordMismatch (peer : PeerContact) (todo : List PeerContact)
  | recordFailure (peer : PeerContact) (todo : List PeerContact)
  | committing (info : TorrentInfo) (attempt : Nat) (todo : List PeerContact)
  | markUnsupported (message : String)
  | markTerminal (error : String)
  | parking (attemptCount : Nat)
  | scheduling (attemptCount : Nat) (nextAttemptAt : Int)
  | finished (outcome : JobOutcome)

structure Round where
  args : RoundArgs
  phase : RoundPhase
  attempts : Nat
  lastError : String
  longBackoff : Bool
  retryableAttempts : Nat
  nextEligibleAt : Option Int

/-- What the rounds of a process share. -/
structure RoundEnv where
  unicode : Unicode
  codecs : Codecs
  retryAfterHours : Nat

/-- What one step of a round meets. -/
structure Choice where
  turn : Turn
  fetched : Except MetadataFetchError Bytes
  jitter : Nat

def TorrentInfo.metadata (info : TorrentInfo) : TorrentMetadata :=
  ⟨info.name, info.pieceLength, info.totalSize, info.files⟩

namespace Round

/-- A spawned round. -/
def spawn (args : RoundArgs) : Round where
  args := args
  phase := .checkTerminal
  attempts := 0
  lastError := "no eligible peers"
  longBackoff := false
  retryableAttempts := 0
  nextEligibleAt := none

def infoHash (r : Round) : InfoHash := r.args.infoHash

/-- The error of a database read that fails. -/
def readError : Fate StoreError → Option StoreError
  | .commits => none
  | .fails e => some e
  | .uncertain e => some e

/-- `Some(next.map_or(t, |current| current.min(t)))` -/
def earliest (next : Option Int) (t : Int) : Option Int := some (next.elim t (min · t))

def outcome (r : Round) (complete terminal parked : Bool) : JobOutcome :=
  ⟨r.args.infoHash, r.attempts, complete, terminal, parked⟩

/-- A commit or an attempt record that failed. -/
def storageFailed (message : String) (todo : List PeerContact) (r : Round) : Round :=
  { r with
    phase := .attempting todo
    lastError := message
    retryableAttempts := saturatingAddU32 r.retryableAttempts 1 }

def filterPeer (env : RoundEnv) (turn : Turn) (peer : PeerContact)
    (todo eligible : List PeerContact) (r : Round) (c : Catalogue) : Round :=
  match readError turn.fate with
  -- A row that cannot be read puts the peer off for five minutes.
  | some _ =>
    { r with
      phase := .filtering todo eligible
      nextEligibleAt := earliest r.nextEligibleAt (saturatingAddI64 turn.now 300) }
  | none =>
    match peerRetryEligibility turn.now r.args.infoHash peer.addr env.retryAfterHours c with
    | .eligible => { r with phase := .filtering todo (eligible ++ [peer]) }
    | .retryAt t =>
      { r with
        phase := .filtering todo eligible
        nextEligibleAt := earliest r.nextEligibleAt t }
    | .rejected => { r with phase := .filtering todo eligible }

/-- The answer of a peer, before anything is stored about it. -/
def receive (env : RoundEnv) (fetched : Except MetadataFetchError Bytes) (peer : PeerContact)
    (todo : List PeerContact) (r : Round) : Round :=
  match fetched with
  | .ok bytes =>
    if env.codecs.verifyMetadataHash r.args.infoHash bytes = false then
      { r with phase := .recordMismatch peer todo, lastError := hashMismatchText }
    else
      match env.codecs.parseTorrentInfo bytes with
      | .ok info => { r with phase := .committing info 0 todo }
      -- The metadata has the right hash, so no other peer has better.
      | .error e => { r with phase := .markTerminal e }
  | .error e =>
    { r with
      phase := .recordFailure peer todo
      retryableAttempts := saturatingAddU32 r.retryableAttempts 1
      longBackoff := r.longBackoff || e.longBackoff
      lastError := e.toString }

/-- A commit that has returned an error. -/
def commitFailed (e : StoreError) (todo : List PeerContact) (r : Round) : Round :=
  if isUnsupportedSearchDocument e then { r with phase := .markUnsupported e.toString }
  else r.storageFailed s!"storage: {e.toString}" todo

/-- One attempt of `commit_metadata`. -/
def commit (env : RoundEnv) (turn : Turn) (info : TorrentInfo) (attempt : Nat)
    (todo : List PeerContact) (r : Round) (s : Store) : Round × Store :=
  if info.metadata.rejected then
    (r.commitFailed (.invalid "invalid metadata file or size") todo, s)
  else
    match transact turn.fate (Store.onCatalogue (commitMetadataTx env.unicode turn.now
        turn.maxAllowedPacket r.args.infoHash info.metadata)) s with
    | (.ok (), s) => ({ r with phase := .finished (r.outcome true false false) }, s)
    | (.error e, s) =>
      -- Four attempts at most, each a transaction of its own.
      if e.isRetryable && attempt < 3 then
        ({ r with phase := .committing info (attempt + 1) todo }, s)
      else (r.commitFailed e todo, s)

/-- When a peer of the round may be tried again. -/
def nextPeerEligibility (env : RoundEnv) (now : Int) (r : Round) : Option Int :=
  if 0 < r.retryableAttempts ∧ 0 < env.retryAfterHours then
    earliest r.nextEligibleAt (saturatingAddI64 now (env.retryAfterHours * 3600))
  else r.nextEligibleAt

/-- The exponential backoff of the job, with jitter. -/
def backoffAt (now : Int) (jitter attemptCount : Nat) (r : Round) : Int :=
  let exponent := min attemptCount 10
  let base := if r.longBackoff then 900 else 30
  let delay := min (base * 2 ^ exponent) (24 * 60 * 60)
  -- Up to a quarter of the delay comes on top at random.
  saturatingAddI64 now (delay + jitter % (max (delay / 4) 1 + 1) : Nat)

/-- The decision after the last peer: park the job or schedule a retry. -/
def conclude (env : RoundEnv) (now : Int) (jitter : Nat) (r : Round) : Round :=
  let attemptCount := saturatingAddU32 r.args.priorAttemptCount r.attempts
  let nextPeer := r.nextPeerEligibility env now
  -- Without a cooldown a peer that failed may be asked again at once.
  let hasRetryablePeer :=
    nextPeer.isSome || (0 < r.retryableAttempts && env.retryAfterHours = 0)
  if hasRetryablePeer = false then { r with phase := .parking attemptCount }
  else
    let backoff := r.backoffAt now jitter attemptCount
    { r with phase := .scheduling attemptCount (nextPeer.elim backoff (max backoff)) }

/-- `update_hash_job_failure` -/
def updateJob (turn : Turn) (hash : InfoHash) (status : JobStatus) (attempts : Nat)
    (next : Int) (failure : String) (s : Store) : Except StoreError Nat × Store :=
  transact turn.fate (Store.onCatalogue
    (updateHashJobFailureTx turn.now hash status attempts next failure)) s

/-- `set_peer_attempt` -/
def setAttempt (turn : Turn) (hash : InfoHash) (peer : PeerContact) (error : Option String)
    (s : Store) : Except StoreError Unit × Store :=
  transact turn.fate (Store.onCatalogue (setPeerAttemptTx turn.now hash peer.addr error)) s

/-- The transaction of an attempt record takes effect. -/
def recordTakesEffect (turn : Turn) (hash : InfoHash) (c : Catalogue) : Bool :=
  match turn.fate with
  | .fails _ => false
  | _ => (c.torrents.lookup hash).isSome

/-- One step of a round. -/
def step (env : RoundEnv) (choice : Choice) (r : Round) (s : Store) : Round × Store :=
  let turn := choice.turn
  match r.phase with
  | .checkTerminal =>
    match readError turn.fate with
    -- The loop asks again after a pause.
    | some _ => (r, s)
    | none =>
      if hashJobIsTerminal r.args.infoHash s.catalogue then
        ({ r with phase := .finished (r.outcome false true false) }, s)
      else ({ r with phase := .filtering r.args.peers [] }, s)
  | .filtering [] eligible => ({ r with phase := .attempting eligible }, s)
  | .filtering (peer :: todo) eligible =>
    (r.filterPeer env turn peer todo eligible s.catalogue, s)
  | .attempting [] => (r.conclude env turn.now choice.jitter, s)
  | .attempting (peer :: todo) =>
    let r := { r with attempts := saturatingAddU32 r.attempts 1 }
    match setAttempt turn r.args.infoHash peer none s with
    | (.ok (), s) => ({ r with phase := .fetching peer todo }, s)
    | (.error e, s) =>
      (r.storageFailed s!"storage: failed to record peer attempt: {e.toString}" todo, s)
  | .fetching peer todo => (r.receive env choice.fetched peer todo, s)
  -- An error of the two records that follow is logged and no more.
  | .recordMismatch peer todo =>
    ({ r with phase := .attempting todo },
      (setAttempt turn r.args.infoHash peer (some hashMismatchText) s).2)
  | .recordFailure peer todo =>
    ({ r with phase := .attempting todo },
      (setAttempt turn r.args.infoHash peer (some r.lastError) s).2)
  | .committing info attempt todo => r.commit env turn info attempt todo s
  | .markUnsupported message =>
    match updateJob turn r.args.infoHash .unsupported
        (saturatingAddU32 r.args.priorAttemptCount r.attempts) 0 message s with
    | (.ok _, s) => ({ r with phase := .finished (r.outcome false true false) }, s)
    -- The loop makes the same request again after a pause.
    | (.error _, s) => (r, s)
  | .markTerminal error =>
    let status := if isUnsupportedParse error then .unsupported else .invalid
    ({ r with phase := .finished (r.outcome false true false) },
      (updateJob turn r.args.infoHash status
        (saturatingAddU32 r.args.priorAttemptCount r.attempts) 0 error s).2)
  | .parking attemptCount =>
    ({ r with phase := .finished (r.outcome false false true) },
      (updateJob turn r.args.infoHash .waitingPeers attemptCount 0 r.lastError s).2)
  | .scheduling attemptCount next =>
    ({ r with phase := .finished (r.outcome false false false) },
      (updateJob turn r.args.infoHash .retryAt attemptCount next r.lastError s).2)
  | .finished _ => (r, s)

end Round

end Btfind
