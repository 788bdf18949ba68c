import Btfind.Library.Transition
import Btfind.Metadata.RoundSteps
import Btfind.Store.JobRows

/-!
# What a round calls and counts

The calls of `process_hash_round_with_fetch` that matter to its caller, and its counters, in
the order in which it makes them. `Logs` says for every branch what it adds to them.
-/

namespace Btfind

open Transaction

def MetadataFetchError.reason : MetadataFetchError → MetadataFailureReason
  | .io .connect _ => .connect
  | .io .handshakeRead _ | .io .handshakeWrite _ => .handshakeIo
  | .io .extensionRead _ | .io .extensionWrite _ => .extensionIo
  | .io .metadataRead _ | .io .metadataWrite _ => .metadataIo
  | .timeout .connect => .connectTimeout
  | .timeout .handshakeRead | .timeout .handshakeWrite => .handshakeTimeout
  | .timeout .extensionRead | .timeout .extensionWrite => .extensionTimeout
  | .timeout .metadataRead | .timeout .metadataWrite => .metadataTimeout
  | .invalidHandshake => .handshake
  | .extensionUnavailable .extensionsUnsupported => .extensionsUnsupported
  | .extensionUnavailable .metadataUnsupported => .metadataUnsupported
  | .extensionUnavailable .metadataDisabled => .metadataDisabled
  | .extensionUnavailable .metadataSizeMissing => .metadataSizeMissing
  | .metadataTooLarge _ _ => .metadataTooLarge
  | .metadataRejected => .rejected
  | .protocol .extensionRead _ | .protocol .extensionWrite _ => .extensionProtocol
  | .protocol _ _ => .protocol

/-- The status that a counter of retrieval outcomes stands for. -/
def MetadataRetrievalOutcome.status : MetadataRetrievalOutcome → JobStatus
  | .complete => .complete
  | .retryAt => .retryAt
  | .waitingPeers => .waitingPeers
  | .invalid => .invalid
  | .unsupported => .unsupported

/-- A request to write the job row has the number of rows as its answer, unless it failed.
The reason of a failed fetch is emitted here when the fetch returns. -/
inductive RoundEvent
  | eligible (peer : PeerContact)
  | attempted (peer : PeerContact)
  | fetched (peer : PeerContact)
  | committed
  | concluded (now : Int)
  | requested (status : JobStatus) (attempts : Nat) (next : Int) (answer : Option Nat)
  | persistenceError
  | counted (outcome : MetadataRetrievalOutcome)
  | emitted (event : CrawlStatsEvent)
  deriving DecidableEq

namespace RoundEvent

def eligible? : RoundEvent → Option PeerContact
  | .eligible peer => some peer
  | _ => none

def attempted? : RoundEvent → Option PeerContact
  | .attempted peer => some peer
  | _ => none

def fetched? : RoundEvent → Option PeerContact
  | .fetched peer => some peer
  | _ => none

def counted? : RoundEvent → Option MetadataRetrievalOutcome
  | .counted outcome => some outcome
  | _ => none

def answer? : RoundEvent → Option (Option Nat)
  | .requested _ _ _ answer => some answer
  | _ => none

/-- Counters that say nothing about the job. -/
def isNoise : RoundEvent → Bool
  | .persistenceError | .emitted _ => true
  | _ => false

end RoundEvent

open RoundEvent

def eligiblePeers (log : List RoundEvent) : List PeerContact := log.filterMap eligible?

def attemptedPeers (log : List RoundEvent) : List PeerContact := log.filterMap attempted?

def fetchedPeers (log : List RoundEvent) : List PeerContact := log.filterMap fetched?

def countedOutcomes (log : List RoundEvent) : List MetadataRetrievalOutcome :=
  log.filterMap counted?

def writeAnswers (log : List RoundEvent) : List (Option Nat) := log.filterMap answer?

/-! ## The events -/

def recordRetrievalOutcome (rowsAffected : Nat) (outcome : MetadataRetrievalOutcome) :
    List RoundEvent :=
  if 0 < rowsAffected then [.counted outcome] else []

def logStorageResult : Except StoreError Unit → List RoundEvent
  | .ok () => []
  | .error _ => [.persistenceError]

namespace Round

/-- `mark_hash_job_failure`, and the counter of its outcome. -/
def markHashJobFailure (turn : Turn) (hash : InfoHash) (status : JobStatus) (attempts : Nat)
    (next : Int) (failure : String) (outcome : MetadataRetrievalOutcome) (s : Store) :
    List RoundEvent :=
  match (updateJob turn hash status attempts next failure s).1 with
  | .ok rows => .requested status attempts next (some rows) :: recordRetrievalOutcome rows outcome
  | .error _ => [.requested status attempts next none, .persistenceError]

/-- The events of one step. -/
def events (env : RoundEnv) (choice : Choice) (r : Round) (s : Store) : List RoundEvent :=
  let turn := choice.turn
  match r.phase with
  | .checkTerminal => if (readError turn.fate).isSome then [.persistenceError] else []
  | .filtering [] _ => []
  | .filtering (peer :: _) _ =>
    if (readError turn.fate).isSome then [.persistenceError]
    else
      match peerRetryEligibility turn.now r.args.infoHash peer.addr env.retryAfterHours
          s.catalogue with
      | .eligible => [.eligible peer]
      | _ => []
  | .attempting [] => [.concluded turn.now]
  | .attempting (peer :: _) =>
    .attempted peer ::
      match (setAttempt turn r.args.infoHash peer none s).1 with
      | .ok () => [.fetched peer]
      | .error _ => [.persistenceError]
  | .fetching _ _ =>
    match choice.fetched with
    | .ok _ => []
    | .error e => [.emitted (.metadataFetchFailed e.reason)]
  | .recordMismatch peer _ =>
    logStorageResult (setAttempt turn r.args.infoHash peer (some hashMismatchText) s).1 ++
      [.emitted (.metadataFetchFailed .hashMismatch)]
  | .recordFailure peer _ =>
    logStorageResult (setAttempt turn r.args.infoHash peer (some r.lastError) s).1
  | .committing info attempt todo =>
    match (r.commit env turn info attempt todo s).1.phase with
    | .finished _ => [.committed, .counted .complete, .emitted .metadataFetched]
    | .attempting _ => [.persistenceError]
    | _ => []
  | .markUnsupported message =>
    markHashJobFailure turn r.args.infoHash .unsupported
      (saturatingAddU32 r.args.priorAttemptCount r.attempts) 0 message .unsupported s
  | .markTerminal error =>
    let unsupported := isUnsupportedParse error
    markHashJobFailure turn r.args.infoHash (if unsupported then .unsupported else .invalid)
      (saturatingAddU32 r.args.priorAttemptCount r.attempts) 0 error
      (if unsupported then .unsupported else .invalid) s ++
        [.emitted (.metadataFetchFailed .parse)]
  | .parking attemptCount =>
    markHashJobFailure turn r.args.infoHash .waitingPeers attemptCount 0 r.lastError
      .waitingPeers s
  | .scheduling attemptCount next =>
    markHashJobFailure turn r.args.infoHash .retryAt attemptCount next r.lastError .retryAt s
  | .finished _ => []

end Round

/-! ## What a step adds -/

/-- The job row as a request wrote it. -/
def JobWritten (hash : InfoHash) (status : JobStatus) (attempts : Nat) (next : Int)
    (c : Catalogue) : Prop :=
  ∃ row, c.hashJobs.lookup hash = some row ∧ row.status = status ∧
    row.attemptCount = attempts ∧ row.nextAttemptAt = next

theorem JobWritten.jobStatus {hash : InfoHash} {status : JobStatus} {attempts : Nat} {next : Int}
    {c : Catalogue} (h : JobWritten hash status attempts next c) :
    jobStatus hash c = some status := by
  obtain ⟨row, hrow, hstatus, -⟩ := h
  rw [Btfind.jobStatus, hrow, Option.map_some, hstatus]

namespace Round

variable {env : RoundEnv} {choice : Choice} {r : Round} {s : Store}

/-- A request to write the job row and the store after it. -/
inductive Marks (hash : InfoHash) (status : JobStatus) (attempts : Nat) (next : Int)
    (outcome : MetadataRetrievalOutcome) (s' : Store) : List RoundEvent → Prop
  | failed : Marks hash status attempts next outcome s'
      [.requested status attempts next none, .persistenceError]
  | missed (hrow : ∀ old, jobStatus hash s'.catalogue = some old → old = .complete) :
      Marks hash status attempts next outcome s' [.requested status attempts next (some 0)]
  | matched {rows : Nat} (hrows : 0 < rows)
      (hrow : JobWritten hash status attempts next s'.catalogue) :
      Marks hash status attempts next outcome s'
        [.requested status attempts next (some rows), .counted outcome]

/-- The phases, the attempts and the store before and after a step, with its events. -/
inductive Logs (env : RoundEnv) (choice : Choice) (r : Round) (s : Store) :
    RoundPhase → RoundPhase → Nat → Store → List RoundEvent → Prop
  | recheck {s' : Store} (hfate : choice.turn.fate ≠ .commits) :
      Logs env choice r s .checkTerminal .checkTerminal r.attempts s' [.persistenceError]
  | alreadyTerminal (h : hashJobIsTerminal r.args.infoHash s.catalogue = true) :
      Logs env choice r s .checkTerminal (.finished (r.outcome false true false)) r.attempts s []
  | admitted {s' : Store} :
      Logs env choice r s .checkTerminal (.filtering r.args.peers []) r.attempts s' []
  | skipped {peer : PeerContact} {todo eligible : List PeerContact} {s' : Store}
      {events : List RoundEvent} (hnoise : ∀ e ∈ events, e.isNoise = true) :
      Logs env choice r s (.filtering (peer :: todo) eligible) (.filtering todo eligible)
        r.attempts s' events
  | eligible {peer : PeerContact} {todo eligible : List PeerContact} {s' : Store} :
      Logs env choice r s (.filtering (peer :: todo) eligible)
        (.filtering todo (eligible ++ [peer])) r.attempts s' [.eligible peer]
  | filtered {eligible : List PeerContact} {s' : Store} :
      Logs env choice r s (.filtering [] eligible) (.attempting eligible) r.attempts s' []
  | refused {peer : PeerContact} {todo : List PeerContact} {s' : Store} :
      Logs env choice r s (.attempting (peer :: todo)) (.attempting todo)
        (saturatingAddU32 r.attempts 1) s' [.attempted peer, .persistenceError]
  | recorded {peer : PeerContact} {todo : List PeerContact} {s' : Store} :
      Logs env choice r s (.attempting (peer :: todo)) (.fetching peer todo)
        (saturatingAddU32 r.attempts 1) s' [.attempted peer, .fetched peer]
  | parked {s' : Store} :
      Logs env choice r s (.attempting [])
        (.parking (saturatingAddU32 r.args.priorAttemptCount r.attempts)) r.attempts s'
        [.concluded choice.turn.now]
  | scheduled {s' : Store} {next : Int}
      (hlater : choice.turn.now ≤ maxTimestamp → choice.turn.now < next) :
      Logs env choice r s (.attempting [])
        (.scheduling (saturatingAddU32 r.args.priorAttemptCount r.attempts) next) r.attempts s'
        [.concluded choice.turn.now]
  | mismatched {peer : PeerContact} {todo : List PeerContact} {s' : Store} :
      Logs env choice r s (.fetching peer todo) (.recordMismatch peer todo) r.attempts s' []
  | failed {peer : PeerContact} {todo : List PeerContact} {s' : Store} {e : CrawlStatsEvent} :
      Logs env choice r s (.fetching peer todo) (.recordFailure peer todo) r.attempts s'
        [.emitted e]
  | parsed {peer : PeerContact} {todo : List PeerContact} {info : TorrentInfo} {s' : Store} :
      Logs env choice r s (.fetching peer todo) (.committing info 0 todo) r.attempts s' []
  | rejected {peer : PeerContact} {todo : List PeerContact} {error : String} {s' : Store} :
      Logs env choice r s (.fetching peer todo) (.markTerminal error) r.attempts s' []
  | notedMismatch {peer : PeerContact} {todo : List PeerContact} {s' : Store}
      {events : List RoundEvent} (hnoise : ∀ e ∈ events, e.isNoise = true) :
      Logs env choice r s (.recordMismatch peer todo) (.attempting todo) r.attempts s' events
  | notedFailure {peer : PeerContact} {todo : List PeerContact} {s' : Store}
      {events : List RoundEvent} (hnoise : ∀ e ∈ events, e.isNoise = true) :
      Logs env choice r s (.recordFailure peer todo) (.attempting todo) r.attempts s' events
  | committed {info : TorrentInfo} {attempt : Nat} {todo : List PeerContact} {s' : Store}
      (hrow : jobStatus r.args.infoHash s'.catalogue = some .complete) :
      Logs env choice r s (.committing info attempt todo)
        (.finished (r.outcome true false false)) r.attempts s'
        [.committed, .counted .complete, .emitted .metadataFetched]
  | recommit {info : TorrentInfo} {attempt : Nat} {todo : List PeerContact} {s' : Store}
      (hfew : attempt < 3) :
      Logs env choice r s (.committing info attempt todo) (.committing info (attempt + 1) todo)
        r.attempts s' []
  | tooLarge {info : TorrentInfo} {attempt : Nat} {todo : List PeerContact} {message : String}
      {s' : Store} :
      Logs env choice r s (.committing info attempt todo) (.markUnsupported message) r.attempts
        s' []
  | uncommitted {info : TorrentInfo} {attempt : Nat} {todo : List PeerContact} {s' : Store} :
      Logs env choice r s (.committing info attempt todo) (.attempting todo) r.attempts s'
        [.persistenceError]
  | remark {message : String} {s' : Store} (hfate : choice.turn.fate ≠ .commits) :
      Logs env choice r s (.markUnsupported message) (.markUnsupported message) r.attempts s'
        [.requested .unsupported (saturatingAddU32 r.args.priorAttemptCount r.attempts) 0 none,
          .persistenceError]
  | marked {message : String} {s' : Store} {events : List RoundEvent}
      (hmarks : Marks r.args.infoHash .unsupported
        (saturatingAddU32 r.args.priorAttemptCount r.attempts) 0 .unsupported s' events) :
      Logs env choice r s (.markUnsupported message) (.finished (r.outcome false true false))
        r.attempts s' events
  | markedTerminal {error : String} {s' : Store} {events : List RoundEvent}
      {outcome : MetadataRetrievalOutcome}
      (houtcome : outcome = .unsupported ∨ outcome = .invalid)
      (hmarks : Marks r.args.infoHash outcome.status
        (saturatingAddU32 r.args.priorAttemptCount r.attempts) 0 outcome s' events) :
      Logs env choice r s (.markTerminal error) (.finished (r.outcome false true false))
        r.attempts s' (events ++ [.emitted (.metadataFetchFailed .parse)])
  | parkedJob {attemptCount : Nat} {s' : Store} {events : List RoundEvent}
      (hmarks : Marks r.args.infoHash .waitingPeers attemptCount 0 .waitingPeers s' events) :
      Logs env choice r s (.parking attemptCount) (.finished (r.outcome false false true))
        r.attempts s' events
  | scheduledJob {attemptCount : Nat} {next : Int} {s' : Store} {events : List RoundEvent}
      (hmarks : Marks r.args.infoHash .retryAt attemptCount next .retryAt s' events) :
      Logs env choice r s (.scheduling attemptCount next) (.finished (r.outcome false false false))
        r.attempts s' events
  | stays {outcome : JobOutcome} {s' : Store} :
      Logs env choice r s (.finished outcome) (.finished outcome) r.attempts s' []

theorem updateHashJobFailureTx_answer {now : Int} {hash : InfoHash} {status : JobStatus}
    {attempts rows : Nat} {next : Int} {failure : String} {c c' : Catalogue}
    (h : updateHashJobFailureTx now hash status attempts next failure c = .ok (rows, c')) :
    (rows = 0 ∧ ∀ old, jobStatus hash c' = some old → old = .complete) ∨
      (0 < rows ∧ JobWritten hash status attempts next c') := by
  rw [updateHashJobFailureTx] at h
  split at h
  · next hrow =>
    cases h
    refine Or.inl ⟨rfl, fun old hold => ?_⟩
    rw [jobStatus, hrow] at hold
    cases hold
  · next row hrow =>
    split at h
    · next hcomplete =>
      cases h
      refine Or.inl ⟨rfl, fun old hold => ?_⟩
      rw [jobStatus, hrow] at hold
      cases hold
      exact hcomplete
    · cases h
      exact Or.inr ⟨Nat.one_pos, _, AList.lookup_insert _, rfl, rfl, rfl⟩

theorem marks_markHashJobFailure (turn : Turn) (hash : InfoHash) (status : JobStatus)
    (attempts : Nat) (next : Int) (failure : String) (outcome : MetadataRetrievalOutcome)
    (s : Store) :
    Marks hash status attempts next outcome
      (updateJob turn hash status attempts next failure s).2
      (markHashJobFailure turn hash status attempts next failure outcome s) := by
  rw [markHashJobFailure]
  split
  · next rows hr =>
    have hbody := (Store.onCatalogue_ok (transact_ok hr)).1
    obtain ⟨rfl, hrow⟩ | ⟨hrows, hrow⟩ := updateHashJobFailureTx_answer hbody
    · exact .missed hrow
    · rw [recordRetrievalOutcome, if_pos hrows]
      exact .matched hrows hrow
  · exact .failed

/-- A write that is committed is answered. -/
theorem updateJob_commits {turn : Turn} (hfate : turn.fate = .commits) (hash : InfoHash)
    (status : JobStatus) (attempts : Nat) (next : Int) (failure : String) (s : Store) :
    ∃ rows, (updateJob turn hash status attempts next failure s).1 = .ok rows := by
  obtain ⟨rows, c', hok⟩ : ∃ rows c', updateHashJobFailureTx turn.now hash status attempts next
      failure s.catalogue = .ok (rows, c') := by
    rw [updateHashJobFailureTx]
    cases s.catalogue.hashJobs.lookup hash with
    | none => exact ⟨0, _, rfl⟩
    | some row =>
      by_cases hcomplete : row.status = .complete
      · exact ⟨0, _, if_pos hcomplete⟩
      · exact ⟨1, _, if_neg hcomplete⟩
  exact ⟨rows, by simp [updateJob, hfate, transact, Store.onCatalogue, hok]⟩

theorem noise_logStorageResult (result : Except StoreError Unit) :
    ∀ e ∈ logStorageResult result, e.isNoise = true := by
  cases result with
  | ok => exact List.forall_mem_nil _
  | error =>
    intro e he
    rw [List.mem_singleton.mp he]
    rfl

theorem backoffAt_later {now : Int} (hnow : now ≤ maxTimestamp) (jitter attemptCount : Nat) :
    now < r.backoffAt now jitter attemptCount := by
  rw [backoffAt]
  generalize hbase : (if r.longBackoff = true then 900 else 30) = base
  have hpos : 0 < base := by
    rw [← hbase]
    split <;> decide
  have hdelay : 0 < min (base * 2 ^ min attemptCount 10) (24 * 60 * 60) :=
    Nat.lt_min.mpr ⟨Nat.mul_pos hpos (Nat.two_pow_pos _), by decide⟩
  generalize min (base * 2 ^ min attemptCount 10) (24 * 60 * 60) = delay at hdelay ⊢
  rw [saturatingAddI64, Int.lt_min]
  rw [maxTimestamp] at hnow
  refine ⟨?_, ?_⟩
  · have hsum : (0 : Int) < (delay + jitter % (max (delay / 4) 1 + 1) : Nat) :=
      Int.natCast_pos.mpr (Nat.add_pos_left hdelay _)
    omega
  · rw [i64Max]
    omega

theorem conclude_logs (env : RoundEnv) (now : Int) (jitter : Nat) (r : Round) :
    (r.conclude env now jitter).attempts = r.attempts ∧
      ((r.conclude env now jitter).phase =
          .parking (saturatingAddU32 r.args.priorAttemptCount r.attempts) ∨
        ∃ next, (r.conclude env now jitter).phase =
            .scheduling (saturatingAddU32 r.args.priorAttemptCount r.attempts) next ∧
          (now ≤ maxTimestamp → now < next)) := by
  rw [conclude]
  simp only
  split
  · exact ⟨rfl, Or.inl rfl⟩
  · refine ⟨rfl, Or.inr ⟨_, rfl, fun hnow => ?_⟩⟩
    have hlater := backoffAt_later (r := r) hnow jitter
      (saturatingAddU32 r.args.priorAttemptCount r.attempts)
    cases r.nextPeerEligibility env now with
    | none => exact hlater
    | some t => exact lt_of_lt_of_le hlater (le_max_left _ _)

theorem commitFailed_attempts (e : StoreError) (todo : List PeerContact) (r : Round) :
    (r.commitFailed e todo).attempts = r.attempts := by
  rw [commitFailed]
  split <;> rfl

/-- A commit that failed ends the round or leaves it to the next peer. -/
theorem logs_commitFailed {e : StoreError} {info : TorrentInfo} {attempt : Nat}
    {todo : List PeerContact} {s' : Store} :
    Logs env choice r s (.committing info attempt todo) (r.commitFailed e todo).phase
      (r.commitFailed e todo).attempts s'
      (match (r.commitFailed e todo).phase with
      | .finished _ => [.committed, .counted .complete, .emitted .metadataFetched]
      | .attempting _ => [.persistenceError]
      | _ => []) := by
  rw [commitFailed_attempts, commitFailed]
  split
  · exact .tooLarge
  · exact .uncommitted

theorem commit_logs (env : RoundEnv) (choice : Choice) (r : Round) (s : Store)
    (info : TorrentInfo) (attempt : Nat) (todo : List PeerContact) :
    Logs env choice r s (.committing info attempt todo)
      (r.commit env choice.turn info attempt todo s).1.phase
      (r.commit env choice.turn info attempt todo s).1.attempts
      (r.commit env choice.turn info attempt todo s).2
      (match (r.commit env choice.turn info attempt todo s).1.phase with
      | .finished _ => [.committed, .counted .complete, .emitted .metadataFetched]
      | .attempting _ => [.persistenceError]
      | _ => []) := by
  rw [commit]
  split
  · exact logs_commitFailed
  · split
    · next s' hr =>
      have hok := transact_ok (show (transact choice.turn.fate (Store.onCatalogue (commitMetadataTx
        env.unicode choice.turn.now choice.turn.maxAllowedPacket r.args.infoHash info.metadata))
          s).1 = .ok () by rw [hr])
      rw [hr] at hok
      obtain ⟨old, hcommitted⟩ := commitMetadataTx_ok (Store.onCatalogue_ok hok).1
      exact .committed (by rw [hcommitted.jobStatus, if_pos rfl])
    · split
      · next hagain => exact .recommit (of_decide_eq_true (Bool.and_eq_true _ _ ▸ hagain).2)
      · exact logs_commitFailed

/-- A request that the database did not answer is made again. -/
theorem unanswered {turn : Turn} {hash : InfoHash} {status : JobStatus} {attempts : Nat}
    {next : Int} {failure : String} {e : StoreError} {s' : Store}
    (h : updateJob turn hash status attempts next failure s = (.error e, s')) :
    turn.fate ≠ .commits := by
  intro hfate
  obtain ⟨rows, hrows⟩ := updateJob_commits hfate hash status attempts next failure s
  rw [h] at hrows
  cases hrows

theorem step_logs (env : RoundEnv) (choice : Choice) (r : Round) (s : Store) :
    Logs env choice r s r.phase (r.step env choice s).1.phase (r.step env choice s).1.attempts
      (r.step env choice s).2 (r.events env choice s) := by
  rw [step, events]
  cases hp : r.phase with
  | checkTerminal =>
    -- A status that cannot be read is asked for again in the next step.
    cases hf : readError choice.turn.fate with
    | some e =>
      have hfate : choice.turn.fate ≠ .commits := by
        rintro heq
        rw [heq] at hf
        cases hf
      simp only [hp]
      exact .recheck hfate
    | none =>
      simp only
      split
      · next h => exact .alreadyTerminal h
      · exact .admitted
  | filtering todo eligible =>
    cases todo with
    | nil => exact .filtered
    | cons peer todo =>
      simp only [filterPeer]
      -- A peer whose row cannot be read is skipped.
      cases hf : readError choice.turn.fate with
      | some e => exact .skipped (by simp [isNoise])
      | none =>
        simp only [Option.isSome_none, Bool.false_eq_true, if_false]
        cases peerRetryEligibility choice.turn.now r.args.infoHash peer.addr env.retryAfterHours
          s.catalogue with
        | eligible => exact .eligible
        | retryAt | rejected => exact .skipped (List.forall_mem_nil _)
  | attempting todo =>
    cases todo with
    | nil =>
      -- No peer is left: the round parks its job or schedules a retry.
      obtain ⟨hattempts, hphase | ⟨next, hphase, hlater⟩⟩ :=
        conclude_logs env choice.turn.now choice.jitter r
      · simp only
        rw [hattempts, hphase]
        exact .parked
      · simp only
        rw [hattempts, hphase]
        exact .scheduled hlater
    | cons peer todo =>
      simp only
      split
      · next hr =>
        simp only [hr]
        exact .recorded
      · next hr =>
        simp only [hr]
        exact .refused
  | fetching peer todo =>
    simp only
    cases choice.fetched with
    | error e => exact .failed
    | ok bytes =>
      simp only [receive]
      split
      · exact .mismatched
      · split
        · exact .parsed
        · exact .rejected
  | recordMismatch peer todo =>
    refine .notedMismatch fun e he => ?_
    obtain hlogged | hemitted := List.mem_append.mp he
    · exact noise_logStorageResult _ e hlogged
    · rw [List.mem_singleton.mp hemitted]
      rfl
  | recordFailure peer todo => exact .notedFailure (noise_logStorageResult _)
  | committing info attempt todo => exact commit_logs env choice r s info attempt todo
  | markUnsupported message =>
    have hmarks := marks_markHashJobFailure choice.turn r.args.infoHash .unsupported
      (saturatingAddU32 r.args.priorAttemptCount r.attempts) 0 message .unsupported s
    simp only
    split
    · next hr =>
      rw [hr] at hmarks
      exact .marked hmarks
    · next hr =>
      rw [markHashJobFailure, hr]
      simp only [hp]
      exact .remark (unanswered hr)
  | markTerminal error =>
    have hmarks := marks_markHashJobFailure choice.turn r.args.infoHash
    simp only
    cases isUnsupportedParse error with
    | true => exact .markedTerminal (Or.inl rfl) (hmarks .unsupported _ 0 error .unsupported s)
    | false => exact .markedTerminal (Or.inr rfl) (hmarks .invalid _ 0 error .invalid s)
  | parking attemptCount => exact .parkedJob (marks_markHashJobFailure ..)
  | scheduling attemptCount next => exact .scheduledJob (marks_markHashJobFailure ..)
  | finished outcome =>
    simp only [hp]
    exact .stays

end Round

/-! ## Runs -/

structure RoundRun where
  round : Round
  store : Store
  log : List RoundEvent

/-- Other tasks can write anything between two steps of the round. -/
inductive RoundLabel
  | stepped (choice : Choice)
  | interfered (store : Store)

def RoundPhase.isFinished : RoundPhase → Bool
  | .finished _ => true
  | _ => false

namespace RoundRun

def start (args : RoundArgs) (store : Store) : RoundRun := ⟨.spawn args, store, []⟩

def next (env : RoundEnv) (q : RoundRun) : RoundLabel → Option RoundRun
  | .stepped choice =>
    if q.round.phase.isFinished = false ∧ choice.turn.now ≤ maxTimestamp then
      some {
        round := (q.round.step env choice q.store).1
        store := (q.round.step env choice q.store).2
        log := q.log ++ q.round.events env choice q.store }
    else none
  | .interfered store => some { q with store := store }

def Step (env : RoundEnv) (q : RoundRun) (e : RoundLabel) (q' : RoundRun) : Prop :=
  next env q e = some q'

end RoundRun

end Btfind
