import Btfind.Metadata.Round

/-!
# What a step of a round can do

The inversion lemmas of the automaton: the phases that can follow each phase,
with the guards that matter, and the one write that a step can make.
-/

namespace Btfind

open Transaction

/-- The peer and the error text of the attempt record that a phase writes. -/
def RoundPhase.records (lastError : String) : RoundPhase → Option (PeerContact × Option String)
  | .attempting (peer :: _) => some (peer, none)
  | .recordMismatch peer _ => some (peer, some hashMismatchText)
  | .recordFailure peer _ => some (peer, some lastError)
  | _ => none

/-- The job status that a phase writes through `update_hash_job_failure`. -/
def RoundPhase.writes : RoundPhase → Option JobStatus
  | .markUnsupported _ => some .unsupported
  | .markTerminal error => some (if isUnsupportedParse error then .unsupported else .invalid)
  | .parking _ => some .waitingPeers
  | .scheduling _ _ => some .retryAt
  | _ => none

/-- A round never writes `complete` through `update_hash_job_failure`. -/
theorem RoundPhase.writes_ne_complete {phase : RoundPhase} {status : JobStatus}
    (h : phase.writes = some status) : status ≠ .complete := by
  unfold RoundPhase.writes at h
  split at h <;> cases h
  · nofun
  · split <;> nofun
  · nofun
  · nofun

namespace Round

variable {env : RoundEnv} {choice : Choice} {r : Round} {s : Store} {c c' : Catalogue}

/-- The phases that can follow a phase. -/
inductive Moves (env : RoundEnv) (choice : Choice) (r : Round) (c : Catalogue) :
    RoundPhase → RoundPhase → Prop
  | recheck : Moves env choice r c .checkTerminal .checkTerminal
  | alreadyTerminal (h : hashJobIsTerminal r.args.infoHash c = true) :
      Moves env choice r c .checkTerminal (.finished (r.outcome false true false))
  | admitted (h : hashJobIsTerminal r.args.infoHash c = false) :
      Moves env choice r c .checkTerminal (.filtering r.args.peers [])
  | skipped (peer : PeerContact) (todo eligible : List PeerContact) :
      Moves env choice r c (.filtering (peer :: todo) eligible) (.filtering todo eligible)
  | eligible (peer : PeerContact) (todo eligible : List PeerContact)
      (h : peerRetryEligibility choice.turn.now r.args.infoHash peer.addr env.retryAfterHours c =
        .eligible) :
      Moves env choice r c (.filtering (peer :: todo) eligible)
        (.filtering todo (eligible ++ [peer]))
  | filtered (eligible : List PeerContact) :
      Moves env choice r c (.filtering [] eligible) (.attempting eligible)
  | refused (peer : PeerContact) (todo : List PeerContact) :
      Moves env choice r c (.attempting (peer :: todo)) (.attempting todo)
  | recorded (peer : PeerContact) (todo : List PeerContact)
      (h : recordTakesEffect choice.turn r.args.infoHash c = true) :
      Moves env choice r c (.attempting (peer :: todo)) (.fetching peer todo)
  | parked (attemptCount : Nat) : Moves env choice r c (.attempting []) (.parking attemptCount)
  | scheduled (attemptCount : Nat) (next : Int) :
      Moves env choice r c (.attempting []) (.scheduling attemptCount next)
  | mismatched (peer : PeerContact) (todo : List PeerContact) :
      Moves env choice r c (.fetching peer todo) (.recordMismatch peer todo)
  | failed (peer : PeerContact) (todo : List PeerContact) :
      Moves env choice r c (.fetching peer todo) (.recordFailure peer todo)
  | parsed (peer : PeerContact) (todo : List PeerContact) {bytes : Bytes} {info : TorrentInfo}
      (hfetched : choice.fetched = .ok bytes)
      (hverified : env.codecs.verifyMetadataHash r.args.infoHash bytes = true)
      (hparsed : env.codecs.parseTorrentInfo bytes = .ok info) :
      Moves env choice r c (.fetching peer todo) (.committing info 0 todo)
  | rejected (peer : PeerContact) (todo : List PeerContact) (error : String) :
      Moves env choice r c (.fetching peer todo) (.markTerminal error)
  | notedMismatch (peer : PeerContact) (todo : List PeerContact) :
      Moves env choice r c (.recordMismatch peer todo) (.attempting todo)
  | notedFailure (peer : PeerContact) (todo : List PeerContact) :
      Moves env choice r c (.recordFailure peer todo) (.attempting todo)
  | committed (info : TorrentInfo) (attempt : Nat) (todo : List PeerContact) :
      Moves env choice r c (.committing info attempt todo)
        (.finished (r.outcome true false false))
  | recommit (info : TorrentInfo) (attempt : Nat) (todo : List PeerContact) :
      Moves env choice r c (.committing info attempt todo) (.committing info (attempt + 1) todo)
  | tooLarge (info : TorrentInfo) (attempt : Nat) (todo : List PeerContact) (message : String) :
      Moves env choice r c (.committing info attempt todo) (.markUnsupported message)
  | uncommitted (info : TorrentInfo) (attempt : Nat) (todo : List PeerContact) :
      Moves env choice r c (.committing info attempt todo) (.attempting todo)
  | remark (message : String) :
      Moves env choice r c (.markUnsupported message) (.markUnsupported message)
  | marked (message : String) :
      Moves env choice r c (.markUnsupported message) (.finished (r.outcome false true false))
  | markedTerminal (error : String) :
      Moves env choice r c (.markTerminal error) (.finished (r.outcome false true false))
  | parkedJob (attemptCount : Nat) :
      Moves env choice r c (.parking attemptCount) (.finished (r.outcome false false true))
  | scheduledJob (attemptCount : Nat) (next : Int) :
      Moves env choice r c (.scheduling attemptCount next)
        (.finished (r.outcome false false false))
  | stays (outcome : JobOutcome) :
      Moves env choice r c (.finished outcome) (.finished outcome)

/-- The catalogue after an attempt record is written. -/
def attemptWritten (now : Int) (hash : InfoHash) (addr : SocketAddrV4) (error : Option String)
    (c : Catalogue) : Catalogue :=
  { c with
    torrents := c.torrents.adjust hash fun row => { row with lastAttempt := now }
    metadataPeerAttempts := c.metadataPeerAttempts.upsert (hash, addr) ⟨now, error⟩
      fun _ => ⟨now, error⟩ }

theorem setAttempt_store (turn : Turn) (hash : InfoHash) (peer : PeerContact)
    (error : Option String) (s : Store) : (setAttempt turn hash peer error s).2 =
      if recordTakesEffect turn hash s.catalogue then
        { s with catalogue := attemptWritten turn.now hash peer.addr error s.catalogue }
      else s := by
  rw [setAttempt, recordTakesEffect]
  cases hrow : s.catalogue.torrents.lookup hash <;> cases turn.fate <;>
    simp [transact, Store.onCatalogue, setPeerAttemptTx, hrow, attemptWritten]

theorem setAttempt_ok {turn : Turn} {hash : InfoHash} {peer : PeerContact}
    {error : Option String} (h : (setAttempt turn hash peer error s).1 = .ok ()) :
    recordTakesEffect turn hash s.catalogue = true := by
  rw [setAttempt] at h
  rw [recordTakesEffect]
  cases hrow : s.catalogue.torrents.lookup hash <;> cases hf : turn.fate <;>
    simp [transact, Store.onCatalogue, setPeerAttemptTx, hrow, hf] at h ⊢

theorem filterPeer_moves (peer : PeerContact) (todo eligible : List PeerContact) :
    Moves env choice r c (.filtering (peer :: todo) eligible)
      (r.filterPeer env choice.turn peer todo eligible c).phase := by
  rw [filterPeer]
  split
  · exact .skipped peer todo eligible
  · split
    · next h => exact .eligible peer todo eligible h
    · exact .skipped peer todo eligible
    · exact .skipped peer todo eligible

theorem conclude_moves (now : Int) (jitter : Nat) :
    Moves env choice r c (.attempting []) (r.conclude env now jitter).phase := by
  rw [conclude]
  simp only
  split
  · exact .parked _
  · exact .scheduled _ _

theorem receive_moves (peer : PeerContact) (todo : List PeerContact) :
    Moves env choice r c (.fetching peer todo)
      (r.receive env choice.fetched peer todo).phase := by
  cases hfetched : choice.fetched with
  | error e => exact .failed peer todo
  | ok bytes =>
    rw [receive]
    split
    · exact .mismatched peer todo
    · next hverified =>
      split
      · next info hparsed =>
        exact .parsed peer todo hfetched (by simpa using hverified) hparsed
      · next error _ => exact .rejected peer todo error

theorem commitFailed_moves (e : StoreError) (info : TorrentInfo) (attempt : Nat)
    (todo : List PeerContact) :
    Moves env choice r c (.committing info attempt todo) (r.commitFailed e todo).phase := by
  rw [commitFailed]
  split
  · exact .tooLarge info attempt todo _
  · exact .uncommitted info attempt todo

theorem commit_moves (info : TorrentInfo) (attempt : Nat) (todo : List PeerContact) (s : Store) :
    Moves env choice r c (.committing info attempt todo)
      (r.commit env choice.turn info attempt todo s).1.phase := by
  rw [commit]
  split
  · exact commitFailed_moves _ info attempt todo
  · split
    · exact .committed info attempt todo
    · split
      · exact .recommit info attempt todo
      · exact commitFailed_moves _ info attempt todo

theorem step_moves (env : RoundEnv) (choice : Choice) (r : Round) (s : Store) :
    Moves env choice r s.catalogue r.phase (r.step env choice s).1.phase := by
  rw [step]
  cases hp : r.phase with
  | checkTerminal =>
    simp only
    split
    · rw [hp]
      exact .recheck
    · split
      · next h => exact .alreadyTerminal h
      · next h => exact .admitted (by simpa using h)
  | filtering todo eligible =>
    cases todo with
    | nil => exact .filtered eligible
    | cons peer todo => exact filterPeer_moves peer todo eligible
  | attempting todo =>
    cases todo with
    | nil => exact conclude_moves choice.turn.now choice.jitter
    | cons peer todo =>
      simp only
      split
      · next s' hr => exact .recorded peer todo (setAttempt_ok (by rw [hr]))
      · exact .refused peer todo
  | fetching peer todo => exact receive_moves peer todo
  | recordMismatch peer todo => exact .notedMismatch peer todo
  | recordFailure peer todo => exact .notedFailure peer todo
  | committing info attempt todo => exact commit_moves info attempt todo s
  | markUnsupported message =>
    simp only
    split
    · exact .marked message
    · -- The loop of the source writes until the database answers.
      rw [hp]
      exact .remark message
  | markTerminal error => exact .markedTerminal error
  | parking attemptCount => exact .parkedJob attemptCount
  | scheduling attemptCount next => exact .scheduledJob attemptCount next
  | finished outcome =>
    simp only
    rw [hp]
    exact .stays outcome

@[simp] theorem commitFailed_args (e : StoreError) (todo : List PeerContact) (r : Round) :
    (r.commitFailed e todo).args = r.args := by
  rw [commitFailed]
  split <;> rfl

@[simp] theorem filterPeer_args (turn : Turn) (peer : PeerContact)
    (todo eligible : List PeerContact) (r : Round) (c : Catalogue) :
    (r.filterPeer env turn peer todo eligible c).args = r.args := by
  rw [filterPeer]
  split
  · rfl
  · split <;> rfl

@[simp] theorem receive_args (fetched : Except MetadataFetchError Bytes) (peer : PeerContact)
    (todo : List PeerContact) (r : Round) : (r.receive env fetched peer todo).args = r.args := by
  unfold receive
  split
  · split
    · rfl
    · split <;> rfl
  · rfl

@[simp] theorem conclude_args (now : Int) (jitter : Nat) (r : Round) :
    (r.conclude env now jitter).args = r.args := by
  rw [conclude]
  simp only
  split <;> rfl

@[simp] theorem commit_args (turn : Turn) (info : TorrentInfo) (attempt : Nat)
    (todo : List PeerContact) (r : Round) (s : Store) :
    (r.commit env turn info attempt todo s).1.args = r.args := by
  rw [commit]
  split
  · simp
  · split
    · rfl
    · split <;> simp

/-- A round keeps the arguments it was spawned with. -/
@[simp] theorem step_args (env : RoundEnv) (choice : Choice) (r : Round) (s : Store) :
    (r.step env choice s).1.args = r.args := by
  rw [step]
  cases r.phase with
  | checkTerminal =>
    simp only
    split
    · rfl
    · split <;> rfl
  | filtering todo eligible =>
    cases todo with
    | nil => rfl
    | cons peer todo => exact filterPeer_args ..
  | attempting todo =>
    cases todo with
    | nil => exact conclude_args ..
    | cons peer todo =>
      simp only
      split <;> rfl
  | fetching => exact receive_args ..
  | committing => exact commit_args ..
  | markUnsupported =>
    simp only
    split <;> rfl
  | _ => rfl

@[simp] theorem step_infoHash (env : RoundEnv) (choice : Choice) (r : Round) (s : Store) :
    (r.step env choice s).1.infoHash = r.infoHash := by
  rw [infoHash, step_args, infoHash]

/-- The one write that a step makes. -/
inductive Writes (env : RoundEnv) (choice : Choice) (r : Round) (c : Catalogue) :
    Catalogue → Prop
  | attempt {peer : PeerContact} {error : Option String}
      (hphase : r.phase.records r.lastError = some (peer, error))
      (heffect : recordTakesEffect choice.turn r.args.infoHash c = true) :
      Writes env choice r c
        (attemptWritten choice.turn.now r.args.infoHash peer.addr error c)
  | commit {info : TorrentInfo} {attempt : Nat} {todo : List PeerContact} {c' : Catalogue}
      (hphase : r.phase = .committing info attempt todo)
      (h : commitMetadataTx env.unicode choice.turn.now choice.turn.maxAllowedPacket
        r.args.infoHash info.metadata c = .ok ((), c')) :
      Writes env choice r c c'
  | update {status : JobStatus} {attempts n : Nat} {next : Int} {failure : String}
      {c' : Catalogue} (hphase : r.phase.writes = some status)
      (heffect : ∀ e, choice.turn.fate ≠ .fails e)
      (h : updateHashJobFailureTx choice.turn.now r.args.infoHash status attempts next failure c =
        .ok (n, c')) :
      Writes env choice r c c'

/-- The store after a step: as before, or with the one write made. -/
def Written (env : RoundEnv) (choice : Choice) (r : Round) (s s' : Store) : Prop :=
  s' = s ∨ (s'.persistenceReceipts = s.persistenceReceipts ∧
    Writes env choice r s.catalogue s'.catalogue)

theorem written_setAttempt {peer : PeerContact} {error : Option String}
    (hphase : r.phase.records r.lastError = some (peer, error)) :
    Written env choice r s (setAttempt choice.turn r.args.infoHash peer error s).2 := by
  rw [setAttempt_store]
  split
  · next heffect => exact Or.inr ⟨rfl, .attempt hphase heffect⟩
  · exact Or.inl rfl

theorem written_updateJob {status : JobStatus} {attempts : Nat} {next : Int} {failure : String}
    (hphase : r.phase.writes = some status) :
    Written env choice r s
      (updateJob choice.turn r.args.infoHash status attempts next failure s).2 := by
  rw [updateJob]
  cases hf : choice.turn.fate with
  | fails e => exact Or.inl (by rw [transact_fails])
  | _ =>
    obtain ⟨e, he⟩ | ⟨n, s', hb, hr⟩ := transact_cases choice.turn.fate (Store.onCatalogue
      (updateHashJobFailureTx choice.turn.now r.args.infoHash status attempts next failure)) s
    · rw [← hf, he]
      exact Or.inl rfl
    · obtain ⟨hbody, hreceipts⟩ := Store.onCatalogue_ok hb
      have hw : Written env choice r s s' :=
        Or.inr ⟨hreceipts, .update hphase (by simp [hf]) hbody⟩
      rw [← hf]
      obtain hr | ⟨e, hr⟩ := hr
      · rwa [hr]
      · rwa [hr]

theorem written_commit {info : TorrentInfo} {attempt : Nat} {todo : List PeerContact}
    (hphase : r.phase = .committing info attempt todo) :
    Written env choice r s (r.commit env choice.turn info attempt todo s).2 := by
  rw [commit]
  split
  · exact Or.inl rfl
  · obtain ⟨e, he⟩ | ⟨⟨⟩, s', hb, hr⟩ := transact_cases choice.turn.fate (Store.onCatalogue
      (commitMetadataTx env.unicode choice.turn.now choice.turn.maxAllowedPacket r.args.infoHash
        info.metadata)) s
    · rw [he]
      simp only
      split <;> exact Or.inl rfl
    · obtain ⟨hbody, hreceipts⟩ := Store.onCatalogue_ok hb
      have hw : Written env choice r s s' := Or.inr ⟨hreceipts, .commit hphase hbody⟩
      obtain hr | ⟨e, hr⟩ := hr
      · rw [hr]
        exact hw
      · rw [hr]
        simp only
        split <;> exact hw

theorem step_written (env : RoundEnv) (choice : Choice) (r : Round) (s : Store) :
    Written env choice r s (r.step env choice s).2 := by
  rw [step]
  cases hp : r.phase with
  | checkTerminal =>
    simp only
    split
    · exact Or.inl rfl
    · split <;> exact Or.inl rfl
  | filtering todo eligible =>
    cases todo with
    | nil => exact Or.inl rfl
    | cons peer todo => exact Or.inl rfl
  | attempting todo =>
    cases todo with
    | nil => exact Or.inl rfl
    | cons peer todo =>
      have hw : Written env choice r s (setAttempt choice.turn r.args.infoHash peer none s).2 :=
        written_setAttempt (by rw [hp]; rfl)
      simp only
      split
      · next hr =>
        rw [hr] at hw
        exact hw
      · next hr =>
        rw [hr] at hw
        exact hw
  | recordMismatch peer todo => exact written_setAttempt (by rw [hp]; rfl)
  | recordFailure peer todo => exact written_setAttempt (by rw [hp]; rfl)
  | committing info attempt todo => exact written_commit hp
  | markUnsupported message =>
    have hw : Written env choice r s (updateJob choice.turn r.args.infoHash .unsupported
        (saturatingAddU32 r.args.priorAttemptCount r.attempts) 0 message s).2 :=
      written_updateJob (by rw [hp]; rfl)
    simp only
    split
    · next hr =>
      rw [hr] at hw
      exact hw
    · next hr =>
      rw [hr] at hw
      exact hw
  | markTerminal error => exact written_updateJob (by rw [hp]; rfl)
  | parking attemptCount => exact written_updateJob (by rw [hp]; rfl)
  | scheduling attemptCount next => exact written_updateJob (by rw [hp]; rfl)
  | _ => exact Or.inl rfl

/-- A phase with an attempt record writes it, if its transaction takes effect. -/
theorem step_records {peer : PeerContact} {error : Option String}
    (h : r.phase.records r.lastError = some (peer, error)) :
    (r.step env choice s).2 = (setAttempt choice.turn r.args.infoHash peer error s).2 := by
  unfold RoundPhase.records at h
  split at h
  · next hp =>
    cases h
    rw [step]
    simp only [hp]
    split
    · next hr => rw [hr]
    · next hr => rw [hr]
  · next hp =>
    cases h
    rw [step]
    simp only [hp]
  · next hp =>
    cases h
    rw [step]
    simp only [hp]
  · cases h

/-- A phase without an attempt record leaves the attempts alone. -/
theorem step_metadataPeerAttempts (h : r.phase.records r.lastError = none) :
    (r.step env choice s).2.catalogue.metadataPeerAttempts =
      s.catalogue.metadataPeerAttempts := by
  obtain hsame | ⟨-, hwrites⟩ := step_written env choice r s
  · rw [hsame]
  · generalize (r.step env choice s).2.catalogue = c at hwrites
    cases hwrites with
    | attempt hphase =>
      rw [h] at hphase
      cases hphase
    | commit _ hcommit =>
      obtain ⟨old, hcommitted⟩ := commitMetadataTx_ok hcommit
      exact hcommitted.metadataPeerAttempts
    | update _ _ hupdate =>
      rw [updateHashJobFailureTx_frame hupdate]

end Round

end Btfind
