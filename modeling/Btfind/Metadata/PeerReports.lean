import Btfind.Metadata.RoundLog

/-!
# What a round learns of its peers

A round reports once on every peer that it was spawned with: what the filter found, or how the
attempt went. What the round remembers for its decision is what the reports add up to.
-/

namespace Btfind

open Transition

/-- What became of a peer of a round. `uncommitted` is a peer whose metadata was not stored. -/
inductive PeerReport
  | unread (retryAt : Int)
  | delayed (retryAt : Int)
  | rejected
  | unrecorded
  | failed (error : MetadataFetchError)
  | mismatched
  | uncommitted

namespace PeerReport

/-- The peer was asked, or would have been, and may be asked again. -/
def isTried : PeerReport → Bool
  | .unrecorded | .failed _ | .uncommitted => true
  | _ => false

def isLong : PeerReport → Bool
  | .failed error => error.longBackoff
  | _ => false

/-- The filter put the peer off until this time. -/
def putOff? : PeerReport → Option Int
  | .unread t | .delayed t => some t
  | _ => none

/-- The peer sent metadata of another hash, in this round or in an earlier one. -/
def isMismatch : PeerReport → Bool
  | .rejected | .mismatched => true
  | _ => false

end PeerReport

/-- What a round remembers of its peers. -/
structure Tally where
  longBackoff : Bool
  tried : Bool
  nextEligibleAt : Option Int

namespace Tally

def empty : Tally := ⟨false, false, none⟩

def add (t : Tally) (report : PeerReport) : Tally where
  longBackoff := t.longBackoff || report.isLong
  tried := t.tried || report.isTried
  nextEligibleAt := report.putOff?.elim t.nextEligibleAt (Round.earliest t.nextEligibleAt)

def ofReports (reports : List (PeerContact × PeerReport)) : Tally :=
  (reports.map Prod.snd).foldl add empty

end Tally

namespace RoundPhase

/-- The peers that a round has still to report on; `asked` is the one it asked last. -/
def unreported (peers asked : List PeerContact) : RoundPhase → List PeerContact
  | .checkTerminal => peers
  | .filtering todo eligible => eligible ++ todo
  | .attempting todo | .recordMismatch _ todo | .recordFailure _ todo => todo
  | .fetching peer todo => peer :: todo
  | .committing _ _ todo => asked ++ todo
  | _ => []

/-- The peer that a round asked last. -/
def nextAsked (asked : List PeerContact) : RoundPhase → List PeerContact
  | .fetching peer _ => [peer]
  | _ => asked

/-- The round may still come to its last peer. -/
def isOpen : RoundPhase → Bool
  | .markUnsupported _ | .markTerminal _ | .parking _ | .scheduling _ _ | .finished _ => false
  | _ => true

end RoundPhase

namespace Round

def tally (r : Round) : Tally := ⟨r.longBackoff, 0 < r.retryableAttempts, r.nextEligibleAt⟩

/-- The report that a step makes. -/
def report (env : RoundEnv) (choice : Choice) (asked : List PeerContact) (r : Round) (s : Store) :
    List (PeerContact × PeerReport) :=
  let turn := choice.turn
  match r.phase with
  | .filtering (peer :: _) _ =>
    match readError turn.fate with
    | some _ => [(peer, .unread (saturatingAddI64 turn.now 300))]
    | none =>
      match peerRetryEligibility turn.now r.args.infoHash peer.addr env.retryAfterHours
          s.catalogue with
      | .eligible => []
      | .retryAt t => [(peer, .delayed t)]
      | .rejected => [(peer, .rejected)]
  | .attempting (peer :: _) =>
    match (setAttempt turn r.args.infoHash peer none s).1 with
    | .ok () => []
    | .error _ => [(peer, .unrecorded)]
  | .fetching peer _ =>
    match choice.fetched with
    | .ok bytes =>
      if env.codecs.verifyMetadataHash r.args.infoHash bytes then [] else [(peer, .mismatched)]
    | .error e => [(peer, .failed e)]
  | .committing info attempt todo =>
    match (r.commit env turn info attempt todo s).1.phase with
    | .attempting _ => asked.map fun peer => (peer, .uncommitted)
    | _ => []
  | _ => []

end Round

/-- A run of a round with its reports and the time that it read last. -/
structure ReportedRun extends RoundRun where
  reports : List (PeerContact × PeerReport)
  asked : List PeerContact
  clock : Int

namespace ReportedRun

def start (args : RoundArgs) (store : Store) (clock : Int) : ReportedRun :=
  ⟨.start args store, [], [], clock⟩

def next (env : RoundEnv) (q : ReportedRun) : RoundLabel → Option ReportedRun
  | .stepped choice => (q.toRoundRun.next env (.stepped choice)).map fun run => {
      toRoundRun := run
      reports := q.reports ++ q.round.report env choice q.asked q.store
      asked := q.round.phase.nextAsked q.asked
      clock := choice.turn.now }
  | .interfered store => (q.toRoundRun.next env (.interfered store)).map fun run =>
      { q with toRoundRun := run }

def Step (env : RoundEnv) (q : ReportedRun) (label : RoundLabel) (q' : ReportedRun) : Prop :=
  next env q label = some q'

end ReportedRun

/-! ## What a step reports -/

namespace Round

variable {env : RoundEnv} {choice : Choice} {r : Round} {s : Store} {asked : List PeerContact}

/-- The phases before and after a step with its report, and the error text after it. -/
inductive Tells (env : RoundEnv) (choice : Choice) (r : Round) (asked : List PeerContact)
    (c : Catalogue) :
    RoundPhase → RoundPhase → List (PeerContact × PeerReport) → String → Prop
  | closed {phase phase' : RoundPhase} {text : String} (hclosed : phase'.isOpen = false) :
      Tells env choice r asked c phase phase' [] text
  | recheck {text : String} : Tells env choice r asked c .checkTerminal .checkTerminal [] text
  | admitted {text : String} :
      Tells env choice r asked c .checkTerminal (.filtering r.args.peers []) [] text
  | unread {peer : PeerContact} {todo eligible : List PeerContact} {text : String} :
      Tells env choice r asked c (.filtering (peer :: todo) eligible) (.filtering todo eligible)
        [(peer, .unread (saturatingAddI64 choice.turn.now 300))] text
  | delayed {peer : PeerContact} {todo eligible : List PeerContact} {t : Int} {text : String}
      (hrow : peerRetryEligibility choice.turn.now r.args.infoHash peer.addr env.retryAfterHours
        c = .retryAt t) :
      Tells env choice r asked c (.filtering (peer :: todo) eligible) (.filtering todo eligible)
        [(peer, .delayed t)] text
  | rejected {peer : PeerContact} {todo eligible : List PeerContact} {text : String} :
      Tells env choice r asked c (.filtering (peer :: todo) eligible) (.filtering todo eligible)
        [(peer, .rejected)] text
  | eligible {peer : PeerContact} {todo eligible : List PeerContact} {text : String}
      (hrow : peerRetryEligibility choice.turn.now r.args.infoHash peer.addr env.retryAfterHours
        c = .eligible) :
      Tells env choice r asked c (.filtering (peer :: todo) eligible)
        (.filtering todo (eligible ++ [peer])) [] text
  | filtered {eligible : List PeerContact} {text : String} :
      Tells env choice r asked c (.filtering [] eligible) (.attempting eligible) [] text
  | unrecorded {peer : PeerContact} {todo : List PeerContact} {text : String} :
      Tells env choice r asked c (.attempting (peer :: todo)) (.attempting todo)
        [(peer, .unrecorded)] text
  | recorded {peer : PeerContact} {todo : List PeerContact} {text : String} :
      Tells env choice r asked c (.attempting (peer :: todo)) (.fetching peer todo) [] text
  | mismatched {peer : PeerContact} {todo : List PeerContact} {text : String} :
      Tells env choice r asked c (.fetching peer todo) (.recordMismatch peer todo)
        [(peer, .mismatched)] text
  | failed {peer : PeerContact} {todo : List PeerContact} {e : MetadataFetchError} :
      Tells env choice r asked c (.fetching peer todo) (.recordFailure peer todo)
        [(peer, .failed e)] e.toString
  | parsed {peer : PeerContact} {todo : List PeerContact} {info : TorrentInfo} {text : String} :
      Tells env choice r asked c (.fetching peer todo) (.committing info 0 todo) [] text
  | notedMismatch {peer : PeerContact} {todo : List PeerContact} {text : String} :
      Tells env choice r asked c (.recordMismatch peer todo) (.attempting todo) [] text
  | notedFailure {peer : PeerContact} {todo : List PeerContact} {text : String} :
      Tells env choice r asked c (.recordFailure peer todo) (.attempting todo) [] text
  | recommit {info : TorrentInfo} {attempt : Nat} {todo : List PeerContact} {text : String} :
      Tells env choice r asked c (.committing info attempt todo) (.committing info (attempt + 1) todo)
        [] text
  | uncommitted {info : TorrentInfo} {attempt : Nat} {todo : List PeerContact} {text : String} :
      Tells env choice r asked c (.committing info attempt todo) (.attempting todo)
        (asked.map fun peer => (peer, .uncommitted)) text

/-- The reports added to what a round remembers. -/
def tallied (t : Tally) (reports : List (PeerContact × PeerReport)) : Tally :=
  (reports.map Prod.snd).foldl Tally.add t

/-- A further retryable attempt. -/
theorem tally_tried (r : Round) {r' : Round} (hlong : r'.longBackoff = r.longBackoff)
    (htried : r'.retryableAttempts = saturatingAddU32 r.retryableAttempts 1)
    (hnext : r'.nextEligibleAt = r.nextEligibleAt) :
    r'.tally = ⟨r.longBackoff, true, r.nextEligibleAt⟩ := by
  rw [tally, hlong, htried, hnext, decide_eq_true (saturatingAddU32_pos _)]

theorem tallied_uncommitted (t : Tally) (hasked : asked ≠ []) :
    tallied t (asked.map fun peer => (peer, .uncommitted)) =
      ⟨t.longBackoff, true, t.nextEligibleAt⟩ := by
  induction asked generalizing t with
  | nil => exact absurd rfl hasked
  | cons peer rest ih =>
    by_cases hrest : rest = []
    · subst hrest
      simp [tallied, Tally.add, PeerReport.isLong, PeerReport.isTried, PeerReport.putOff?]
    · show tallied (t.add .uncommitted) (rest.map fun peer => (peer, .uncommitted)) = _
      rw [ih _ hrest]
      simp [Tally.add, PeerReport.isLong, PeerReport.putOff?]

theorem commitFailed_tells {e : StoreError} {info : TorrentInfo} {attempt : Nat}
    {todo : List PeerContact} {c : Catalogue} (hasked : asked ≠ []) :
    let reports := match (r.commitFailed e todo).phase with
      | .attempting _ => asked.map fun peer => (peer, .uncommitted)
      | _ => []
    Tells env choice r asked c (.committing info attempt todo) (r.commitFailed e todo).phase
      reports (r.commitFailed e todo).lastError ∧
    (r.commitFailed e todo).tally = tallied r.tally reports := by
  rw [commitFailed]
  by_cases hdocument : isUnsupportedSearchDocument e = true
  · rw [if_pos hdocument]
    exact ⟨.closed rfl, rfl⟩
  · rw [if_neg hdocument]
    refine ⟨.uncommitted, ?_⟩
    show _ = tallied r.tally (asked.map fun peer => (peer, .uncommitted))
    rw [tallied_uncommitted _ hasked]
    exact tally_tried r rfl rfl rfl

theorem commit_tells (env : RoundEnv) (choice : Choice) (r : Round) (s : Store)
    (info : TorrentInfo) (attempt : Nat) (todo : List PeerContact) (hasked : asked ≠ []) :
    let r' := (r.commit env choice.turn info attempt todo s).1
    let reports := match r'.phase with
      | .attempting _ => asked.map fun peer => (peer, .uncommitted)
      | _ => []
    Tells env choice r asked s.catalogue (.committing info attempt todo) r'.phase reports
      r'.lastError ∧
    r'.tally = tallied r.tally reports := by
  rw [commit]
  split
  · exact commitFailed_tells hasked
  · split
    · exact ⟨.closed rfl, rfl⟩
    · split
      · exact ⟨.recommit, rfl⟩
      · exact commitFailed_tells hasked

theorem tallied_singleton (t : Tally) (peer : PeerContact) (report : PeerReport) :
    tallied t [(peer, report)] = t.add report := rfl

/-- A report on a peer that was not attempted is at most a time. -/
theorem add_untried (t : Tally) {report : PeerReport} (hlong : report.isLong = false)
    (htried : report.isTried = false) :
    t.add report = { t with
      nextEligibleAt := report.putOff?.elim t.nextEligibleAt (earliest t.nextEligibleAt) } := by
  rw [Tally.add, hlong, htried, Bool.or_false, Bool.or_false]

theorem filterPeer_tells (peer : PeerContact) (todo eligible : List PeerContact)
    (hp : r.phase = .filtering (peer :: todo) eligible) :
    let r' := r.filterPeer env choice.turn peer todo eligible s.catalogue
    Tells env choice r asked s.catalogue (.filtering (peer :: todo) eligible) r'.phase
      (r.report env choice asked s) r'.lastError ∧
    r'.tally = tallied r.tally (r.report env choice asked s) := by
  rw [filterPeer, report, hp]
  simp only
  cases readError choice.turn.fate with
  | some e =>
    refine ⟨.unread, ?_⟩
    rw [tallied_singleton, add_untried _ rfl rfl]
    rfl
  | none =>
    simp only
    cases hrow : peerRetryEligibility choice.turn.now r.args.infoHash peer.addr
      env.retryAfterHours s.catalogue with
    | eligible => exact ⟨.eligible hrow, rfl⟩
    | retryAt t =>
      refine ⟨.delayed hrow, ?_⟩
      rw [tallied_singleton, add_untried _ rfl rfl]
      rfl
    | rejected =>
      refine ⟨.rejected, ?_⟩
      rw [tallied_singleton, add_untried _ rfl rfl]
      rfl

theorem receive_tells (peer : PeerContact) (todo : List PeerContact)
    (hp : r.phase = .fetching peer todo) :
    let r' := r.receive env choice.fetched peer todo
    Tells env choice r asked s.catalogue (.fetching peer todo) r'.phase
      (r.report env choice asked s) r'.lastError ∧
    r'.tally = tallied r.tally (r.report env choice asked s) := by
  rw [report, hp]
  simp only
  cases choice.fetched with
  | error e =>
    refine ⟨.failed, ?_⟩
    rw [tallied_singleton, Tally.add, tally, receive, decide_eq_true (saturatingAddU32_pos _)]
    simp [tally, PeerReport.isLong, PeerReport.isTried, PeerReport.putOff?]
  | ok bytes =>
    simp only [receive]
    cases env.codecs.verifyMetadataHash r.args.infoHash bytes with
    | false =>
      refine ⟨.mismatched, ?_⟩
      rw [if_neg Bool.false_ne_true, tallied_singleton, add_untried _ rfl rfl]
      rfl
    | true =>
      simp only [Bool.true_eq_false, if_false, if_true]
      split
      · exact ⟨.parsed, rfl⟩
      · exact ⟨.closed rfl, rfl⟩

/-- A step reports on the peer that it deals with, and the round remembers the report. -/
theorem step_tells (env : RoundEnv) (choice : Choice) (r : Round) (s : Store)
    (hasked : ∀ info attempt todo, r.phase = .committing info attempt todo → asked ≠ []) :
    let r' := (r.step env choice s).1
    Tells env choice r asked s.catalogue r.phase r'.phase (r.report env choice asked s)
      r'.lastError ∧
    r'.tally = tallied r.tally (r.report env choice asked s) := by
  rw [step]
  cases hp : r.phase with
  | checkTerminal =>
    rw [report, hp]
    simp only
    split
    · rw [hp]
      exact ⟨.recheck, rfl⟩
    · split
      · exact ⟨.closed rfl, rfl⟩
      · exact ⟨.admitted, rfl⟩
  | filtering todo eligible =>
    cases todo with
    | nil =>
      rw [report, hp]
      exact ⟨.filtered, rfl⟩
    | cons peer todo => exact filterPeer_tells peer todo eligible hp
  | attempting todo =>
    rw [report, hp]
    cases todo with
    | nil =>
      simp only [conclude]
      split
      · exact ⟨.closed rfl, rfl⟩
      · exact ⟨.closed rfl, rfl⟩
    | cons peer todo =>
      simp only
      split
      · next s' hr =>
        rw [hr]
        exact ⟨.recorded, rfl⟩
      · next e s' hr =>
        rw [hr]
        refine ⟨.unrecorded, Eq.trans (tally_tried r rfl rfl rfl) ?_⟩
        simp [tallied, tally, Tally.add, PeerReport.isLong, PeerReport.isTried,
          PeerReport.putOff?]
  | fetching peer todo => exact receive_tells peer todo hp
  | recordMismatch peer todo =>
    rw [report, hp]
    exact ⟨.notedMismatch, rfl⟩
  | recordFailure peer todo =>
    rw [report, hp]
    exact ⟨.notedFailure, rfl⟩
  | committing info attempt todo =>
    rw [report, hp]
    exact commit_tells env choice r s info attempt todo (hasked info attempt todo hp)
  | markUnsupported message =>
    rw [report, hp]
    simp only
    split
    · exact ⟨.closed rfl, rfl⟩
    · simp only [hp]
      exact ⟨.closed rfl, rfl⟩
  | finished outcome =>
    rw [report, hp]
    simp only [hp]
    exact ⟨.closed rfl, rfl⟩
  | _ =>
    rw [report, hp]
    exact ⟨.closed rfl, rfl⟩

theorem hours_of_retryAt {now t : Int} {hash : InfoHash} {addr : SocketAddrV4} {hours : Nat}
    {c : Catalogue} (h : peerRetryEligibility now hash addr hours c = .retryAt t) : 0 < hours := by
  rw [peerRetryEligibility] at h
  split at h
  · cases h
  · split at h
    · cases h
    · simp only at h
      split at h
      · next hwait => exact hwait.1
      · cases h

/-- A step reports on the peers that it takes off the list. -/
theorem Tells.peers {c : Catalogue} {phase phase' : RoundPhase}
    {reports : List (PeerContact × PeerReport)} {text : String}
    (h : Tells env choice r asked c phase phase' reports text) (hopen : phase'.isOpen = true) :
    phase.isOpen = true ∧ (phase.unreported r.args.peers asked).Perm
      (reports.map Prod.fst ++ phase'.unreported r.args.peers (phase.nextAsked asked)) := by
  cases h with
  | closed hclosed =>
    rw [hclosed] at hopen
    cases hopen
  | unread | delayed | rejected => exact ⟨rfl, List.perm_middle⟩
  | @eligible peer todo eligible =>
    refine ⟨rfl, ?_⟩
    show (eligible ++ peer :: todo).Perm (eligible ++ [peer] ++ todo)
    rw [List.append_assoc]
    rfl
  | @filtered eligible =>
    refine ⟨rfl, ?_⟩
    show (eligible ++ []).Perm eligible
    rw [List.append_nil]
  | @uncommitted info attempt todo =>
    refine ⟨rfl, ?_⟩
    show (asked ++ todo).Perm ((asked.map fun peer => (peer, PeerReport.uncommitted)).map Prod.fst ++ todo)
    rw [List.map_map]
    exact .of_eq (congrArg (· ++ todo) (List.map_id asked).symm)
  | _ => exact ⟨rfl, .refl _⟩

section Phases

variable {c : Catalogue} {phase : RoundPhase} {peer : PeerContact} {todo : List PeerContact}
  {reports : List (PeerContact × PeerReport)} {text : String}

/-- Peers are delayed only where failed peers have to wait. -/
theorem Tells.delays {phase' : RoundPhase} {t : Int}
    (h : Tells env choice r asked c phase phase' reports text)
    (hreport : (peer, .delayed t) ∈ reports) : 0 < env.retryAfterHours := by
  cases h with
  | delayed hrow => exact hours_of_retryAt hrow
  | uncommitted =>
    obtain ⟨other, -, heq⟩ := List.mem_map.mp hreport
    cases heq
  | _ => simp at hreport

theorem Tells.mismatch_reported
    (h : Tells env choice r asked c phase (.recordMismatch peer todo) reports text) :
    (peer, .mismatched) ∈ reports := by
  cases h with
  | closed hclosed => cases hclosed
  | mismatched => exact List.mem_cons_self

theorem Tells.failure_reported
    (h : Tells env choice r asked c phase (.recordFailure peer todo) reports text) :
    ∃ e : MetadataFetchError, (peer, .failed e) ∈ reports ∧ text = e.toString := by
  cases h with
  | closed hclosed => cases hclosed
  | failed => exact ⟨_, List.mem_cons_self, rfl⟩

theorem Tells.asked_before_commit {info : TorrentInfo} {attempt : Nat}
    (h : Tells env choice r asked c phase (.committing info attempt todo) reports text)
    (hasked : ∀ info attempt todo, phase = .committing info attempt todo → asked ≠ []) :
    phase.nextAsked asked ≠ [] := by
  cases h with
  | closed hclosed => cases hclosed
  | parsed => exact List.cons_ne_nil _ _
  | recommit => exact hasked _ _ _ rfl

end Phases

end Round

/-! ## Runs -/

/-- Every peer is on the list or has a report, and the round remembers what the reports add up
to. -/
structure Told (env : RoundEnv) (args : RoundArgs) (q : ReportedRun) : Prop where
  args_eq : q.round.args = args
  peers : q.round.phase.isOpen = true → args.peers.Perm
    (q.reports.map Prod.fst ++ q.round.phase.unreported args.peers q.asked)
  tally : q.round.tally = .ofReports q.reports
  delayed : ∀ peer t, (peer, .delayed t) ∈ q.reports → 0 < env.retryAfterHours
  mismatched : ∀ peer todo, q.round.phase = .recordMismatch peer todo →
    (peer, .mismatched) ∈ q.reports
  failed : ∀ peer todo, q.round.phase = .recordFailure peer todo →
    ∃ e : MetadataFetchError, (peer, .failed e) ∈ q.reports ∧ q.round.lastError = e.toString
  asked : ∀ info attempt todo, q.round.phase = .committing info attempt todo → q.asked ≠ []

variable {env : RoundEnv} {args : RoundArgs} {q q' : ReportedRun}

theorem Told.start (store : Store) (clock : Int) : Told env args (.start args store clock) where
  args_eq := rfl
  peers := fun _ => .refl _
  tally := rfl
  delayed := nofun
  mismatched := nofun
  failed := nofun
  asked := nofun

/-- A step of a round in a run. -/
theorem ReportedRun.step_cases {label : RoundLabel} (h : ReportedRun.Step env q label q') :
    (∃ choice, label = .stepped choice ∧ q.round.phase.isFinished = false ∧
      choice.turn.now ≤ maxTimestamp ∧
      q'.round = (q.round.step env choice q.store).1 ∧
      q'.store = (q.round.step env choice q.store).2 ∧
      q'.reports = q.reports ++ q.round.report env choice q.asked q.store ∧
      q'.asked = q.round.phase.nextAsked q.asked ∧ q'.clock = choice.turn.now) ∨
    ∃ store, label = .interfered store ∧ q' = { q with store := store } := by
  cases label with
  | stepped choice =>
    left
    obtain ⟨run, hrun, rfl⟩ := Option.map_eq_some_iff.mp h
    simp only [RoundRun.next] at hrun
    split at hrun
    · next hguard =>
      cases hrun
      exact ⟨choice, rfl, hguard.1, hguard.2, rfl, rfl, rfl, rfl, rfl⟩
    · cases hrun
  | interfered store =>
    right
    cases h
    exact ⟨store, rfl, rfl⟩

theorem Tally.ofReports_append (reports more : List (PeerContact × PeerReport)) :
    Tally.ofReports (reports ++ more) = Round.tallied (Tally.ofReports reports) more := by
  rw [Tally.ofReports, Tally.ofReports, Round.tallied, List.map_append, List.foldl_append]

theorem Told.step {label : RoundLabel} (ht : Told env args q) (h : ReportedRun.Step env q label q') :
    Told env args q' := by
  obtain ⟨choice, -, -, -, hround, -, hreports, hasked, -⟩ | ⟨store, -, rfl⟩ :=
    ReportedRun.step_cases h
  · obtain ⟨htells, htally⟩ := q.round.step_tells env choice q.store ht.asked
    have hargs : q'.round.args = args := by
      rw [hround, Round.step_args]
      exact ht.args_eq
    rw [← ht.args_eq] at hargs
    have hold := ht.peers
    rw [← ht.args_eq] at hold ⊢
    refine ⟨hargs, ?_, ?_, ?_, ?_, ?_, ?_⟩
    · intro hopen
      rw [hround] at hopen
      obtain ⟨hbefore, hperm⟩ := htells.peers hopen
      rw [hreports, hasked, hround, List.map_append, List.append_assoc]
      exact (hold hbefore).trans (hperm.append_left _)
    · rw [hround, hreports, Tally.ofReports_append, ← ht.tally]
      exact htally
    · intro peer t hreport
      rw [hreports] at hreport
      exact (List.mem_append.mp hreport).elim (ht.delayed peer t) htells.delays
    · intro peer todo hphase
      rw [hround] at hphase
      rw [hphase] at htells
      rw [hreports]
      exact List.mem_append_right _ htells.mismatch_reported
    · intro peer todo hphase
      rw [hround] at hphase
      rw [hphase] at htells
      obtain ⟨e, he, htext⟩ := htells.failure_reported
      rw [hreports, hround]
      exact ⟨e, List.mem_append_right _ he, htext⟩
    · intro info attempt todo hphase
      rw [hround] at hphase
      rw [hphase] at htells
      rw [hasked]
      exact htells.asked_before_commit ht.asked
  · exact ⟨ht.args_eq, ht.peers, ht.tally, ht.delayed, ht.mismatched, ht.failed, ht.asked⟩

theorem told_of_run {labels : List RoundLabel} {store : Store} {clock : Int}
    (h : Run (ReportedRun.Step env) (.start args store clock) labels q) : Told env args q :=
  h.invariant (fun _ _ _ ht hs => ht.step hs) (.start store clock)

/-- Every run of a round has its reports. -/
theorem reported_of_run {labels : List RoundLabel} {store : Store} {p : RoundRun} (clock : Int)
    (h : Run (RoundRun.Step env) (.start args store) labels p) :
    ∃ q, Run (ReportedRun.Step env) (.start args store clock) labels q ∧ q.toRoundRun = p := by
  generalize hstart : RoundRun.start args store = first at h
  induction h with
  | refl =>
    subst hstart
    exact ⟨_, .refl _, rfl⟩
  | @snoc middle last labels label _ hstep ih =>
    obtain ⟨q, hq, rfl⟩ := ih
    have hnext : q.toRoundRun.next env label = some last := hstep
    cases label with
    | stepped choice =>
      exact ⟨_, hq.snoc (Option.map_eq_some_iff.mpr ⟨last, hnext, rfl⟩), rfl⟩
    | interfered store' =>
      cases hnext
      exact ⟨{ q with store := store' }, hq.snoc rfl, rfl⟩

end Btfind
