import Mathlib.Order.Bounds.Basic
import Btfind.Metadata.PeerReports

/-!
# The time of a retry

The decision of a round computes the next attempt from what the round remembers, and the filter
of the next round asks the database. At the time that the decision finds, the filter lets a peer
of the round pass.
-/

namespace Btfind

open Transition

/-! ## Eligible peers -/

/-- From this time on `peer_retry_eligibility` finds the peer eligible. -/
def EligibleFrom (env : RoundEnv) (hash : InfoHash) (t : Int) (peer : PeerContact)
    (c : Catalogue) : Prop :=
  ∀ now, t ≤ now → peerRetryEligibility now hash peer.addr env.retryAfterHours c = .eligible

/-- No newer attempt on the peer is recorded: its row is as it was, or pruned. -/
def RowKept (hash : InfoHash) (peer : PeerContact) (c c' : Catalogue) : Prop :=
  c'.metadataPeerAttempts.lookup (hash, peer.addr) =
      c.metadataPeerAttempts.lookup (hash, peer.addr) ∨
    c'.metadataPeerAttempts.lookup (hash, peer.addr) = none

section Eligible

variable {env : RoundEnv} {hash : InfoHash} {t t' now : Int} {peer : PeerContact}
  {c c' : Catalogue} {row : PeerAttemptRow}

theorem peerRetryEligibility_none
    (hrow : c.metadataPeerAttempts.lookup (hash, peer.addr) = none) (now : Int) (hours : Nat) :
    peerRetryEligibility now hash peer.addr hours c = .eligible := by
  rw [peerRetryEligibility, hrow]

theorem peerRetryEligibility_some
    (hrow : c.metadataPeerAttempts.lookup (hash, peer.addr) = some row)
    (herror : row.lastError ≠ some hashMismatchText) (now : Int) (hours : Nat) :
    peerRetryEligibility now hash peer.addr hours c =
      if 0 < hours ∧ now < saturatingAddI64 row.lastAttempt (hours * 3600) then
        .retryAt (saturatingAddI64 row.lastAttempt (hours * 3600)) else .eligible := by
  rw [peerRetryEligibility, hrow]
  exact if_neg herror

theorem EligibleFrom.mono (h : EligibleFrom env hash t peer c) (hle : t ≤ t') :
    EligibleFrom env hash t' peer c :=
  fun now hnow => h now (hle.trans hnow)

theorem EligibleFrom.kept (h : EligibleFrom env hash t peer c) (hk : RowKept hash peer c c') :
    EligibleFrom env hash t peer c' := by
  intro now hnow
  obtain hsame | hgone := hk
  · rw [← h now hnow, peerRetryEligibility, peerRetryEligibility, hsame]
  · exact peerRetryEligibility_none hgone now _

/-- A peer that the filter lets pass is eligible from then on. -/
theorem eligibleFrom_of_eligible
    (h : peerRetryEligibility now hash peer.addr env.retryAfterHours c = .eligible) :
    EligibleFrom env hash now peer c := by
  intro later hlater
  cases hrow : c.metadataPeerAttempts.lookup (hash, peer.addr) with
  | none => exact peerRetryEligibility_none hrow later _
  | some row =>
    have herror : row.lastError ≠ some hashMismatchText := by
      intro herror
      rw [peerRetryEligibility, hrow] at h
      simp only [herror, if_true] at h
      cases h
    rw [peerRetryEligibility_some hrow herror] at h ⊢
    by_cases hwait : 0 < env.retryAfterHours ∧
        now < saturatingAddI64 row.lastAttempt (env.retryAfterHours * 3600)
    · rw [if_pos hwait] at h
      cases h
    · rw [if_neg]
      omega

/-- A peer that the filter puts off is eligible from the time that it names. -/
theorem eligibleFrom_of_delayed
    (h : peerRetryEligibility now hash peer.addr env.retryAfterHours c = .retryAt t) :
    EligibleFrom env hash t peer c := by
  intro later hlater
  cases hrow : c.metadataPeerAttempts.lookup (hash, peer.addr) with
  | none => exact peerRetryEligibility_none hrow later _
  | some row =>
    have herror : row.lastError ≠ some hashMismatchText := by
      intro herror
      rw [peerRetryEligibility, hrow] at h
      simp only [herror, if_true] at h
      cases h
    rw [peerRetryEligibility_some hrow herror] at h ⊢
    split at h
    · cases h
      rw [if_neg]
      omega
    · cases h

/-- A peer with a recorded attempt is eligible when its cooldown is over. -/
theorem eligibleFrom_of_row (hrow : c.metadataPeerAttempts.lookup (hash, peer.addr) = some row)
    (herror : row.lastError ≠ some hashMismatchText) :
    EligibleFrom env hash (row.lastAttempt + env.retryAfterHours * 3600) peer c := by
  intro later hlater
  rw [peerRetryEligibility_some hrow herror, if_neg]
  rw [saturatingAddI64]
  omega

end Eligible

/-- A text with another start is not the text of a mismatch. -/
theorem append_ne_hashMismatchText {start rest : String}
    (hstart : ¬ start.toList <+: hashMismatchText.toList) : start ++ rest ≠ hashMismatchText := by
  intro h
  rw [← h, String.toList_append] at hstart
  exact hstart (List.prefix_append _ _)

/-- No fetch error has the text of a mismatch. -/
theorem MetadataFetchError.toString_ne (e : MetadataFetchError) :
    e.toString ≠ hashMismatchText := by
  cases e with
  | extensionUnavailable reason =>
    show reason.toString ≠ hashMismatchText
    cases reason <;> decide
  | invalidHandshake =>
    show "invalid handshake or info_hash mismatch" ≠ hashMismatchText
    decide
  | metadataRejected =>
    show "metadata rejected" ≠ hashMismatchText
    decide
  | io stage source =>
    show "I/O during " ++ stage.toString ++ ": " ++ source ≠ hashMismatchText
    rw [String.append_assoc, String.append_assoc]
    exact append_ne_hashMismatchText (by decide)
  | timeout stage =>
    show "timeout during " ++ stage.toString ≠ hashMismatchText
    exact append_ne_hashMismatchText (by decide)
  | protocol stage message =>
    show "protocol error during " ++ stage.toString ++ ": " ++ message ≠ hashMismatchText
    rw [String.append_assoc, String.append_assoc]
    exact append_ne_hashMismatchText (by decide)
  | metadataTooLarge size limit =>
    show "metadata size " ++ ToString.toString size ++ " exceeds limit " ++
      ToString.toString limit ≠ hashMismatchText
    rw [String.append_assoc, String.append_assoc]
    exact append_ne_hashMismatchText (by decide)

/-! ## Rows of the peers of a round -/

section Rows

variable {env : RoundEnv} {choice : Choice} {r : Round} {s : Store}

/-- A step leaves the row of a peer alone or records an attempt on it. -/
theorem step_row (peer : PeerContact) :
    RowKept r.args.infoHash peer s.catalogue (r.step env choice s).2.catalogue ∨
      ∃ other error, r.phase.records r.lastError = some (other, error) ∧
        other.addr = peer.addr ∧
        (r.step env choice s).2.catalogue.metadataPeerAttempts.lookup
          (r.args.infoHash, peer.addr) = some ⟨choice.turn.now, error⟩ := by
  cases hrecords : r.phase.records r.lastError with
  | none =>
    refine Or.inl (Or.inl ?_)
    rw [Round.step_metadataPeerAttempts hrecords]
  | some record =>
    obtain ⟨other, error⟩ := record
    rw [Round.step_records hrecords, Round.setAttempt_store]
    split
    · simp only [Round.attemptWritten]
      by_cases haddr : other.addr = peer.addr
      · refine Or.inr ⟨other, error, rfl, haddr, ?_⟩
        rw [haddr, AList.lookup_upsert_const, if_pos rfl]
      · refine Or.inl (Or.inl ?_)
        simp only
        rw [AList.lookup_upsert_const, if_neg]
        intro heq
        exact haddr (Prod.ext_iff.mp heq).2.symm
    · exact Or.inl (Or.inl rfl)

end Rows

/-- What the database says of a peer with a report. A tried peer waits for its cooldown at
most. -/
def PeerReport.Stands (env : RoundEnv) (hash : InfoHash) (clock : Int) (peer : PeerContact)
    (c : Catalogue) : PeerReport → Prop
  | .delayed t => EligibleFrom env hash t peer c
  | .unrecorded | .failed _ | .uncommitted =>
    EligibleFrom env hash (clock + env.retryAfterHours * 3600) peer c
  | .unread _ | .rejected | .mismatched => True

namespace RoundPhase

/-- The peers that the filter let pass and that were not attempted yet. -/
def awaiting : RoundPhase → List PeerContact
  | .filtering _ eligible => eligible
  | .attempting todo | .fetching _ todo | .recordMismatch _ todo | .recordFailure _ todo
  | .committing _ _ todo => todo
  | _ => []

/-- The peer that was attempted and has no report yet. -/
def asking (asked : List PeerContact) : RoundPhase → List PeerContact
  | .fetching peer _ => [peer]
  | .committing _ _ _ => asked
  | _ => []

end RoundPhase

/-- The database agrees with the reports, and with what the round still expects. -/
structure Standing (env : RoundEnv) (q : ReportedRun) : Prop where
  reports : ∀ peer report, (peer, report) ∈ q.reports →
    report.Stands env q.round.args.infoHash q.clock peer q.store.catalogue
  awaiting : ∀ peer ∈ q.round.phase.awaiting,
    EligibleFrom env q.round.args.infoHash q.clock peer q.store.catalogue
  asking : ∀ peer ∈ q.round.phase.asking q.asked,
    EligibleFrom env q.round.args.infoHash (q.clock + env.retryAfterHours * 3600) peer
      q.store.catalogue

/-- Time does not run backwards, and only the round records attempts on its peers. -/
def Orderly (q : ReportedRun) : RoundLabel → Prop
  | .stepped choice => q.clock ≤ choice.turn.now
  | .interfered store => ∀ peer ∈ q.round.args.peers,
    RowKept q.round.args.infoHash peer q.store.catalogue store.catalogue

/-! ## Steps -/

/-- What a step finds: the phase, the reports and the database before it, and the rows after it. -/
structure Stepping (env : RoundEnv) (choice : Choice) (r : Round) (q : ReportedRun)
    (phase : RoundPhase) (c' : Catalogue) : Prop where
  clock : q.clock ≤ choice.turn.now
  reported : ∀ peer report, (peer, report) ∈ q.reports →
    report.Stands env r.args.infoHash q.clock peer q.store.catalogue
  awaiting : ∀ peer ∈ phase.awaiting,
    EligibleFrom env r.args.infoHash q.clock peer q.store.catalogue
  asking : ∀ peer ∈ phase.asking q.asked,
    EligibleFrom env r.args.infoHash (q.clock + env.retryAfterHours * 3600) peer q.store.catalogue
  row : ∀ peer, RowKept r.args.infoHash peer q.store.catalogue c' ∨
    ∃ other error, phase.records r.lastError = some (other, error) ∧ other.addr = peer.addr ∧
      c'.metadataPeerAttempts.lookup (r.args.infoHash, peer.addr) = some ⟨choice.turn.now, error⟩
  distinct : ((q.reports.map Prod.fst ++ phase.unreported r.args.peers q.asked).map
    PeerContact.addr).Nodup
  mismatched : ∀ peer todo, phase = .recordMismatch peer todo → (peer, .mismatched) ∈ q.reports
  failed : ∀ peer todo, phase = .recordFailure peer todo →
    ∃ e : MetadataFetchError, (peer, .failed e) ∈ q.reports ∧ r.lastError = e.toString

section Stepping

variable {env : RoundEnv} {choice : Choice} {r : Round} {q : ReportedRun}
  {phase phase' : RoundPhase} {c' : Catalogue} {peer other : PeerContact}
  {report report' : PeerReport}

/-- A peer with a report is not one that a report is still due on. -/
theorem Stepping.reported_ne (hs : Stepping env choice r q phase c')
    (hreport : (peer, report) ∈ q.reports)
    (hother : other ∈ phase.unreported r.args.peers q.asked) : peer.addr ≠ other.addr := by
  have hdistinct := hs.distinct
  rw [List.map_append, List.nodup_append] at hdistinct
  exact hdistinct.2.2 _ (List.mem_map_of_mem (List.mem_map_of_mem hreport)) _
    (List.mem_map_of_mem hother)

/-- There is one report on each peer. -/
theorem Stepping.report_unique (hs : Stepping env choice r q phase c')
    (hreport : (peer, report) ∈ q.reports) (hother : (other, report') ∈ q.reports)
    (haddr : other.addr = peer.addr) : report' = report := by
  have hdistinct := hs.distinct
  rw [List.map_append, List.nodup_append, List.map_map] at hdistinct
  have heq := List.inj_on_of_nodup_map hdistinct.1 hother hreport haddr
  exact (Prod.ext_iff.mp heq).2

/-- The peer that a step records is next in turn, or it has just been reported on. -/
theorem Stepping.recorded (hs : Stepping env choice r q phase c') {error : Option String}
    (hrecords : phase.records r.lastError = some (other, error)) :
    (other ∈ phase.unreported r.args.peers q.asked ∧ error = none) ∨
      (other, .mismatched) ∈ q.reports ∨
      ∃ e : MetadataFetchError, (other, .failed e) ∈ q.reports ∧ error = some e.toString := by
  cases phase with
  | attempting todo =>
    cases todo with
    | nil => cases hrecords
    | cons peer todo =>
      cases hrecords
      exact Or.inl ⟨List.mem_cons_self, rfl⟩
  | recordMismatch peer todo =>
    cases hrecords
    exact Or.inr (Or.inl (hs.mismatched other todo rfl))
  | recordFailure peer todo =>
    cases hrecords
    obtain ⟨e, he, htext⟩ := hs.failed other todo rfl
    exact Or.inr (Or.inr ⟨e, he, by rw [htext]⟩)
  | _ => cases hrecords

/-- The row of a peer is kept by a step that records another peer, or none. -/
theorem Stepping.kept (hs : Stepping env choice r q phase c')
    (hother : ∀ other error, phase.records r.lastError = some (other, error) →
      other.addr ≠ peer.addr) : RowKept r.args.infoHash peer q.store.catalogue c' := by
  obtain hkept | ⟨other, error, hrecords, haddr, -⟩ := hs.row peer
  · exact hkept
  · exact absurd haddr (hother other error hrecords)

/-- A tried peer stays eligible from the end of a cooldown that begins now. -/
theorem Stepping.cooled (hs : Stepping env choice r q phase c')
    (hold : EligibleFrom env r.args.infoHash (q.clock + env.retryAfterHours * 3600) peer
      q.store.catalogue)
    (herror : ∀ other error, phase.records r.lastError = some (other, error) →
      other.addr = peer.addr → error ≠ some hashMismatchText) :
    EligibleFrom env r.args.infoHash (choice.turn.now + env.retryAfterHours * 3600) peer c' := by
  have hclock := hs.clock
  obtain hkept | ⟨other, error, hrecords, haddr, hrow⟩ := hs.row peer
  · exact (hold.mono (by omega)).kept hkept
  · exact eligibleFrom_of_row hrow (herror other error hrecords haddr)

/-- The reports made so far stand after the step. -/
theorem Stepping.still_reported (hs : Stepping env choice r q phase c')
    (hreport : (peer, report) ∈ q.reports) :
    report.Stands env r.args.infoHash choice.turn.now peer c' := by
  have hold := hs.reported peer report hreport
  have htried : report.isTried = true → ∀ other error,
      phase.records r.lastError = some (other, error) → other.addr = peer.addr →
      error ≠ some hashMismatchText := by
    intro htried other error hrecords haddr
    obtain ⟨-, rfl⟩ | hmismatched | ⟨e, -, rfl⟩ := hs.recorded hrecords
    · exact nofun
    · rw [← hs.report_unique hreport hmismatched haddr] at htried
      cases htried
    · exact fun heq => e.toString_ne (Option.some.inj heq)
  cases report with
  | unread | rejected | mismatched => trivial
  | unrecorded | failed | uncommitted => exact hs.cooled hold (htried rfl)
  | delayed t =>
    refine EligibleFrom.kept hold (hs.kept fun other error hrecords haddr => ?_)
    obtain ⟨hother, -⟩ | hmismatched | ⟨e, hfailed, -⟩ := hs.recorded hrecords
    · exact hs.reported_ne hreport hother haddr.symm
    · cases hs.report_unique hreport hmismatched haddr
    · cases hs.report_unique hreport hfailed haddr

/-- A peer that is not recorded yet stays eligible. -/
theorem Stepping.still_awaiting (hs : Stepping env choice r q phase c')
    (hpeer : peer ∈ phase.awaiting)
    (hother : ∀ other error, phase.records r.lastError = some (other, error) →
      other.addr ≠ peer.addr) :
    EligibleFrom env r.args.infoHash choice.turn.now peer c' :=
  ((hs.awaiting peer hpeer).mono hs.clock).kept (hs.kept hother)

/-- In the two phases that note a result, the peers that follow are others. -/
theorem Stepping.noted_ne (hs : Stepping env choice r q phase c')
    (hpeer : peer ∈ phase.unreported r.args.peers q.asked)
    (hphase : ∀ todo, phase ≠ .attempting todo) {error : Option String}
    (hrecords : phase.records r.lastError = some (other, error)) : other.addr ≠ peer.addr := by
  cases phase with
  | attempting todo => exact absurd rfl (hphase todo)
  | recordMismatch noted todo =>
    cases hrecords
    exact hs.reported_ne (hs.mismatched other todo rfl) hpeer
  | recordFailure noted todo =>
    cases hrecords
    obtain ⟨e, he, -⟩ := hs.failed other todo rfl
    exact hs.reported_ne he hpeer
  | _ => cases hrecords

/-- The peer that is attempted is not among those that follow. -/
theorem Stepping.attempted_ne {todo : List PeerContact}
    (hs : Stepping env choice r q (.attempting (other :: todo)) c') (hpeer : peer ∈ todo) :
    other.addr ≠ peer.addr := by
  have hdistinct := hs.distinct
  rw [List.map_append, List.nodup_append] at hdistinct
  have hlist : ((other :: todo).map PeerContact.addr).Nodup := hdistinct.2.1
  rw [List.map_cons, List.nodup_cons] at hlist
  exact fun haddr => hlist.1 (haddr ▸ List.mem_map_of_mem hpeer)

/-- An attempt leaves the attempted peer with a cooldown at most. -/
theorem Stepping.attempted {todo : List PeerContact}
    (hs : Stepping env choice r q (.attempting (peer :: todo)) c') :
    EligibleFrom env r.args.infoHash (choice.turn.now + env.retryAfterHours * 3600) peer c' := by
  refine hs.cooled ((hs.awaiting peer List.mem_cons_self).mono (by omega)) ?_
  intro other error hrecords _
  cases hrecords
  exact nofun

variable {news : List (PeerContact × PeerReport)} {text : String}

/-- The database agrees with the new reports. -/
theorem Stepping.newly_reported (hs : Stepping env choice r q phase c')
    (h : Round.Tells env choice r q.asked q.store.catalogue phase phase' news text)
    (hreport : (peer, report) ∈ news) :
    report.Stands env r.args.infoHash choice.turn.now peer c' := by
  cases h with
  | unread | rejected | mismatched =>
    cases List.mem_singleton.mp hreport
    trivial
  | delayed hrow =>
    cases List.mem_singleton.mp hreport
    exact (eligibleFrom_of_delayed hrow).kept (hs.kept nofun)
  | unrecorded =>
    cases List.mem_singleton.mp hreport
    exact hs.attempted
  | failed =>
    cases List.mem_singleton.mp hreport
    exact hs.cooled (hs.asking peer (List.mem_singleton_self peer)) nofun
  | uncommitted =>
    obtain ⟨asked, hasked, heq⟩ := List.mem_map.mp hreport
    cases heq
    exact hs.cooled (hs.asking peer hasked) nofun
  | _ => cases hreport

/-- The peers that still await their attempt are eligible. -/
theorem Stepping.next_awaiting (hs : Stepping env choice r q phase c')
    (h : Round.Tells env choice r q.asked q.store.catalogue phase phase' news text)
    (hopen : phase'.isOpen = true) (hpeer : peer ∈ phase'.awaiting) :
    EligibleFrom env r.args.infoHash choice.turn.now peer c' := by
  cases h with
  | closed hclosed =>
    rw [hclosed] at hopen
    cases hopen
  | recheck | admitted => cases hpeer
  | eligible hrow =>
    obtain hpeer | hpeer := List.mem_append.mp hpeer
    · exact hs.still_awaiting hpeer nofun
    · cases List.mem_singleton.mp hpeer
      exact (eligibleFrom_of_eligible hrow).kept (hs.kept nofun)
  | unrecorded | recorded =>
    refine hs.still_awaiting (List.mem_cons_of_mem _ hpeer) fun other error hrecords => ?_
    cases hrecords
    exact hs.attempted_ne hpeer
  | notedMismatch | notedFailure =>
    exact hs.still_awaiting hpeer fun other error hrecords => hs.noted_ne hpeer nofun hrecords
  | _ => exact hs.still_awaiting hpeer nofun

/-- The peer that was attempted has a cooldown at most. -/
theorem Stepping.next_asking (hs : Stepping env choice r q phase c')
    (h : Round.Tells env choice r q.asked q.store.catalogue phase phase' news text)
    (hopen : phase'.isOpen = true) (hpeer : peer ∈ phase'.asking (phase.nextAsked q.asked)) :
    EligibleFrom env r.args.infoHash (choice.turn.now + env.retryAfterHours * 3600) peer c' := by
  cases h with
  | closed hclosed =>
    rw [hclosed] at hopen
    cases hopen
  | recorded =>
    cases List.mem_singleton.mp hpeer
    exact hs.attempted
  | parsed =>
    cases List.mem_singleton.mp hpeer
    exact hs.cooled (hs.asking peer (List.mem_singleton_self peer)) nofun
  | recommit => exact hs.cooled (hs.asking peer hpeer) nofun
  | _ => cases hpeer

end Stepping

/-! ## Runs -/

variable {env : RoundEnv} {args : RoundArgs} {q q' : ReportedRun}

theorem RoundPhase.awaiting_subset (peers asked : List PeerContact) (phase : RoundPhase) :
    phase.awaiting ⊆ phase.unreported peers asked := by
  cases phase with
  | filtering => exact List.subset_append_left _ _
  | fetching => exact List.subset_cons_self _ _
  | committing => exact List.subset_append_right _ _
  | attempting | recordMismatch | recordFailure => exact List.Subset.refl _
  | _ => exact List.nil_subset _

theorem RoundPhase.asking_subset (peers asked : List PeerContact) (phase : RoundPhase) :
    phase.asking asked ⊆ phase.unreported peers asked := by
  cases phase with
  | fetching peer todo =>
    intro other hother
    cases List.mem_singleton.mp hother
    exact List.mem_cons_self
  | committing => exact List.subset_append_left _ _
  | _ => exact List.nil_subset _

theorem PeerReport.Stands.kept {hash : InfoHash} {clock : Int} {peer : PeerContact}
    {c c' : Catalogue} {report : PeerReport} (h : report.Stands env hash clock peer c)
    (hk : RowKept hash peer c c') : report.Stands env hash clock peer c' := by
  cases report with
  | unread | rejected | mismatched => trivial
  | _ => exact EligibleFrom.kept h hk

theorem Standing.start (store : Store) (clock : Int) :
    Standing env (.start args store clock) := by
  refine ⟨?_, ?_, ?_⟩
  · exact nofun
  · exact nofun
  · exact nofun

theorem Standing.step {label : RoundLabel} (hnodup : (peerAddrs args.peers).Nodup)
    (ht : Told env args q) (hs : q.round.phase.isOpen = true → Standing env q)
    (horderly : Orderly q label) (h : ReportedRun.Step env q label q')
    (hopen' : q'.round.phase.isOpen = true) : Standing env q' := by
  -- A step of the round, or a write of another task that keeps the rows.
  obtain ⟨choice, rfl, -, -, hround, hstore, hreports, hasked, hclock⟩ | ⟨store, rfl, rfl⟩ :=
    ReportedRun.step_cases h
  · obtain ⟨htells, -⟩ := q.round.step_tells env choice q.store ht.asked
    rw [hround] at hopen'
    obtain ⟨hopen, -⟩ := htells.peers hopen'
    have hold := hs hopen
    have hperm := ht.peers hopen
    have hstepping : Stepping env choice q.round q q.round.phase q'.store.catalogue := by
      refine ⟨horderly, hold.reports, hold.awaiting, hold.asking, fun peer => ?_, ?_,
        ht.mismatched, ht.failed⟩
      · rw [hstore]
        exact step_row peer
      · rw [ht.args_eq]
        exact ((hperm.map PeerContact.addr).nodup_iff).mp hnodup
    have hhash : q'.round.args = q.round.args := by
      rw [hround, Round.step_args]
    refine ⟨fun peer report hreport => ?_, fun peer hpeer => ?_, fun peer hpeer => ?_⟩
    · rw [hhash, hclock]
      rw [hreports] at hreport
      exact (List.mem_append.mp hreport).elim hstepping.still_reported (hstepping.newly_reported htells)
    · rw [hhash, hclock]
      rw [hround] at hpeer
      exact hstepping.next_awaiting htells hopen' hpeer
    · rw [hhash, hclock]
      rw [hround, hasked] at hpeer
      exact hstepping.next_asking htells hopen' hpeer
  · have hold := hs hopen'
    have hperm := ht.peers hopen'
    have hkept : ∀ peer, peer ∈ q.reports.map Prod.fst ++
        q.round.phase.unreported args.peers q.asked →
        RowKept q.round.args.infoHash peer q.store.catalogue store.catalogue := by
      intro peer hpeer
      refine horderly peer ?_
      rw [ht.args_eq]
      exact hperm.mem_iff.mpr hpeer
    refine ⟨fun peer report hreport => ?_, fun peer hpeer => ?_, fun peer hpeer => ?_⟩
    · exact (hold.reports peer report hreport).kept
        (hkept peer (List.mem_append_left _ (List.mem_map_of_mem hreport)))
    · exact (hold.awaiting peer hpeer).kept
        (hkept peer (List.mem_append_right _ (RoundPhase.awaiting_subset _ _ _ hpeer)))
    · exact (hold.asking peer hpeer).kept
        (hkept peer (List.mem_append_right _ (RoundPhase.asking_subset _ _ _ hpeer)))

/-- The database agrees with the reports of an orderly run. -/
theorem standing_of_run {labels : List RoundLabel} {store : Store} {clock : Int}
    (hnodup : (peerAddrs args.peers).Nodup)
    (h : Run (Guarded Orderly (ReportedRun.Step env)) (.start args store clock) labels q)
    (hopen : q.round.phase.isOpen = true) : Standing env q := by
  have hboth : Told env args q ∧ (q.round.phase.isOpen = true → Standing env q) := by
    refine h.invariant (I := fun q => Told env args q ∧
      (q.round.phase.isOpen = true → Standing env q)) ?_
      ⟨.start store clock, fun _ => .start store clock⟩
    rintro q label q' ⟨ht, hs⟩ ⟨horderly, hstep⟩
    exact ⟨ht.step hstep, Standing.step hnodup ht hs horderly hstep⟩
  exact hboth.2 hopen

/-! ## What the tally says of the reports -/

section Tally

variable (reports : List (PeerContact × PeerReport))

/-- The times until which the filter put peers off. -/
def putOffTimes : Set Int := {t | ∃ x ∈ reports, x.2.putOff? = some t}

theorem tally_longBackoff :
    (Tally.ofReports reports).longBackoff = reports.any fun x => x.2.isLong := by
  induction reports using List.reverseRecOn with
  | nil => rfl
  | append_singleton reports x ih =>
    rw [Tally.ofReports_append, List.any_append, ← ih, List.any_cons, List.any_nil, Bool.or_false]
    rfl

theorem tally_tried : (Tally.ofReports reports).tried = reports.any fun x => x.2.isTried := by
  induction reports using List.reverseRecOn with
  | nil => rfl
  | append_singleton reports x ih =>
    rw [Tally.ofReports_append, List.any_append, ← ih, List.any_cons, List.any_nil, Bool.or_false]
    rfl

theorem tally_nextEligibleAt :
    (∀ t, (Tally.ofReports reports).nextEligibleAt = some t → IsLeast (putOffTimes reports) t) ∧
      ((Tally.ofReports reports).nextEligibleAt = none → putOffTimes reports = ∅) := by
  induction reports using List.reverseRecOn with
  | nil =>
    refine ⟨nofun, fun _ => ?_⟩
    ext t
    simp [putOffTimes]
  | append_singleton reports x ih =>
    obtain ⟨hsome, hnone⟩ := ih
    have hmore : putOffTimes (reports ++ [x]) = putOffTimes reports ∪ {t | x.2.putOff? = some t} := by
      ext t
      simp [putOffTimes, or_and_right, exists_or]
    have hnext : (Tally.ofReports (reports ++ [x])).nextEligibleAt =
        x.2.putOff?.elim (Tally.ofReports reports).nextEligibleAt
          (Round.earliest (Tally.ofReports reports).nextEligibleAt) := by
      rw [Tally.ofReports_append]
      rfl
    rw [hmore, hnext]
    cases hput : x.2.putOff? with
    | none =>
      have hempty : {t | none = some t} = (∅ : Set Int) := by
        ext t
        simp
      rw [hempty, Set.union_empty]
      exact ⟨hsome, hnone⟩
    | some t =>
      have hsingle : {u | some t = some u} = ({t} : Set Int) := by
        ext u
        simp [eq_comm]
      rw [hsingle]
      refine ⟨fun u hu => ?_, nofun⟩
      cases hold : (Tally.ofReports reports).nextEligibleAt with
      | none =>
        rw [hold] at hu
        cases hu
        rw [hnone hold, Set.empty_union]
        exact isLeast_singleton
      | some v =>
        rw [hold] at hu
        cases hu
        exact (hsome v hold).union isLeast_singleton

end Tally

/-! ## The decision -/

/-- The delay of a job after so many attempts, without jitter. -/
def retryDelay (long : Bool) (attempts : Nat) : Nat :=
  min ((if long then 900 else 30) * 2 ^ min attempts 10) 86400

/-- When a peer may be asked again after a round that ends now. -/
def PeerReport.eligibleAt (hours : Nat) (now : Int) (report : PeerReport) : Option Int :=
  if report.isTried then some (now + hours * 3600) else report.putOff?

def eligibleTimes (hours : Nat) (now : Int) (reports : List (PeerContact × PeerReport)) : Set Int :=
  {t | ∃ x ∈ reports, x.2.eligibleAt hours now = some t}

theorem PeerReport.eligibleAt_eq_some {hours : Nat} {now t : Int} {report : PeerReport} :
    report.eligibleAt hours now = some t ↔
      report.putOff? = some t ∨ (report.isTried = true ∧ t = now + hours * 3600) := by
  cases report <;> simp [eligibleAt, isTried, putOff?, eq_comm]

theorem PeerReport.isMismatch_iff {report : PeerReport} :
    report.isMismatch = true ↔ report.putOff? = none ∧ report.isTried = false := by
  cases report <;> simp [isMismatch, isTried, putOff?]

section Decision

variable {r : Round} {reports : List (PeerContact × PeerReport)} {now : Int} {jitter : Nat}

theorem retryDelay_le (long : Bool) (attempts : Nat) : retryDelay long attempts ≤ 86400 :=
  Nat.min_le_right _ _

/-- The sums of the decision are exact. -/
theorem saturatingAddI64_exact {amount : Int} (hnow : now ≤ maxTimestamp)
    (hamount : amount ≤ 4294967295 * 3600) : saturatingAddI64 now amount = now + amount := by
  rw [saturatingAddI64, i64Max]
  rw [maxTimestamp] at hnow
  omega

theorem backoffAt_eq (jitter : Nat) (hnow : now ≤ maxTimestamp) (htally : r.tally = .ofReports reports)
    (attempts : Nat) :
    ∃ extra ≤ max (retryDelay (reports.any fun x => x.2.isLong) attempts / 4) 1,
      r.backoffAt now jitter attempts =
        now + (retryDelay (reports.any fun x => x.2.isLong) attempts + extra : Nat) := by
  have hlong : r.longBackoff = reports.any fun x => x.2.isLong := by
    rw [← tally_longBackoff, ← htally]
    rfl
  rw [Round.backoffAt, hlong]
  show ∃ extra ≤ _, saturatingAddI64 now ((retryDelay (reports.any fun x => x.2.isLong) attempts +
    jitter % (max (retryDelay (reports.any fun x => x.2.isLong) attempts / 4) 1 + 1) : Nat) : Int)
      = _
  have hdelay := retryDelay_le (reports.any fun x => x.2.isLong) attempts
  generalize retryDelay (reports.any fun x => x.2.isLong) attempts = delay at hdelay ⊢
  have hjitter : jitter % (max (delay / 4) 1 + 1) < max (delay / 4) 1 + 1 :=
    Nat.mod_lt _ (Nat.succ_pos _)
  refine ⟨jitter % (max (delay / 4) 1 + 1), by omega, saturatingAddI64_exact hnow ?_⟩
  omega

theorem putOffTimes_of_tally (htally : r.tally = .ofReports reports) :
    (∀ t, r.nextEligibleAt = some t → IsLeast (putOffTimes reports) t) ∧
      (r.nextEligibleAt = none → putOffTimes reports = ∅) := by
  have hnext : r.nextEligibleAt = (Tally.ofReports reports).nextEligibleAt := by
    rw [← htally]
    rfl
  rw [hnext]
  exact tally_nextEligibleAt reports

theorem tried_of_tally (htally : r.tally = .ofReports reports) :
    0 < r.retryableAttempts ↔ ∃ x ∈ reports, x.2.isTried = true := by
  have htried : decide (0 < r.retryableAttempts) = reports.any fun x => x.2.isTried := by
    rw [← tally_tried, ← htally]
    rfl
  rw [← decide_eq_true_eq (p := 0 < r.retryableAttempts), htried, List.any_eq_true]

/-- A peer can be retried: the filter put one off, or an attempt did not come to an end. -/
theorem retryable_iff (env : RoundEnv) (r : Round) (now : Int) :
    (((r.nextPeerEligibility env now).isSome ||
      (0 < r.retryableAttempts && env.retryAfterHours = 0)) = false) ↔
      r.nextEligibleAt = none ∧ ¬ 0 < r.retryableAttempts := by
  rw [Round.nextPeerEligibility]
  by_cases htried : 0 < r.retryableAttempts
  · by_cases hhours : 0 < env.retryAfterHours
    · simp [htried, hhours, Round.earliest]
    · have hzero : env.retryAfterHours = 0 := by omega
      simp [htried, hzero]
  · simp [htried]

/-- The round parks the job when every peer sent metadata of another hash. -/
theorem conclude_parks (htally : r.tally = .ofReports reports) :
    (∃ n, (r.conclude env now jitter).phase = .parking n) ↔
      ∀ x ∈ reports, x.2.isMismatch = true := by
  obtain ⟨hsome, hnone⟩ := putOffTimes_of_tally htally
  have hphase : (∃ n, (r.conclude env now jitter).phase = .parking n) ↔
      r.nextEligibleAt = none ∧ ¬ 0 < r.retryableAttempts := by
    rw [← retryable_iff env r now, Round.conclude]
    simp only
    split
    · next hno => exact ⟨fun _ => hno, fun _ => ⟨_, rfl⟩⟩
    · next hyes =>
      refine ⟨?_, fun hno => absurd hno hyes⟩
      rintro ⟨n, hn⟩
      cases hn
  rw [hphase, tried_of_tally htally]
  constructor
  · rintro ⟨hnext, htried⟩ x hx
    rw [PeerReport.isMismatch_iff]
    refine ⟨?_, Bool.eq_false_iff.mpr fun h => htried ⟨x, hx, h⟩⟩
    by_contra hput
    obtain ⟨t, ht⟩ := Option.ne_none_iff_exists'.mp hput
    have hmem : t ∈ putOffTimes reports := ⟨x, hx, ht⟩
    rw [hnone hnext] at hmem
    exact hmem
  · intro hall
    refine ⟨?_, ?_⟩
    · by_contra hnext
      obtain ⟨t, ht⟩ := Option.ne_none_iff_exists'.mp hnext
      obtain ⟨x, hx, hput⟩ := (hsome t ht).1
      rw [(PeerReport.isMismatch_iff.mp (hall x hx)).1] at hput
      cases hput
    · rintro ⟨x, hx, htried⟩
      rw [(PeerReport.isMismatch_iff.mp (hall x hx)).2] at htried
      cases htried

/-- The eligible times are those of the peers that were put off, and the end of a cooldown that
begins now if a peer was tried. -/
theorem eligibleTimes_eq (hours : Nat) (now : Int) (reports : List (PeerContact × PeerReport)) :
    eligibleTimes hours now reports =
      putOffTimes reports ∪ {t | (∃ x ∈ reports, x.2.isTried = true) ∧ t = now + hours * 3600} := by
  ext t
  simp only [eligibleTimes, putOffTimes, PeerReport.eligibleAt_eq_some, Set.mem_ofPred_eq,
    Set.mem_union, and_or_left, exists_or, ← and_assoc, exists_and_right]

/-- The time of the retry is the later one of the backoff and the first eligible peer. -/
theorem conclude_schedules {n : Nat} {next : Int} (hhours : env.retryAfterHours ≤ u32Max)
    (hnow : now ≤ maxTimestamp) (htally : r.tally = .ofReports reports)
    (hread : ∀ peer t, (peer, .unread t) ∉ reports)
    (hdelayed : ∀ peer t, (peer, .delayed t) ∈ reports → 0 < env.retryAfterHours)
    (h : (r.conclude env now jitter).phase = .scheduling n next) :
    n = saturatingAddU32 r.args.priorAttemptCount r.attempts ∧
      ∃ t, IsLeast (eligibleTimes env.retryAfterHours now reports) t ∧
        next = max (r.backoffAt now jitter n) t := by
  obtain ⟨hsome, hnone⟩ := putOffTimes_of_tally htally
  rw [Round.conclude] at h
  simp only at h
  split at h
  · cases h
  · next hyes =>
    cases h
    refine ⟨rfl, ?_⟩
    rw [retryable_iff] at hyes
    have hlater := Round.backoffAt_later (r := r) hnow jitter
      (saturatingAddU32 r.args.priorAttemptCount r.attempts)
    -- A cooldown of a `u32` of hours after a valid time does not saturate.
    have hsum : saturatingAddI64 now (env.retryAfterHours * 3600) =
        now + env.retryAfterHours * 3600 := by
      refine saturatingAddI64_exact hnow ?_
      rw [u32Max] at hhours
      omega
    rw [eligibleTimes_eq, Round.nextPeerEligibility, hsum, ← tried_of_tally htally]
    generalize r.backoffAt now jitter _ = backoff at hlater ⊢
    -- The peers that were tried are eligible again after the cooldown, all at once.
    by_cases htried : 0 < r.retryableAttempts
    · have hcooled : {t | 0 < r.retryableAttempts ∧ t = now + (env.retryAfterHours : Int) * 3600} =
          {now + (env.retryAfterHours : Int) * 3600} := by
        ext t
        simp [htried]
      rw [hcooled]
      cases hnext : r.nextEligibleAt with
      | none =>
        rw [hnone hnext, Set.empty_union]
        refine ⟨_, isLeast_singleton, ?_⟩
        by_cases hwait : 0 < r.retryableAttempts ∧ 0 < env.retryAfterHours
        · rw [if_pos hwait]
          rfl
        · -- Without a cooldown the peer is eligible at once, and the backoff decides.
          rw [if_neg hwait]
          have hzero : env.retryAfterHours = 0 := by omega
          rw [hzero]
          show backoff = max backoff (now + 0 * 3600)
          omega
      | some u =>
        -- A peer is put off only when there is a cooldown.
        have hwait : 0 < r.retryableAttempts ∧ 0 < env.retryAfterHours := by
          obtain ⟨⟨peer, report⟩, hx, hput⟩ := (hsome u hnext).1
          cases report with
          | unread v => exact absurd hx (hread peer v)
          | delayed v => exact ⟨htried, hdelayed peer v hx⟩
          | _ => cases hput
        rw [if_pos hwait]
        exact ⟨_, (hsome u hnext).union isLeast_singleton, rfl⟩
    · have hcooled : {t | 0 < r.retryableAttempts ∧ t = now + (env.retryAfterHours : Int) * 3600} =
          ∅ := by
        ext t
        simp [htried]
      rw [hcooled, Set.union_empty, if_neg (fun hwait => htried hwait.1)]
      cases hnext : r.nextEligibleAt with
      | none => exact absurd ⟨hnext, htried⟩ hyes
      | some u => exact ⟨u, hsome u hnext, rfl⟩

end Decision

/-- The products and sums of the decision fit the types that they are computed in. -/
structure NoOverflow (env : RoundEnv) (now : Int) (long : Bool) (attempts : Nat) : Prop where
  cooldown : (env.retryAfterHours * 3600 : Int) ≤ i64Max
  cooled : now + env.retryAfterHours * 3600 ≤ i64Max
  doubled : (if long then 900 else 30) * 2 ^ min attempts 10 < 2 ^ 64
  delayed : ∀ extra ≤ max (retryDelay long attempts / 4) 1,
    now + (retryDelay long attempts + extra : Nat) ≤ i64Max

theorem noOverflow {now : Int} (hhours : env.retryAfterHours ≤ u32Max) (hnow : now ≤ maxTimestamp)
    (long : Bool) (attempts : Nat) : NoOverflow env now long attempts := by
  rw [u32Max] at hhours
  rw [maxTimestamp] at hnow
  have hdelay := retryDelay_le long attempts
  refine ⟨?_, ?_, ?_, fun extra hextra => ?_⟩
  · rw [i64Max]
    omega
  · rw [i64Max]
    omega
  · have hpow : 2 ^ min attempts 10 ≤ 2 ^ 10 := Nat.pow_le_pow_right (by decide) (Nat.min_le_right _ _)
    have hbase : (if long then 900 else 30) ≤ 900 := by
      split <;> decide
    calc (if long then 900 else 30) * 2 ^ min attempts 10 ≤ 900 * 2 ^ 10 :=
          Nat.mul_le_mul hbase hpow
      _ < 2 ^ 64 := by decide
  · rw [i64Max]
    omega

/-- A peer with a report is eligible from the time that the decision takes for it. -/
theorem PeerReport.Stands.eligible {hash : InfoHash} {clock now t : Int} {peer : PeerContact}
    {c : Catalogue} {report : PeerReport} (h : report.Stands env hash clock peer c)
    (hclock : clock ≤ now) (hread : ∀ u, report ≠ .unread u)
    (ht : report.eligibleAt env.retryAfterHours now = some t) : EligibleFrom env hash t peer c := by
  cases report with
  | unread u => exact absurd rfl (hread u)
  | rejected | mismatched => cases ht
  | delayed u =>
    cases ht
    exact h
  | unrecorded | failed | uncommitted =>
    cases ht
    exact EligibleFrom.mono h (by omega)

theorem step_last {choice : Choice} {r : Round} {s : Store} (h : r.phase = .attempting []) :
    r.step env choice s = (r.conclude env choice.turn.now choice.jitter, s) := by
  rw [Round.step]
  simp only [h]

/-- The peers that a round is spawned with have distinct addresses. -/
theorem takeRound_distinct (job : HashJob) (limit : Nat) :
    (peerAddrs (job.takeRound limit).1).Nodup := by
  rw [HashJob.takeRound_fst]
  exact job.nodup.sublist ((List.take_sublist limit job.peers).map PeerContact.addr)

/-- After the last peer of a round, each of which has one report, the job is parked if every peer
sent metadata of another hash. Otherwise the retry comes after the backoff and no later than the
longest backoff or the first eligible peer, and the filter will let a peer pass then, if the clock
did not run backwards and nobody else records attempts on the peers. -/
theorem retry_times {labels : List RoundLabel} {store : Store} {clock : Int} {choice : Choice}
    (hhours : env.retryAfterHours ≤ u32Max)
    (hrun : Run (ReportedRun.Step env) (.start args store clock) labels q)
    (hlast : q.round.phase = .attempting [])
    (hstep : ReportedRun.Step env q (.stepped choice) q') :
    let now := choice.turn.now
    let attempts := saturatingAddU32 args.priorAttemptCount q.round.attempts
    let long := q.reports.any fun x => x.2.isLong
    args.peers.Perm (q.reports.map Prod.fst) ∧
    NoOverflow env now long attempts ∧
    (∀ n next, q'.round.phase = .scheduling n next →
      (∀ peer t, (peer, .unread t) ∉ q.reports) →
      n = attempts ∧
      (∃ t, IsLeast (eligibleTimes env.retryAfterHours now q.reports) t ∧
        (∃ extra ≤ max (retryDelay long attempts / 4) 1,
          next = max (now + (retryDelay long attempts + extra : Nat)) t) ∧
        now + retryDelay long attempts ≤ next ∧ next ≤ max (now + 86400 + 21600) t) ∧
      ((peerAddrs args.peers).Nodup →
        Run (Guarded Orderly (ReportedRun.Step env)) (.start args store clock) labels q →
        q.clock ≤ now →
        ∃ peer ∈ args.peers, ∀ c, RowKept args.infoHash peer q'.store.catalogue c →
          peerRetryEligibility next args.infoHash peer.addr env.retryAfterHours c = .eligible)) ∧
    ((∃ n, q'.round.phase = .parking n) ↔ ∀ x ∈ q.reports, x.2.isMismatch = true) := by
  intro now attempts long
  have ht := told_of_run hrun
  obtain ⟨_, heq, -, hnow, hround, hstore, -⟩ | ⟨_, heq, -⟩ := ReportedRun.step_cases hstep
  · cases heq
    rw [step_last hlast] at hround hstore
    have hopen : q.round.phase.isOpen = true := by
      rw [hlast]
      rfl
    -- The peers are used up, so each of them has its report.
    have hperm : args.peers.Perm (q.reports.map Prod.fst) := by
      have hall := ht.peers hopen
      rw [hlast, RoundPhase.unreported, List.append_nil] at hall
      exact hall
    refine ⟨hperm, noOverflow hhours hnow _ _, fun n next hphase hread => ?_, ?_⟩
    · rw [hround] at hphase
      obtain ⟨hn, t, hleast, hnext⟩ :=
        conclude_schedules hhours hnow ht.tally hread ht.delayed hphase
      rw [ht.args_eq] at hn
      obtain ⟨extra, hextra, hbackoff⟩ := backoffAt_eq choice.jitter hnow ht.tally n
      rw [hbackoff] at hnext
      rw [hn] at hextra hnext
      have hdelay := retryDelay_le long attempts
      change extra ≤ max (retryDelay long attempts / 4) 1 at hextra
      change next = max (now + (retryDelay long attempts + extra : Nat)) t at hnext
      refine ⟨hn, ⟨t, hleast, ⟨extra, hextra, hnext⟩, ?_, ?_⟩, fun hnodup horderly hclock => ?_⟩
      · omega
      · omega
      -- The peer with the first eligible time passes the filter at the retry.
      · obtain ⟨⟨peer, report⟩, hreport, heligible⟩ := hleast.1
        have hs := (standing_of_run hnodup horderly hopen).reports peer report hreport
        rw [ht.args_eq, ← show q'.store = q.store from hstore] at hs
        have hfrom := hs.eligible hclock (fun u hu => hread peer u (hu ▸ hreport)) heligible
        refine ⟨peer, hperm.mem_iff.mpr (List.mem_map_of_mem hreport), fun c hkept => ?_⟩
        refine hfrom.kept hkept next ?_
        rw [hnext]
        exact le_max_right _ _
    · rw [hround]
      exact conclude_parks ht.tally
  · cases heq

/-- No peer is left to be asked. -/
def RoundPhase.hasAsked : RoundPhase → Bool
  | .attempting [] => true
  | _ => false

theorem RoundPhase.eq_of_hasAsked {phase : RoundPhase} (h : phase.hasAsked = true) :
    phase = .attempting [] := by
  cases phase with
  | attempting todo =>
    cases todo with
    | nil => rfl
    | cons peer todo => cases h
  | _ => cases h

def RoundPhase.isScheduling : RoundPhase → Bool
  | .scheduling _ _ => true
  | _ => false

def PeerReport.isUnread : PeerReport → Bool
  | .unread _ => true
  | _ => false

/-- The clock of a step is not behind that of the run. -/
def ReportedRun.inTime (q : ReportedRun) : RoundLabel → Bool
  | .stepped choice => q.clock ≤ choice.turn.now
  | .interfered _ => false

/-- The only peer of a discovered hash times out, and may be asked again when the retry is due. -/
theorem retry_times_timed_out :
    let peer : PeerContact := ⟨⟨⟨10, 0, 0, 1⟩, 6881⟩⟩
    let env : RoundEnv := ⟨.ascii, ⟨fun _ => 8, fun _ => .error "no dictionary"⟩, 24⟩
    let job := ((HashJob.new 2).mergePeers [peer] 1).1
    let args : RoundArgs := ⟨0, 7, (job.takeRound 1).1, 2⟩
    let store : Store := { Store.migrated with
      catalogue := (recordDiscovery 1 7 "announce_peer" [peer] 64 .migrated).2 }
    let choice : Choice := ⟨⟨1, 1048576, .commits⟩, .error (.timeout .connect), 0⟩
    ∃ labels q q' next, Run (RoundRun.Step env) (.start args store) labels q.toRoundRun ∧
      Run (ReportedRun.Step env) (.start args store 1) labels q ∧
      ReportedRun.Step env q (.stepped choice) q' ∧ q'.round.phase = .scheduling 3 next ∧
      1 + 240 ≤ next ∧
      peerRetryEligibility next 7 peer.addr 24 q'.store.catalogue = .eligible := by
  intro peer env job args store choice
  let labels : List RoundLabel := List.replicate 6 (.stepped choice)
  obtain ⟨p, hplay⟩ : ∃ p, play (RoundRun.next env) labels (.start args store) = some p :=
    Option.isSome_iff_exists.mp (by decide +kernel)
  obtain ⟨q, hq, rfl⟩ := reported_of_run 1 (play_run hplay)
  have hall : (play (ReportedRun.next env) labels (.start args store 1)).any (fun q =>
      checked (ReportedRun.next env) ReportedRun.inTime labels (.start args store 1) &&
      (q.round.phase.hasAsked && q.clock ≤ 1 &&
      (q.reports.any (fun x => x.2.isLong) = false) && q.round.attempts = 1 &&
      (q.reports.all fun x => !x.2.isUnread)) &&
      (ReportedRun.next env q (.stepped choice)).any fun q' =>
        q'.round.phase.isScheduling) = true := by
    decide +kernel
  rw [hq.play_eq, Option.any_some] at hall
  simp only [Bool.and_eq_true, decide_eq_true_eq] at hall
  obtain ⟨⟨hchecked, ⟨⟨⟨hphase, hclock⟩, hlong⟩, hattempts⟩, hread⟩, hends⟩ := hall
  obtain ⟨q', hq', hphase'⟩ := (Option.any_eq_true _ _).mp hends
  have horderly : Run (Guarded Orderly (ReportedRun.Step env)) (.start args store 1) labels q := by
    refine play_guarded (fun q label hin => ?_) hq.play_eq hchecked
    cases label with
    | stepped choice =>
      have hclock : q.clock ≤ choice.turn.now := of_decide_eq_true hin
      exact hclock
    | interfered store => cases hin
  have hlast : q.round.phase = .attempting [] := RoundPhase.eq_of_hasAsked hphase
  obtain ⟨-, -, hschedule, -⟩ :=
    retry_times (show 24 ≤ u32Max by decide) hq hlast hq'
  have hnone : ∀ peer t, (peer, .unread t) ∉ q.reports := by
    intro peer t hmem
    cases List.all_eq_true.mp hread _ hmem
  cases hp : q'.round.phase with
  | scheduling n next =>
    obtain ⟨hn, ⟨t, -, -, hbackoff, -⟩, heligible⟩ := hschedule n next hp hnone
    rw [hattempts] at hn hbackoff
    rw [hlong] at hbackoff
    obtain ⟨other, hother, hkept⟩ := heligible (takeRound_distinct job 1) horderly hclock
    obtain rfl := List.mem_singleton.mp hother
    refine ⟨labels, q, q', next, play_run hplay, hq, hq', ?_, hbackoff, hkept _ (Or.inl rfl)⟩
    rw [hn] at hp
    exact hp
  | _ =>
    rw [hp] at hphase'
    cases hphase'

end Btfind
