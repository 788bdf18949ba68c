import Btfind.Metadata.RoundLog

/-!
# The verdict of a round

A round ends, calls its peers in order and at most once, and its outcome, its counters and the
job row agree, whatever the peers, the database and the other tasks do.
-/

namespace Btfind

open Transition RoundEvent

/-! ## The account of an open round -/

/-- Nothing is fetched any more. -/
def RoundPhase.isDecided : RoundPhase → Bool
  | .markUnsupported _ | .markTerminal _ | .finished _ => true
  | _ => false

/-- A request to write the job row can have been made. -/
def RoundPhase.isWritten : RoundPhase → Bool
  | .markUnsupported _ | .finished _ => true
  | _ => false

/-- The next step is about a peer of the filter or of the loop. -/
def RoundPhase.takesPeer : RoundPhase → Bool
  | .filtering (_ :: _) _ | .attempting (_ :: _) => true
  | _ => false

/-- The peers that were found eligible and those that were attempted. -/
def RoundPhase.Accounts (peers eligible attempted : List PeerContact) : RoundPhase → Prop
  | .checkTerminal => eligible = [] ∧ attempted = []
  | .filtering todo found =>
    eligible = found ∧ attempted = [] ∧ ∃ seen, peers = seen ++ todo ∧ found.Sublist seen
  | .attempting todo | .fetching _ todo | .recordMismatch _ todo | .recordFailure _ todo
  | .committing _ _ todo => eligible.Sublist peers ∧ attempted ++ todo = eligible
  | _ => eligible.Sublist peers ∧ attempted <+: eligible

theorem RoundPhase.Accounts.weaken {peers eligible attempted : List PeerContact}
    {phase : RoundPhase} (h : phase.Accounts peers eligible attempted) :
    eligible.Sublist peers ∧ attempted <+: eligible := by
  cases phase with
  | checkTerminal =>
    obtain ⟨rfl, rfl⟩ := h
    exact ⟨List.nil_sublist _, List.nil_prefix⟩
  | filtering todo found =>
    obtain ⟨rfl, rfl, seen, rfl, hsub⟩ := h
    exact ⟨hsub.trans (List.sublist_append_left _ _), List.nil_prefix⟩
  | attempting | fetching | recordMismatch | recordFailure | committing =>
    obtain ⟨hsub, rfl⟩ := h
    exact ⟨hsub, List.prefix_append _ _⟩
  | _ => exact h

theorem RoundPhase.isDecided_of_isFinished {phase : RoundPhase}
    (h : phase.isFinished = true) : phase.isDecided = true := by
  cases phase with
  | finished => rfl
  | _ => cases h

/-- What the last write of a round will say. -/
def RoundPhase.Plans (args : RoundArgs) (attempts : Nat) (log : List RoundEvent) :
    RoundPhase → Prop
  | .parking n => n = saturatingAddU32 args.priorAttemptCount attempts
  | .scheduling n next => n = saturatingAddU32 args.priorAttemptCount attempts ∧
      ∃ now, .concluded now ∈ log ∧ now < next
  | _ => True

structure Kept (args : RoundArgs) (phase : RoundPhase) (attempts : Nat) (log : List RoundEvent) :
    Prop where
  peers : phase.Accounts args.peers (eligiblePeers log) (attemptedPeers log)
  count : attempts = min (attemptedPeers log).length u32Max
  fetched : (fetchedPeers log).Sublist (attemptedPeers log)
  plans : phase.Plans args attempts log
  requests : ∀ status n next answer, .requested status n next answer ∈ log →
    n = saturatingAddU32 args.priorAttemptCount attempts ∧ phase.isWritten = true
  committed : .committed ∈ log → phase.isFinished = true
  counted : (countedOutcomes log).length ≤ if phase.isFinished then 1 else 0

section Logs

variable {env : RoundEnv} {choice : Choice} {r : Round} {s s' : Store} {args : RoundArgs}
  {phase phase' : RoundPhase} {attempts : Nat} {log events : List RoundEvent} {hash : InfoHash}
  {status : JobStatus} {n : Nat} {next : Int} {outcome : MetadataRetrievalOutcome}

@[simp] theorem eligiblePeers_append (log events : List RoundEvent) :
    eligiblePeers (log ++ events) = eligiblePeers log ++ eligiblePeers events :=
  List.filterMap_append

@[simp] theorem attemptedPeers_append (log events : List RoundEvent) :
    attemptedPeers (log ++ events) = attemptedPeers log ++ attemptedPeers events :=
  List.filterMap_append

@[simp] theorem fetchedPeers_append (log events : List RoundEvent) :
    fetchedPeers (log ++ events) = fetchedPeers log ++ fetchedPeers events :=
  List.filterMap_append

@[simp] theorem countedOutcomes_append (log events : List RoundEvent) :
    countedOutcomes (log ++ events) = countedOutcomes log ++ countedOutcomes events :=
  List.filterMap_append

@[simp] theorem writeAnswers_append (log events : List RoundEvent) :
    writeAnswers (log ++ events) = writeAnswers log ++ writeAnswers events :=
  List.filterMap_append

theorem filterMap_noise {α : Type} {f : RoundEvent → Option α}
    (hf : ∀ e : RoundEvent, e.isNoise = true → f e = none)
    (hnoise : ∀ e ∈ events, e.isNoise = true) : events.filterMap f = [] :=
  List.filterMap_eq_nil_iff.mpr fun e he => hf e (hnoise e he)

/-- The events name no peer. -/
structure Peerless (events : List RoundEvent) : Prop where
  eligible : eligiblePeers events = []
  attempted : attemptedPeers events = []
  fetched : fetchedPeers events = []

theorem peerless_noise (hnoise : ∀ e ∈ events, e.isNoise = true) : Peerless events where
  eligible := filterMap_noise (fun e he => by cases e <;> first | rfl | cases he) hnoise
  attempted := filterMap_noise (fun e he => by cases e <;> first | rfl | cases he) hnoise
  fetched := filterMap_noise (fun e he => by cases e <;> first | rfl | cases he) hnoise

theorem Round.Marks.peerless (h : Round.Marks hash status n next outcome s' events) :
    Peerless events := by
  cases h <;> exact ⟨rfl, rfl, rfl⟩

/-- All but the filter and the loop over the eligible peers. -/
theorem Round.Logs.peerless (h : Round.Logs env choice r s phase phase' attempts s' events)
    (htakes : phase.takesPeer = false) : Peerless events := by
  cases h with
  | skipped | eligible | refused | recorded => cases htakes
  | notedMismatch hnoise | notedFailure hnoise => exact peerless_noise hnoise
  | marked hmarks | parkedJob hmarks | scheduledJob hmarks => exact hmarks.peerless
  | markedTerminal _ hmarks =>
    have hpeerless := hmarks.peerless
    refine ⟨?_, ?_, ?_⟩
    · rw [eligiblePeers_append, hpeerless.eligible]
      rfl
    · rw [attemptedPeers_append, hpeerless.attempted]
      rfl
    · rw [fetchedPeers_append, hpeerless.fetched]
      rfl
  | _ => exact ⟨rfl, rfl, rfl⟩

theorem Round.Logs.accounts_peerless {eligible attempted : List PeerContact}
    (h : Round.Logs env choice r s phase phase' attempts s' events)
    (htakes : phase.takesPeer = false)
    (hpeers : phase.Accounts r.args.peers eligible attempted) :
    phase'.Accounts r.args.peers eligible attempted := by
  cases h with
  | skipped | eligible | refused | recorded => cases htakes
  | alreadyTerminal =>
    obtain ⟨rfl, rfl⟩ := hpeers
    exact ⟨List.nil_sublist _, List.nil_prefix⟩
  | admitted => exact ⟨hpeers.1, hpeers.2, [], rfl, .slnil⟩
  | filtered =>
    obtain ⟨rfl, rfl, seen, hseen, hsub⟩ := hpeers
    rw [List.append_nil] at hseen
    rw [hseen]
    exact ⟨hsub, rfl⟩
  | parked | scheduled | rejected | committed | tooLarge =>
    obtain ⟨hsub, rfl⟩ := hpeers
    exact ⟨hsub, List.prefix_append _ _⟩
  | _ => exact hpeers

theorem Round.Logs.accounts (h : Round.Logs env choice r s phase phase' attempts s' events)
    (hpeers : phase.Accounts r.args.peers (eligiblePeers log) (attemptedPeers log)) :
    phase'.Accounts r.args.peers (eligiblePeers (log ++ events))
      (attemptedPeers (log ++ events)) := by
  rw [eligiblePeers_append, attemptedPeers_append]
  by_cases htakes : phase.takesPeer = false
  · have hpeerless := h.peerless htakes
    rw [hpeerless.eligible, hpeerless.attempted, List.append_nil, List.append_nil]
    exact h.accounts_peerless htakes hpeers
  cases h with
  | @skipped peer todo _ _ _ hnoise =>
    obtain ⟨heligible, hattempted, seen, hseen, hsub⟩ := hpeers
    have hnone := peerless_noise hnoise
    rw [hnone.eligible, hnone.attempted, List.append_nil, List.append_nil]
    refine ⟨heligible, hattempted, seen ++ [peer], ?_, hsub.trans (List.sublist_append_left _ _)⟩
    rw [hseen, List.append_assoc]
    rfl
  | @eligible peer todo =>
    obtain ⟨rfl, hattempted, seen, hseen, hsub⟩ := hpeers
    refine ⟨rfl, ?_, seen ++ [peer], ?_, hsub.append (List.Sublist.refl _)⟩
    · rw [hattempted]
      rfl
    · rw [hseen, List.append_assoc]
      rfl
  | refused | recorded =>
    obtain ⟨hsub, heligible⟩ := hpeers
    refine ⟨?_, ?_⟩
    · exact (List.append_nil _).symm ▸ hsub
    · rw [← heligible, List.append_assoc]
      exact (List.append_nil _).symm
  | _ => exact absurd rfl htakes

theorem Round.Logs.count (h : Round.Logs env choice r s phase phase' attempts s' events)
    (hcount : r.attempts = min (attemptedPeers log).length u32Max) :
    attempts = min (attemptedPeers (log ++ events)).length u32Max := by
  rw [attemptedPeers_append]
  by_cases htakes : phase.takesPeer = false
  · rw [(h.peerless htakes).attempted, List.append_nil]
    cases h with
    | refused | recorded => cases htakes
    | _ => exact hcount
  · cases h with
    | skipped hnoise =>
      rw [(peerless_noise hnoise).attempted, List.append_nil]
      exact hcount
    | eligible => exact (List.append_nil (attemptedPeers log)).symm ▸ hcount
    | refused | recorded =>
      rw [saturatingAddU32, hcount, List.length_append]
      show _ = min ((attemptedPeers log).length + 1) u32Max
      omega
    | _ => exact absurd rfl htakes

theorem Round.Logs.fetched (h : Round.Logs env choice r s phase phase' attempts s' events)
    (hfetched : (fetchedPeers log).Sublist (attemptedPeers log)) :
    (fetchedPeers (log ++ events)).Sublist (attemptedPeers (log ++ events)) := by
  rw [fetchedPeers_append, attemptedPeers_append]
  refine hfetched.append ?_
  by_cases htakes : phase.takesPeer = false
  · rw [(h.peerless htakes).fetched]
    exact List.nil_sublist _
  · cases h with
    | skipped hnoise =>
      rw [(peerless_noise hnoise).fetched]
      exact List.nil_sublist _
    | eligible => exact .slnil
    | refused => exact List.nil_sublist _
    | recorded => exact List.Sublist.refl _
    | _ => exact absurd rfl htakes

theorem Round.Logs.plans (h : Round.Logs env choice r s phase phase' attempts s' events)
    (hnow : choice.turn.now ≤ maxTimestamp) :
    phase'.Plans r.args attempts (log ++ events) := by
  cases h with
  | parked => exact rfl
  | scheduled hlater =>
    exact ⟨rfl, _, List.mem_append_right _ List.mem_cons_self, hlater hnow⟩
  | _ => trivial

theorem Round.Marks.request (h : Round.Marks hash status n next outcome s' events) {e : RoundEvent}
    (he : e ∈ events) : (∃ answer, e = .requested status n next answer) ∨
      e = .persistenceError ∨ e = .counted outcome := by
  cases h with
  | failed =>
    obtain rfl | he := List.mem_cons.mp he
    · exact Or.inl ⟨none, rfl⟩
    · exact Or.inr (Or.inl (List.mem_singleton.mp he))
  | missed => exact Or.inl ⟨some 0, List.mem_singleton.mp he⟩
  | @matched rows =>
    obtain rfl | he := List.mem_cons.mp he
    · exact Or.inl ⟨some rows, rfl⟩
    · exact Or.inr (Or.inr (List.mem_singleton.mp he))

theorem Round.Marks.attempts_eq (h : Round.Marks hash status n next outcome s' events)
    {own : JobStatus} {m : Nat} {t : Int} {answer : Option Nat}
    (he : .requested own m t answer ∈ events) : m = n := by
  obtain ⟨_, heq⟩ | heq | heq := h.request he <;> cases heq
  rfl

/-- What a step requests says how often the peers of the hash were attempted. -/
theorem Round.Logs.request (h : Round.Logs env choice r s phase phase' attempts s' events)
    (hplans : phase.Plans r.args r.attempts log) {answer : Option Nat}
    (he : .requested status n next answer ∈ events) :
    n = saturatingAddU32 r.args.priorAttemptCount attempts ∧ phase'.isWritten = true := by
  cases h with
  | skipped hnoise | notedMismatch hnoise | notedFailure hnoise => cases hnoise _ he
  | remark =>
    obtain heq | heq := List.mem_cons.mp he
    · cases heq
      exact ⟨rfl, rfl⟩
    · cases List.mem_singleton.mp heq
  | marked hmarks => exact ⟨hmarks.attempts_eq he, rfl⟩
  | markedTerminal _ hmarks =>
    obtain he | he := List.mem_append.mp he
    · exact ⟨hmarks.attempts_eq he, rfl⟩
    · cases List.mem_singleton.mp he
  | parkedJob hmarks => exact ⟨(hmarks.attempts_eq he).trans hplans, rfl⟩
  | scheduledJob hmarks => exact ⟨(hmarks.attempts_eq he).trans hplans.1, rfl⟩
  | _ => simp at he

/-- A phase in which a request was made is left only for the end. -/
theorem Round.Logs.written (h : Round.Logs env choice r s phase phase' attempts s' events)
    (hwritten : phase.isWritten = true) :
    attempts = r.attempts ∧ phase'.isWritten = true := by
  cases h with
  | remark | marked | stays => exact ⟨rfl, rfl⟩
  | _ => cases hwritten

theorem Round.Logs.commit_finishes (h : Round.Logs env choice r s phase phase' attempts s' events)
    (he : .committed ∈ events) : phase'.isFinished = true := by
  cases h with
  | committed | marked | markedTerminal | parkedJob | scheduledJob => rfl
  | skipped hnoise | notedMismatch hnoise | notedFailure hnoise => cases hnoise _ he
  | _ => simp at he

theorem Round.Marks.counted_le (h : Round.Marks hash status n next outcome s' events) :
    (countedOutcomes events).length ≤ 1 := by
  cases h with
  | failed | missed => exact Nat.zero_le _
  | matched => exact Nat.le_refl _

theorem Round.Logs.counted_le (h : Round.Logs env choice r s phase phase' attempts s' events) :
    (countedOutcomes events).length ≤ if phase'.isFinished then 1 else 0 := by
  have hnone : ∀ {events : List RoundEvent}, (∀ e ∈ events, e.isNoise = true) →
      (countedOutcomes events).length ≤ 0 := by
    intro events hnoise
    rw [countedOutcomes, filterMap_noise (fun e he => by cases e <;> first | rfl | cases he) hnoise]
    exact Nat.le_refl 0
  cases h with
  | skipped hnoise | notedMismatch hnoise | notedFailure hnoise => exact hnone hnoise
  | marked hmarks | parkedJob hmarks | scheduledJob hmarks => exact hmarks.counted_le
  | markedTerminal _ hmarks =>
    rw [countedOutcomes_append]
    exact (List.append_nil (countedOutcomes _)).symm ▸ hmarks.counted_le
  | alreadyTerminal | stays => exact Nat.zero_le 1
  | committed => exact Nat.le_refl 1
  | _ => exact Nat.le_refl 0

theorem Kept.step (h : Kept r.args phase r.attempts log) (hopen : phase.isFinished = false)
    (hlogs : Round.Logs env choice r s phase phase' attempts s' events)
    (hnow : choice.turn.now ≤ maxTimestamp) :
    Kept r.args phase' attempts (log ++ events) where
  peers := hlogs.accounts h.peers
  count := hlogs.count h.count
  fetched := hlogs.fetched h.fetched
  plans := hlogs.plans hnow
  requests := by
    intro status n next answer he
    obtain hold | hnew := List.mem_append.mp he
    · obtain ⟨heq, hwritten⟩ := h.requests status n next answer hold
      obtain ⟨hsame, hwritten'⟩ := hlogs.written hwritten
      exact ⟨hsame ▸ heq, hwritten'⟩
    · exact hlogs.request h.plans hnew
  committed := by
    intro he
    obtain hold | hnew := List.mem_append.mp he
    · rw [h.committed hold] at hopen
      cases hopen
    · exact hlogs.commit_finishes hnew
  counted := by
    have hcounted := h.counted
    have hmore := hlogs.counted_le
    rw [hopen] at hcounted
    rw [countedOutcomes_append, List.length_append]
    simp only [Bool.false_eq_true, if_false] at hcounted
    omega

theorem Round.Logs.decided (h : Round.Logs env choice r s phase phase' attempts s' events)
    (hdecided : phase.isDecided = true) :
    phase'.isDecided = true ∧ fetchedPeers events = [] := by
  cases h with
  | rejected | tooLarge | remark | stays => exact ⟨rfl, rfl⟩
  | marked hmarks => exact ⟨rfl, hmarks.peerless.fetched⟩
  | markedTerminal _ hmarks =>
    refine ⟨rfl, ?_⟩
    rw [fetchedPeers_append, hmarks.peerless.fetched]
    rfl
  | _ => cases hdecided

/-! ## The last write -/

theorem Round.Marks.counted (h : Round.Marks hash outcome.status n next outcome s' events) :
    ∀ counted ∈ countedOutcomes events, ∃ n next rows,
      .requested counted.status n next (some rows) ∈ events ∧ 0 < rows ∧
        JobWritten hash counted.status n next s'.catalogue := by
  intro counted hcounted
  cases h with
  | failed | missed => cases hcounted
  | matched hrows hrow =>
    rw [List.mem_singleton.mp hcounted]
    exact ⟨n, next, _, List.mem_cons_self, hrows, hrow⟩

theorem Round.Marks.requested (h : Round.Marks hash status n next outcome s' events) :
    ∃ answer, .requested status n next answer ∈ events ∧ writeAnswers events = [answer] ∧
      (answer ≠ none → ∀ old, jobStatus hash s'.catalogue = some old →
        old = status ∨ old = .complete) := by
  cases h with
  | failed => exact ⟨none, List.mem_cons_self, rfl, fun h => absurd rfl h⟩
  | missed hrow => exact ⟨some 0, List.mem_cons_self, rfl, fun _ old hold => Or.inr (hrow old hold)⟩
  | @matched rows _ hrow =>
    refine ⟨some rows, List.mem_cons_self, rfl, fun _ old hold => Or.inl ?_⟩
    rw [hrow.jobStatus] at hold
    exact (Option.some.inj hold).symm

end Logs

namespace RoundRun

variable {env : RoundEnv} {args : RoundArgs} {q q' : RoundRun} {e : RoundLabel}

/-- What the end of a round says, and the job row at that moment. -/
structure Verdict (args : RoundArgs) (outcome : JobOutcome) (q : RoundRun) : Prop where
  hash : outcome.infoHash = args.infoHash
  attempts : outcome.attempts = min (attemptedPeers q.log).length u32Max
  complete : outcome.complete = true →
    .committed ∈ q.log ∧ jobStatus args.infoHash q.store.catalogue = some .complete
  terminal : outcome.terminal = true → (writeAnswers q.log).getLast? = some none ∨
    ∀ status, jobStatus args.infoHash q.store.catalogue = some status → status.isTerminal = true
  parked : outcome.parked = true → ∃ n answer, .requested .waitingPeers n 0 answer ∈ q.log
  retried : outcome.complete = false → outcome.terminal = false → outcome.parked = false →
    ∃ now n next answer, .concluded now ∈ q.log ∧ .requested .retryAt n next answer ∈ q.log ∧
      now < next
  counted : ∀ counted ∈ countedOutcomes q.log,
    (counted = .complete ∧ .committed ∈ q.log ∧
      jobStatus args.infoHash q.store.catalogue = some .complete) ∨
    ∃ n next rows, .requested counted.status n next (some rows) ∈ q.log ∧ 0 < rows ∧
      JobWritten args.infoHash counted.status n next q.store.catalogue

theorem Step.cases (h : Step env q e q') :
    (∃ choice, e = .stepped choice ∧ q.round.phase.isFinished = false ∧
      choice.turn.now ≤ maxTimestamp ∧ q' = {
        round := (q.round.step env choice q.store).1
        store := (q.round.step env choice q.store).2
        log := q.log ++ q.round.events env choice q.store }) ∨
    ∃ store, e = .interfered store ∧ q' = { q with store := store } := by
  rw [Step, next.eq_def] at h
  cases e with
  | stepped choice =>
    simp only at h
    split at h
    · next hopen =>
      cases h
      exact Or.inl ⟨choice, rfl, hopen.1, hopen.2, rfl⟩
    · cases h
  | interfered store =>
    cases h
    exact Or.inr ⟨store, rfl, rfl⟩

structure Ok (args : RoundArgs) (q : RoundRun) : Prop where
  same : q.round.args = args
  kept : Kept args q.round.phase q.round.attempts q.log

theorem Ok.start (args : RoundArgs) (store : Store) : Ok args (start args store) where
  same := rfl
  kept := {
    peers := ⟨rfl, rfl⟩
    count := rfl
    fetched := .slnil
    plans := trivial
    requests := fun _ _ _ _ he => absurd he List.not_mem_nil
    committed := fun he => absurd he List.not_mem_nil
    counted := Nat.le_refl 0 }

theorem Ok.step (h : Ok args q) (hstep : Step env q e q') : Ok args q' := by
  obtain ⟨choice, -, hopen, hnow, rfl⟩ | ⟨store, -, rfl⟩ := hstep.cases
  · refine ⟨(Round.step_args ..).trans h.same, ?_⟩
    have hkept := h.kept
    rw [← h.same] at hkept ⊢
    exact hkept.step hopen (Round.step_logs env choice q.round q.store) hnow
  · exact ⟨h.same, h.kept⟩

theorem Ok.run (h : Ok args q) {es : List RoundLabel} (hrun : Run (Step env) q es q') :
    Ok args q' :=
  hrun.invariant (fun _ _ _ hq hstep => hq.step hstep) h

/-- After the decision nothing is fetched. -/
theorem fetched_decided (hdecided : q.round.phase.isDecided = true) {es : List RoundLabel}
    (hrun : Run (Step env) q es q') : fetchedPeers q'.log = fetchedPeers q.log := by
  refine (hrun.invariant (I := fun p => p.round.phase.isDecided = true ∧
    fetchedPeers p.log = fetchedPeers q.log) ?_ ⟨hdecided, rfl⟩).2
  rintro p e p' ⟨hp, hsame⟩ hstep
  obtain ⟨choice, -, -, -, rfl⟩ | ⟨store, -, rfl⟩ := hstep.cases
  · obtain ⟨hp', hnone⟩ := (Round.step_logs env choice p.round p.store).decided hp
    refine ⟨hp', ?_⟩
    rw [fetchedPeers_append, hnone, List.append_nil, hsame]
  · exact ⟨hp, hsame⟩

section End

variable {choice : Choice} {r r' : Round} {s s' : Store} {phase : RoundPhase} {attempts n : Nat}
  {log events : List RoundEvent} {outcome : JobOutcome} {status : JobStatus} {next : Int}
  {mark : MetadataRetrievalOutcome}

/-- What is counted with the last write is about its status. -/
theorem counted_of_marks (hbefore : countedOutcomes log = [])
    (hmarks : Round.Marks args.infoHash status n next mark s' events)
    (hstatus : mark.status = status) (rest : List RoundEvent)
    (hrest : countedOutcomes rest = []) :
    ∀ counted ∈ countedOutcomes (log ++ (events ++ rest)),
      (counted = .complete ∧ .committed ∈ log ++ (events ++ rest) ∧
        jobStatus args.infoHash s'.catalogue = some .complete) ∨
      ∃ n next rows, .requested counted.status n next (some rows) ∈ log ++ (events ++ rest) ∧
        0 < rows ∧ JobWritten args.infoHash counted.status n next s'.catalogue := by
  intro counted hcounted
  rw [countedOutcomes_append, countedOutcomes_append, hbefore, hrest, List.nil_append,
    List.append_nil] at hcounted
  rw [← hstatus] at hmarks
  obtain ⟨n, next, rows, hrequested, hrows, hrow⟩ := hmarks.counted counted hcounted
  exact Or.inr ⟨n, next, rows, List.mem_append_right _ (List.mem_append_left _ hrequested), hrows,
    hrow⟩

/-- A terminal status was written, or the write failed. -/
theorem terminal_of_marks (log : List RoundEvent)
    (hmarks : Round.Marks args.infoHash status n next mark s' events)
    (hterminal : status.isTerminal = true) (rest : List RoundEvent)
    (hrest : writeAnswers rest = []) :
    (writeAnswers (log ++ (events ++ rest))).getLast? = some none ∨
      ∀ old, jobStatus args.infoHash s'.catalogue = some old → old.isTerminal = true := by
  obtain ⟨answer, -, hanswers, hrow⟩ := hmarks.requested
  by_cases hanswer : answer = none
  · left
    rw [writeAnswers_append, writeAnswers_append, hanswers, hrest, List.append_nil,
      List.getLast?_append, hanswer]
    rfl
  · right
    intro old hold
    obtain rfl | rfl := hrow hanswer old hold
    · exact hterminal
    · rfl

theorem verdict_of_logs (hopen : phase.isFinished = false)
    (hlogs : Round.Logs env choice r s phase (.finished outcome) attempts s' events)
    (hplans : phase.Plans r.args r.attempts log)
    (hcount : attempts = min (attemptedPeers (log ++ events)).length u32Max)
    (hbefore : countedOutcomes log = []) : Verdict r.args outcome ⟨r', s', log ++ events⟩ := by
  -- Six steps finish a round; the last constructor starts from a finished one.
  cases hlogs with
  | alreadyTerminal hterminal =>
    refine ⟨rfl, hcount, nofun, fun _ => Or.inr fun status hstatus => ?_, nofun, nofun, ?_⟩
    · obtain ⟨old, hold, hclosed⟩ := hashJobIsTerminal_iff.mp hterminal
      rw [hold] at hstatus
      exact Option.some.inj hstatus ▸ hclosed
    · rw [List.append_nil, hbefore]
      exact List.forall_mem_nil _
  | committed hrow =>
    have hcommitted : RoundEvent.committed ∈
        log ++ [.committed, .counted .complete, .emitted .metadataFetched] :=
      List.mem_append_right _ List.mem_cons_self
    refine ⟨rfl, hcount, fun _ => ⟨hcommitted, hrow⟩, nofun, nofun, nofun, ?_⟩
    intro counted hcounted
    rw [countedOutcomes_append, hbefore] at hcounted
    rw [List.mem_singleton.mp hcounted]
    exact Or.inl ⟨rfl, hcommitted, hrow⟩
  | marked hmarks =>
    have hcounted := counted_of_marks hbefore hmarks rfl [] rfl
    have hterminal := terminal_of_marks log hmarks rfl [] rfl
    rw [List.append_nil] at hcounted hterminal
    exact ⟨rfl, hcount, nofun, fun _ => hterminal, nofun, nofun, hcounted⟩
  | @markedTerminal _ _ _ mark hmark hmarks =>
    have hclosed : mark.status.isTerminal = true := by
      obtain rfl | rfl := hmark <;> rfl
    exact ⟨rfl, hcount, nofun, fun _ => terminal_of_marks log hmarks hclosed _ rfl,
      nofun, nofun, counted_of_marks hbefore hmarks rfl _ rfl⟩
  | parkedJob hmarks =>
    have hcounted := counted_of_marks hbefore hmarks rfl [] rfl
    obtain ⟨answer, hrequested, -⟩ := hmarks.requested
    rw [List.append_nil] at hcounted
    exact ⟨rfl, hcount, nofun, nofun,
      fun _ => ⟨_, answer, List.mem_append_right _ hrequested⟩, nofun, hcounted⟩
  | @scheduledJob _ next _ _ hmarks =>
    have hcounted := counted_of_marks hbefore hmarks rfl [] rfl
    obtain ⟨answer, hrequested, -⟩ := hmarks.requested
    obtain ⟨-, now, hconcluded, hlater⟩ := hplans
    rw [List.append_nil] at hcounted
    exact ⟨rfl, hcount, nofun, nofun, nofun, fun _ _ _ => ⟨now, _, next, answer,
      List.mem_append_left _ hconcluded, List.mem_append_right _ hrequested, hlater⟩, hcounted⟩
  | stays => cases hopen

end End

/-- The step with which a round ends. -/
theorem Ok.verdict (h : Ok args q) {choice : Choice} {outcome : JobOutcome}
    (hstep : Step env q (.stepped choice) q') (hphase : q'.round.phase = .finished outcome) :
    Verdict args outcome q' := by
  have hkept := (h.step hstep).kept
  obtain ⟨_, heq, hopen, hnow, rfl⟩ | ⟨_, heq, -⟩ := hstep.cases <;> cases heq
  have hlogs := Round.step_logs env choice q.round q.store
  have hbefore : countedOutcomes q.log = [] := by
    have hcounted := h.kept.counted
    rw [hopen] at hcounted
    exact List.length_eq_zero_iff.mp (Nat.le_zero.mp hcounted)
  have hplans := h.kept.plans
  simp only at hphase
  rw [hphase] at hlogs
  rw [← h.same] at hplans ⊢
  exact verdict_of_logs hopen hlogs hplans hkept.count hbefore

end RoundRun

/-! ## The end -/

/-- The phases whose call is repeated until it succeeds. -/
def RoundPhase.waits : RoundPhase → Bool
  | .checkTerminal | .markUnsupported _ => true
  | _ => false

/-- A bound for the steps that are left, those of a phase that waits apart. -/
def RoundPhase.remaining (peers : Nat) : RoundPhase → Nat
  | .checkTerminal => 8 * peers + 4
  | .filtering todo found => 8 * todo.length + 7 * found.length + 3
  | .attempting todo => 7 * todo.length + 2
  | .fetching _ todo => 7 * todo.length + 8
  | .recordMismatch _ todo | .recordFailure _ todo => 7 * todo.length + 3
  | .committing _ attempt todo => 7 * todo.length + 3 + (4 - attempt)
  | .markUnsupported _ | .markTerminal _ | .parking _ | .scheduling _ _ => 1
  | .finished _ => 0

namespace Round

variable {env : RoundEnv} {choice : Choice} {r : Round} {s s' : Store}
  {phase phase' : RoundPhase} {attempts : Nat} {events : List RoundEvent}

/-- A step ends a phase, unless the phase waits and its call failed. -/
theorem Logs.remaining (h : Logs env choice r s phase phase' attempts s' events)
    (hopen : phase.isFinished = false) :
    (phase' = phase ∧ phase.waits = true ∧ choice.turn.fate ≠ .commits) ∨
      phase'.remaining r.args.peers.length < phase.remaining r.args.peers.length := by
  cases h with
  | recheck hfate | remark hfate => exact Or.inl ⟨rfl, rfl, hfate⟩
  | stays => cases hopen
  | _ =>
    right
    simp only [RoundPhase.remaining, List.length_append, List.length_cons, List.length_nil]
    omega

/-- The round after some steps, whatever it meets. -/
def after (env : RoundEnv) (turns : Nat → Choice × Store) (r : Round) : Nat → Round
  | 0 => r
  | n + 1 =>
    ((after env turns r n).step env (turns n).1 (turns n).2).1

theorem after_args (turns : Nat → Choice × Store) (n : Nat) :
    (after env turns r n).args = r.args := by
  induction n with
  | zero => rfl
  | succ n ih =>
    rw [after, step_args, ih]

/-- The round ends when no call is repeated for ever. -/
theorem after_finishes (env : RoundEnv) (turns : Nat → Choice × Store) (r : Round)
    (hanswered : ∀ n, (after env turns r n).phase.waits = true →
      ∃ m, n ≤ m ∧ (turns m).1.turn.fate = .commits) :
    ∃ n, (after env turns r n).phase.isFinished = true := by
  by_contra hnever
  have hopen : ∀ n, (after env turns r n).phase.isFinished = false := fun n => by
    rw [← Bool.not_eq_true]
    exact fun hn => hnever ⟨n, hn⟩
  let rank : Nat → Nat := fun n => (after env turns r n).phase.remaining r.args.peers.length
  -- where the rank is least, the round only waits
  have hstay : ∀ n, (after env turns r n).phase =
      (after env turns r (Function.argmin rank)).phase →
        (after env turns r (n + 1)).phase = (after env turns r n).phase ∧
          (after env turns r n).phase.waits = true ∧ (turns n).1.turn.fate ≠ .commits := by
    intro n hphase
    have hrank : rank n = rank (Function.argmin rank) :=
      congrArg (RoundPhase.remaining r.args.peers.length) hphase
    obtain hwaits | hless := (step_logs env (turns n).1 (after env turns r n) (turns n).2).remaining
      (hopen n)
    · exact hwaits
    · rw [after_args] at hless
      have hleast : rank (Function.argmin rank) ≤ rank (n + 1) := Function.argmin_le rank _
      rw [← hrank] at hleast
      exact absurd hless (Nat.not_lt.mpr hleast)
  have hstuck : ∀ k, (after env turns r (Function.argmin rank + k)).phase =
      (after env turns r (Function.argmin rank)).phase := by
    intro k
    induction k with
    | zero => rfl
    | succ k ih => exact (hstay _ ih).1.trans ih
  obtain ⟨m, hm, hfate⟩ := hanswered _ (hstay _ rfl).2.1
  obtain ⟨k, rfl⟩ := Nat.exists_eq_add_of_le hm
  exact (hstay _ (hstuck k)).2.2 hfate

end Round

namespace RoundRun

/-- A round ends once its reads and the write of an unsupported state succeed, it fetches from
its eligible peers in order, and its end is consistent. -/
theorem round_verdict (env : RoundEnv) (args : RoundArgs) (store : Store) :
    (∀ turns : Nat → Choice × Store,
      (∀ n, (Round.after env turns (.spawn args) n).phase.waits = true →
        ∃ m, n ≤ m ∧ (turns m).1.turn.fate = .commits) →
      ∃ n, (Round.after env turns (.spawn args) n).phase.isFinished = true) ∧
    ∀ es q, Run (Step env) (start args store) es q →
      ((eligiblePeers q.log).Sublist args.peers ∧ attemptedPeers q.log <+: eligiblePeers q.log ∧
        (fetchedPeers q.log).Sublist (attemptedPeers q.log)) ∧
      (.committed ∈ q.log → q.round.phase.isDecided = true) ∧
      (q.round.phase.isDecided = true → ∀ es' q', Run (Step env) q es' q' →
        fetchedPeers q'.log = fetchedPeers q.log) ∧
      (∀ status n next answer, .requested status n next answer ∈ q.log →
        n = saturatingAddU32 args.priorAttemptCount
          (min (attemptedPeers q.log).length u32Max)) ∧
      (countedOutcomes q.log).length ≤ 1 ∧
      ∀ choice q' outcome, Step env q (.stepped choice) q' →
        q'.round.phase = .finished outcome → Verdict args outcome q' := by
  refine ⟨fun turns => Round.after_finishes env turns (.spawn args), fun es q hrun => ?_⟩
  have hok := (Ok.start args store).run hrun
  refine ⟨?_, fun hcommitted => ?_, fun hdecided es' q' => fetched_decided hdecided,
    fun status n next answer he =>
      hok.kept.count ▸ (hok.kept.requests status n next answer he).1, ?_,
    fun choice q' outcome => hok.verdict⟩
  · obtain ⟨hsub, hprefix⟩ := hok.kept.peers.weaken
    exact ⟨hsub, hprefix, hok.kept.fetched⟩
  · exact RoundPhase.isDecided_of_isFinished (hok.kept.committed hcommitted)
  · refine hok.kept.counted.trans ?_
    split
    · exact Nat.le_refl 1
    · exact Nat.zero_le 1

/-- The only peer of a discovered hash times out. -/
theorem round_verdict_timed_out :
    let peer : PeerContact := ⟨⟨⟨10, 0, 0, 1⟩, 6881⟩⟩
    let env : RoundEnv := ⟨.ascii, ⟨fun _ => 8, fun _ => .error "no dictionary"⟩, 24⟩
    let args : RoundArgs := ⟨0, 7, [peer], 2⟩
    let store : Store := { Store.migrated with
      catalogue := (recordDiscovery 1 7 "announce_peer" [peer] 64 .migrated).2 }
    let choice : Choice := ⟨⟨1, 1048576, .commits⟩, .error (.timeout .connect), 0⟩
    ∃ es q q' outcome, Run (Step env) (start args store) es q ∧
      Step env q (.stepped choice) q' ∧ q'.round.phase = .finished outcome ∧
      fetchedPeers q'.log = [peer] ∧ countedOutcomes q'.log = [.retryAt] ∧
      Verdict args outcome q' := by
  intro peer env args store choice
  let es : List RoundLabel := List.replicate 7 (.stepped choice)
  have hall : (play (next env) es (start args store)).any (fun q =>
      (next env q (.stepped choice)).any fun q' => q'.round.phase.isFinished &&
        (fetchedPeers q'.log = [peer] ∧ countedOutcomes q'.log = [.retryAt])) = true := by
    decide +kernel
  clear_value es
  obtain ⟨q, hq, hlast⟩ := (Option.any_eq_true _ _).mp hall
  obtain ⟨q', hq', hends⟩ := (Option.any_eq_true _ _).mp hlast
  rw [Bool.and_eq_true, decide_eq_true_eq] at hends
  obtain ⟨hfinished, hfetched, hcounted⟩ := hends
  cases hphase : q'.round.phase with
  | finished outcome =>
    refine ⟨es, q, q', outcome, play_run hq, hq', hphase, hfetched, hcounted, ?_⟩
    obtain ⟨-, -, -, -, -, hverdict⟩ := (round_verdict env args store).2 es q (play_run hq)
    exact hverdict choice q' outcome hq' hphase
  | _ =>
    rw [hphase] at hfinished
    cases hfinished

end RoundRun

end Btfind
