import Btfind.Metadata.SystemInvariant

/-!
# Attempts on peers

A peer is fetched after an attempt record of the same round, and the records of
different rounds on one peer are a retry interval apart. The eligibility of all
peers of a round is read before the first of them is tried; that this is still
true when the last is tried holds because the round is the only one of its hash
and its peers are distinct.
-/

namespace Btfind

/-- The peers that a round has yet to try. -/
def RoundPhase.untried (peers : List PeerContact) : RoundPhase → List PeerContact
  | .checkTerminal => peers
  | .filtering todo eligible => todo ++ eligible
  | .attempting todo | .fetching _ todo | .recordMismatch _ todo | .recordFailure _ todo
  | .committing _ _ todo => todo
  | _ => []

/-- The peers that a round has found eligible and has yet to try. -/
def RoundPhase.cleared : RoundPhase → List PeerContact
  | .filtering _ eligible => eligible
  | .attempting todo | .fetching _ todo | .recordMismatch _ todo | .recordFailure _ todo
  | .committing _ _ todo => todo
  | _ => []

/-- The peer that a round is fetching from, or whose result it is about to record. -/
def RoundPhase.current : RoundPhase → List PeerContact
  | .fetching peer _ | .recordMismatch peer _ | .recordFailure peer _ => [peer]
  | _ => []

def PeerLog.hash : PeerLog → InfoHash
  | .attempt _ h _ _ | .fetch _ h _ | .mismatch _ h _ => h

namespace System

open Transition

/-- A peer may be tried again: its attempts are a retry interval ago, and no mismatch
was recorded for it. -/
structure Cleared (hours : Nat) (clock : Int) (log : List PeerLog) (h : InfoHash)
    (addr : SocketAddrV4) : Prop where
  spaced : ∀ (task : Nat) (t : Int), .attempt task h addr t ∈ log → t + hours * 3600 ≤ clock
  trusted : ∀ task, .mismatch task h addr ∉ log

/-- What a round relies on about its peers. -/
structure RoundSpaced (hours : Nat) (clock : Int) (log : List PeerLog) (r : Round) : Prop where
  nodup : (peerAddrs (r.phase.current ++ r.phase.untried r.args.peers)).Nodup
  fresh : ∀ p ∈ r.phase.untried r.args.peers, ∀ (task : Nat) (t : Int),
    .attempt task r.infoHash p.addr t ∈ log → task ≠ r.args.task
  cleared : ∀ p ∈ r.phase.cleared, Cleared hours clock log r.infoHash p.addr
  current : ∀ p ∈ r.phase.current, ∀ task, .mismatch task r.infoHash p.addr ∉ log

/-- The order of two entries of a log. -/
def Apart (hours : Nat) : PeerLog → PeerLog → Prop
  | .attempt task h addr t, .attempt task' h' addr' t' =>
    h = h' → addr = addr' → task ≠ task' ∧ t + hours * 3600 ≤ t'
  | .mismatch _ h addr, .fetch _ h' addr' => h = h' → addr ≠ addr'
  | _, _ => True

/-- Every fetch directly follows the attempt record of its round. -/
def Preceded (log : List PeerLog) : Prop :=
  ∀ before after task h addr, log = before ++ .fetch task h addr :: after →
    ∃ earlier t, before = earlier ++ [.attempt task h addr t]

structure Spaced (env : SystemEnv) (y : System) : Prop where
  sched : SchedOk env y
  attempts : ∀ task h addr t, .attempt task h addr t ∈ y.log → task < y.sched.spawned ∧
    t ≤ y.clock ∧ ∃ row, y.store.catalogue.metadataPeerAttempts.lookup (h, addr) = some row ∧
      t ≤ row.lastAttempt
  mismatches : ∀ task h addr, .mismatch task h addr ∈ y.log →
    ∃ row, y.store.catalogue.metadataPeerAttempts.lookup (h, addr) = some row ∧
      row.lastError = some hashMismatchText
  tasks : ∀ r ∈ y.sched.workers, r.args.task < y.sched.spawned
  rounds : ∀ r ∈ y.sched.workers, RoundSpaced env.round.retryAfterHours y.clock y.log r
  ordered : y.log.Pairwise (Apart env.round.retryAfterHours)
  preceded : Preceded y.log

variable {env : SystemEnv} {y y' z : System} {e : SystemEvent} {hours : Nat} {clock now : Int}
  {log more : List PeerLog} {h : InfoHash} {addr : SocketAddrV4} {r : Round}

theorem Cleared.mono (hc : Cleared hours clock log h addr) (hle : clock ≤ now) :
    Cleared hours now log h addr :=
  ⟨fun task t hm => (hc.spaced task t hm).trans hle, hc.trusted⟩

/-- Entries about other peers change nothing. -/
theorem Cleared.append (hc : Cleared hours clock log h addr)
    (hattempt : ∀ task t, .attempt task h addr t ∉ more)
    (hmismatch : ∀ task, .mismatch task h addr ∉ more) :
    Cleared hours clock (log ++ more) h addr where
  spaced := by
    intro task t hm
    exact hc.spaced task t ((List.mem_append.mp hm).resolve_right (hattempt task t))
  trusted := by
    intro task hm
    obtain hm | hm := List.mem_append.mp hm
    · exact hc.trusted task hm
    · exact hmismatch task hm

/-- Time, and entries that are not about the peers of a round, leave it as it is. -/
theorem RoundSpaced.append (hr : RoundSpaced hours clock log r) (hle : clock ≤ now)
    (hattempt : ∀ p ∈ r.phase.untried r.args.peers ++ r.phase.cleared, ∀ task t,
      .attempt task r.infoHash p.addr t ∉ more)
    (hmismatch : ∀ p ∈ r.phase.cleared ++ r.phase.current, ∀ task,
      .mismatch task r.infoHash p.addr ∉ more) :
    RoundSpaced hours now (log ++ more) r where
  nodup := hr.nodup
  fresh := by
    intro p hp task t hm
    obtain hm | hm := List.mem_append.mp hm
    · exact hr.fresh p hp task t hm
    · exact absurd hm (hattempt p (List.mem_append_left _ hp) task t)
  cleared := fun p hp => ((hr.cleared p hp).mono hle).append
    (hattempt p (List.mem_append_right _ hp)) (hmismatch p (List.mem_append_left _ hp))
  current := by
    intro p hp task hm
    obtain hm | hm := List.mem_append.mp hm
    · exact hr.current p hp task hm
    · exact hmismatch p (List.mem_append_right _ hp) task hm

theorem RoundSpaced.mono (hr : RoundSpaced hours clock log r) (hle : clock ≤ now) :
    RoundSpaced hours now log r :=
  ⟨hr.nodup, hr.fresh, fun p hp => (hr.cleared p hp).mono hle, hr.current⟩

/-- The entries of other hashes leave a round as it is. -/
theorem RoundSpaced.append_other (hr : RoundSpaced hours clock log r) (hle : clock ≤ now)
    (hother : ∀ entry ∈ more, entry.hash ≠ r.infoHash) :
    RoundSpaced hours now (log ++ more) r :=
  hr.append hle (fun _ _ _ _ hm => hother _ hm rfl) fun _ _ _ hm => hother _ hm rfl

/-- A round that goes on with fewer peers. -/
theorem RoundSpaced.move (hr : RoundSpaced hours clock log r) {r' : Round}
    (hargs : r'.args = r.args)
    (hnodup : (peerAddrs (r'.phase.current ++ r'.phase.untried r.args.peers)).Nodup)
    (huntried : ∀ p ∈ r'.phase.untried r.args.peers, p ∈ r.phase.untried r.args.peers)
    (hcleared : ∀ p ∈ r'.phase.cleared, Cleared hours clock log r.infoHash p.addr)
    (hcurrent : ∀ p ∈ r'.phase.current, ∀ task, .mismatch task r.infoHash p.addr ∉ log) :
    RoundSpaced hours clock log r' where
  nodup := by rwa [hargs]
  fresh := by
    rw [Round.infoHash, hargs]
    exact fun p hp => hr.fresh p (huntried p hp)
  cleared := by
    rw [Round.infoHash, hargs]
    exact hcleared
  current := by
    rw [Round.infoHash, hargs]
    exact hcurrent

/-- The same peers in the same roles. -/
theorem RoundSpaced.same (hr : RoundSpaced hours clock log r) {r' : Round}
    (hargs : r'.args = r.args)
    (huntried : r'.phase.untried r.args.peers = r.phase.untried r.args.peers)
    (hcleared : ∀ p ∈ r'.phase.cleared, p ∈ r.phase.cleared)
    (hcurrent : r'.phase.current.Sublist r.phase.current) :
    RoundSpaced hours clock log r' := by
  refine hr.move hargs ?_ (fun p hp => huntried ▸ hp) (fun p hp => hr.cleared p (hcleared p hp))
    fun p hp => hr.current p (hcurrent.subset hp)
  rw [huntried]
  exact hr.nodup.sublist ((hcurrent.append_right _).map _)

/-- A round that is done with its peers. -/
theorem RoundSpaced.done {r' : Round} (huntried : r'.phase.untried r'.args.peers = [])
    (hcleared : r'.phase.cleared = []) (hcurrent : r'.phase.current = []) :
    RoundSpaced hours clock log r' where
  nodup := by
    rw [hcurrent, huntried]
    exact List.nodup_nil
  fresh := by
    rw [huntried]
    nofun
  cleared := by
    rw [hcleared]
    nofun
  current := by
    rw [hcurrent]
    nofun

/-- One step of a round, before its log entries. -/
theorem RoundSpaced.step (hr : RoundSpaced hours clock log r) {choice : Choice} {s : Store}
    (heligible : ∀ addr, peerRetryEligibility choice.turn.now r.args.infoHash addr
      env.round.retryAfterHours s.catalogue = .eligible → Cleared hours clock log r.infoHash addr) :
    RoundSpaced hours clock log (r.step env.round choice s).1 := by
  have hmoves := Round.step_moves env.round choice r s
  have hargs := Round.step_args env.round choice r s
  -- Four moves change which peers are still to be tried; the last ones leave none.
  generalize (r.step env.round choice s).1 = r' at hmoves hargs
  generalize hq : r'.phase = q at hmoves
  generalize hp : r.phase = p at hmoves
  cases hmoves with
  | recheck | admitted | filtered | mismatched | failed | parsed | recommit | uncommitted
  | notedMismatch | notedFailure =>
    refine hr.same hargs ?_ ?_ ?_ <;> rw [hp, hq] <;> simp [RoundPhase.untried,
      RoundPhase.cleared, RoundPhase.current]
  | skipped peer todo eligible =>
    have hnodup : (peerAddrs (peer :: (todo ++ eligible))).Nodup := by
      simpa [hp, RoundPhase.untried, RoundPhase.current] using hr.nodup
    refine hr.move hargs ?_ ?_ ?_ ?_ <;> rw [hq]
    · exact (List.nodup_cons.mp hnodup).2
    · intro p hm
      rw [hp]
      exact List.mem_cons_of_mem peer hm
    · intro p hm
      exact hr.cleared p (by rw [hp]; exact hm)
    · nofun
  | eligible peer todo eligible hread =>
    have hnodup : (peerAddrs (peer :: (todo ++ eligible))).Nodup := by
      simpa [hp, RoundPhase.untried, RoundPhase.current] using hr.nodup
    have hperm : (todo ++ (eligible ++ [peer])).Perm (peer :: (todo ++ eligible)) := by
      rw [← List.append_assoc]
      exact List.perm_append_singleton peer _
    refine hr.move hargs ?_ ?_ ?_ ?_ <;> rw [hq]
    · exact ((hperm.map PeerContact.addr).nodup_iff).mpr hnodup
    · intro p hm
      rw [hp]
      exact hperm.mem_iff.mp hm
    · intro p hm
      obtain hm | hm := List.mem_append.mp hm
      · exact hr.cleared p (by rw [hp]; exact hm)
      · rw [List.mem_singleton.mp hm]
        exact heligible peer.addr hread
    · nofun
  | refused peer todo =>
    have hnodup : (peerAddrs (peer :: todo)).Nodup := by
      simpa [hp, RoundPhase.untried, RoundPhase.current] using hr.nodup
    refine hr.move hargs ?_ ?_ ?_ ?_ <;> rw [hq]
    · exact (List.nodup_cons.mp hnodup).2
    · intro p hm
      rw [hp]
      exact List.mem_cons_of_mem peer hm
    · intro p hm
      exact hr.cleared p (by rw [hp]; exact List.mem_cons_of_mem peer hm)
    · nofun
  | recorded peer todo heffect =>
    have hnodup : (peerAddrs (peer :: todo)).Nodup := by
      simpa [hp, RoundPhase.untried, RoundPhase.current] using hr.nodup
    refine hr.move hargs ?_ ?_ ?_ ?_ <;> rw [hq]
    · exact hnodup
    · intro p hm
      rw [hp]
      exact List.mem_cons_of_mem peer hm
    · intro p hm
      exact hr.cleared p (by rw [hp]; exact List.mem_cons_of_mem peer hm)
    · intro p hm
      rw [List.mem_singleton.mp hm]
      exact (hr.cleared peer (by rw [hp]; exact List.mem_cons_self)).trusted
  | _ =>
    refine .done ?_ ?_ ?_ <;> rw [hq] <;> rfl

/-- The attempts that a round logs are of the first peer it had to try. -/
theorem attempt_mem_logged {next : Round} {effective : Bool} {task : Nat} {t : Int}
    (hm : PeerLog.attempt task h addr t ∈ logged r next now effective) :
    effective = true ∧ task = r.args.task ∧ h = r.infoHash ∧ t = now ∧
      ∃ peer todo, r.phase = .attempting (peer :: todo) ∧ addr = peer.addr := by
  unfold logged at hm
  split at hm
  · next peer todo hphase =>
    obtain hm | hm := List.mem_append.mp hm
    · split at hm
      · next heffect =>
        simp only [List.mem_singleton, PeerLog.attempt.injEq] at hm
        exact ⟨heffect, hm.1, hm.2.1, hm.2.2.2, peer, todo, hphase, hm.2.2.1⟩
      · cases hm
    · split at hm <;> simp at hm
  · split at hm <;> simp at hm
  · cases hm

theorem mismatch_mem_logged {next : Round} {effective : Bool} {task : Nat}
    (hm : PeerLog.mismatch task h addr ∈ logged r next now effective) :
    effective = true ∧ h = r.infoHash ∧
      ∃ peer todo, r.phase = .recordMismatch peer todo ∧ addr = peer.addr := by
  unfold logged at hm
  split at hm
  · obtain hm | hm := List.mem_append.mp hm
    · split at hm <;> simp at hm
    · split at hm <;> simp at hm
  · next peer todo hphase =>
    split at hm
    · next heffect =>
      simp only [List.mem_singleton, PeerLog.mismatch.injEq] at hm
      exact ⟨heffect, hm.2.1, peer, todo, hphase, hm.2.2⟩
    · cases hm
  · cases hm

/-- The entries that a round logs are about a peer that it no longer has to try. -/
theorem RoundSpaced.logged (hr : RoundSpaced hours clock log r) {choice : Choice} {s : Store}
    (hr' : RoundSpaced hours clock log (r.step env.round choice s).1) (hle : clock ≤ now)
    {effective : Bool} :
    RoundSpaced hours now
      (log ++ System.logged r (r.step env.round choice s).1 choice.turn.now effective)
      (r.step env.round choice s).1 := by
  have hmoves := Round.step_moves env.round choice r s
  have hargs := Round.step_args env.round choice r s
  generalize (r.step env.round choice s).1 = r' at hmoves hargs hr'
  refine hr'.append hle ?_ ?_
  · intro p hp task t hm
    obtain ⟨-, -, -, -, peer, todo, hphase, haddr⟩ := attempt_mem_logged hm
    have hnodup := hr.nodup
    rw [hphase] at hmoves hnodup
    have htodo : p ∈ todo := by
      generalize r'.phase = q at hmoves hp
      cases hmoves with
      | refused | recorded => simpa [RoundPhase.untried, RoundPhase.cleared] using hp
    exact (List.nodup_cons.mp hnodup).1 (haddr ▸ List.mem_map_of_mem htodo)
  · intro p hp task hm
    obtain ⟨-, -, peer, todo, hphase, haddr⟩ := mismatch_mem_logged hm
    have hnodup := hr.nodup
    rw [hphase] at hmoves hnodup
    have htodo : p ∈ todo := by
      generalize r'.phase = q at hmoves hp
      cases hmoves with
      | notedMismatch => simpa [RoundPhase.cleared, RoundPhase.current] using hp
    exact (List.nodup_cons.mp hnodup).1 (haddr ▸ List.mem_map_of_mem htodo)

/-- A round logs only entries of its hash. -/
theorem logged_hash {next : Round} {effective : Bool} {entry : PeerLog}
    (hm : entry ∈ logged r next now effective) : entry.hash = r.infoHash := by
  unfold logged at hm
  split at hm
  · obtain hm | hm := List.mem_append.mp hm
    · split at hm
      · rw [List.mem_singleton.mp hm]
        rfl
      · cases hm
    · split at hm
      · rw [List.mem_singleton.mp hm]
        rfl
      · cases hm
  · split at hm
    · rw [List.mem_singleton.mp hm]
      rfl
    · cases hm
  · cases hm

/-! ## The attempt records -/

/-- Outside prunes, only rounds write attempt records. -/
theorem Changes.attempts {c : Catalogue} (hc : Changes env y e c) (hprune : e.isPrune = false)
    (hworked : ∀ index choice, e ≠ .worked index choice) :
    c.metadataPeerAttempts = y.store.catalogue.metadataPeerAttempts := by
  cases hc with
  | kept => rfl
  | recorded => rw [recordDiscovery_frame, discover_metadataPeerAttempts]
  | batched =>
    refine recordRuntimeBatch_induction (P := fun c' =>
      c'.metadataPeerAttempts = y.store.catalogue.metadataPeerAttempts) rfl ?_ ?_
    · intro c' hash source hc
      rw [discover_metadataPeerAttempts, hc]
    · intro c₁ c₂ hc hsame
      rw [hsame.metadataPeerAttempts, hc]
  | worked => exact absurd rfl (hworked _ _)
  | reconciled => rfl
  | _ => cases hprune

/-- What the attempt record of a round does to the table. -/
theorem work_attempts {index : Nat} {choice : Choice} {k : InfoHash × SocketAddrV4} :
    (y.work env index r choice).store.catalogue.metadataPeerAttempts.lookup k =
      match r.phase.records r.lastError with
      | some (peer, error) =>
        if Round.recordTakesEffect choice.turn r.infoHash y.store.catalogue = true ∧
            k = (r.infoHash, peer.addr) then some ⟨choice.turn.now, error⟩
        else y.store.catalogue.metadataPeerAttempts.lookup k
      | none => y.store.catalogue.metadataPeerAttempts.lookup k := by
  unfold work
  simp only
  cases hrecords : r.phase.records r.lastError with
  | none => simp only [Round.step_metadataPeerAttempts hrecords]
  | some record =>
    obtain ⟨peer, error⟩ := record
    simp only [Round.step_records hrecords, Round.setAttempt_store]
    by_cases heffect :
        Round.recordTakesEffect choice.turn r.args.infoHash y.store.catalogue = true
    · simp [heffect, Round.infoHash, Round.attemptWritten, AList.lookup_upsert_const]
    · simp [heffect, Round.infoHash]

/-- A peer that a read of the database finds eligible may be tried. -/
theorem Spaced.eligible (hi : Spaced env y) (hle : y.clock ≤ now) (hmax : now ≤ maxTimestamp)
    (hread : peerRetryEligibility now h addr env.round.retryAfterHours y.store.catalogue =
      .eligible) : Cleared env.round.retryAfterHours now y.log h addr := by
  unfold peerRetryEligibility at hread
  split at hread
  · next hnone =>
    constructor
    · intro task t hm
      obtain ⟨-, -, row, hrow, -⟩ := hi.attempts task h addr t hm
      rw [hnone] at hrow
      cases hrow
    · intro task hm
      obtain ⟨row, hrow, -⟩ := hi.mismatches task h addr hm
      rw [hnone] at hrow
      cases hrow
  · next row hsome =>
    split at hread
    · cases hread
    · next htrusted =>
      simp only at hread
      split at hread
      · cases hread
      · next hretry =>
        constructor
        · intro task t hm
          obtain ⟨-, hpast, row', hrow, hlast⟩ := hi.attempts task h addr t hm
          rw [hsome] at hrow
          cases hrow
          by_cases hhours : env.round.retryAfterHours = 0
          · rw [hhours]
            omega
          · have hafter := saturatingAddI64_le hmax
              (not_lt.mp fun hlt => hretry ⟨Nat.pos_of_ne_zero hhours, hlt⟩)
            omega
        · intro task hm
          obtain ⟨row', hrow, herror⟩ := hi.mismatches task h addr hm
          rw [hsome] at hrow
          cases hrow
          exact htrusted herror

/-- A round starts with distinct peers and a number that is not in the log. -/
theorem Spaced.spawned (hi : Spaced env y) {hash : InfoHash} {job : HashJob} {n : Nat} :
    RoundSpaced env.round.retryAfterHours y.clock y.log
      (Round.spawn ⟨y.sched.spawned, hash, job.peers.take n, job.attemptCount⟩) where
  nodup := job.nodup.sublist ((List.take_sublist _ _).map _)
  fresh := by
    intro p _ task t hm
    exact (hi.attempts task _ _ t hm).1.ne
  cleared := nofun
  current := nofun

/-- Events other than prunes and steps of rounds. -/
theorem Spaced.quiet (hi : Spaced env y) (h : Fires env y e z) (hprune : e.isPrune = false)
    (hworked : ∀ index choice, e ≠ .worked index choice) (hle : y.clock ≤ now) :
    Spaced env { z with clock := now } := by
  have hlog : z.log = y.log :=
    h.log.resolve_right fun ⟨index, r, choice, he, _⟩ => hworked index choice he
  have htable := h.changes.attempts hprune hworked
  constructor
  case sched => exact (hi.sched.fires h).clock now
  case attempts =>
    intro task hash addr t hm
    simp only [hlog] at hm
    obtain ⟨htask, ht, hrow⟩ := hi.attempts task hash addr t hm
    simp only [htable]
    exact ⟨htask.trans_le h.spawned_le, ht.trans hle, hrow⟩
  case mismatches =>
    intro task hash addr hm
    simp only [hlog] at hm
    simp only [htable]
    exact hi.mismatches task hash addr hm
  case tasks => exact h.tasks hi.tasks
  case rounds =>
    intro r hr
    simp only [hlog]
    cases h.workers hr with
    | kept hkept => exact (hi.rounds r hkept).mono hle
    | spawned => exact hi.spawned.mono hle
    | stepped => exact absurd rfl (hworked _ _)
  case ordered =>
    simp only [hlog]
    exact hi.ordered
  case preceded =>
    simp only [hlog]
    exact hi.preceded

section Worked

variable {index : Nat} {choice : Choice}

/-- What a round relies on, in the terms of its phase. -/
theorem RoundSpaced.of_records (hr : RoundSpaced hours clock log r) {peer : PeerContact}
    {error : Option String} (hrecords : r.phase.records r.lastError = some (peer, error))
    (herror : error ≠ some hashMismatchText) :
    ∀ task, .mismatch task r.infoHash peer.addr ∉ log := by
  unfold RoundPhase.records at hrecords
  split at hrecords
  · next peer' todo hphase =>
    cases hrecords
    refine (hr.cleared peer ?_).trusted
    rw [hphase]
    exact List.mem_cons_self
  · cases hrecords
    exact absurd rfl herror
  · next peer' todo hphase =>
    cases hrecords
    refine hr.current peer ?_
    rw [hphase]
    exact List.mem_cons_self
  · cases hrecords

/-- The step of a round keeps the rows behind the old entries of the log. -/
theorem Spaced.work_rows (hi : Spaced env y) (hw : y.sched.workers[index]? = some r)
    (hle : y.clock ≤ choice.turn.now) :
    (∀ task h addr t, .attempt task h addr t ∈ y.log → ∃ row,
      (y.work env index r choice).store.catalogue.metadataPeerAttempts.lookup (h, addr) =
        some row ∧ t ≤ row.lastAttempt) ∧
    ∀ task h addr, .mismatch task h addr ∈ y.log → ∃ row,
      (y.work env index r choice).store.catalogue.metadataPeerAttempts.lookup (h, addr) =
        some row ∧ row.lastError = some hashMismatchText := by
  have hr := hi.rounds r (List.mem_of_getElem? hw)
  constructor
  · intro task h addr t hm
    obtain ⟨-, hpast, row, hrow, hlast⟩ := hi.attempts task h addr t hm
    rw [work_attempts]
    split
    · split
      · exact ⟨_, rfl, hpast.trans hle⟩
      · exact ⟨row, hrow, hlast⟩
    · exact ⟨row, hrow, hlast⟩
  · intro task h addr hm
    obtain ⟨row, hrow, hmismatch⟩ := hi.mismatches task h addr hm
    rw [work_attempts]
    split
    · next peer error hrecords =>
      split
      · next hkey =>
        obtain ⟨-, hkey⟩ := hkey
        cases hkey
        refine ⟨_, rfl, ?_⟩
        by_contra herror
        exact hr.of_records hrecords herror task hm
      · exact ⟨row, hrow, hmismatch⟩
    · exact ⟨row, hrow, hmismatch⟩

/-- The entries that a round logs keep the order of the log. -/
theorem Spaced.ordered_worked (hi : Spaced env y) (hw : y.sched.workers[index]? = some r)
    (hle : y.clock ≤ choice.turn.now) {effective : Bool} :
    (y.log ++ logged r (r.step env.round choice y.store).1 choice.turn.now effective).Pairwise
      (Apart env.round.retryAfterHours) := by
  have hr := hi.rounds r (List.mem_of_getElem? hw)
  rw [List.pairwise_append]
  refine ⟨hi.ordered, ?_, ?_⟩
  · unfold logged
    split
    · split <;> split <;> simp [Apart]
    · split <;> simp
    · exact .nil
  · intro old hold new hnew
    cases new with
    | attempt task h addr t =>
      obtain ⟨-, rfl, rfl, rfl, peer, todo, hphase, rfl⟩ := attempt_mem_logged hnew
      have huntried : peer ∈ r.phase.untried r.args.peers := by
        rw [hphase]
        exact List.mem_cons_self
      have hcleared : peer ∈ r.phase.cleared := by
        rw [hphase]
        exact List.mem_cons_self
      cases old with
      | attempt task' h' addr' t' =>
        rintro rfl rfl
        exact ⟨hr.fresh peer huntried task' t' hold,
          ((hr.cleared peer hcleared).spaced task' t' hold).trans hle⟩
      | _ => trivial
    | fetch task h addr =>
      obtain ⟨rfl, rfl, peer, todo, hphase, rfl⟩ := fetch_mem_logged hnew
      have hcleared : peer ∈ r.phase.cleared := by
        rw [hphase]
        exact List.mem_cons_self
      cases old with
      | mismatch task' h' addr' =>
        rintro rfl rfl
        exact (hr.cleared peer hcleared).trusted task' hold
      | _ => trivial
    | mismatch => cases old <;> trivial

/-- A step that logs a fetch logs the attempt before it. -/
theorem logged_of_fetch {s : Store} {task : Nat}
    (hm : PeerLog.fetch task h addr ∈ logged r (r.step env.round choice s).1 choice.turn.now
      (Round.recordTakesEffect choice.turn r.infoHash s.catalogue)) :
    logged r (r.step env.round choice s).1 choice.turn.now
      (Round.recordTakesEffect choice.turn r.infoHash s.catalogue) =
        [.attempt task h addr choice.turn.now, .fetch task h addr] := by
  obtain ⟨rfl, rfl, peer, todo, hphase, rfl⟩ := fetch_mem_logged hm
  have hmoves := Round.step_moves env.round choice r s
  unfold logged at hm ⊢
  rw [hphase] at hm hmoves ⊢
  generalize (r.step env.round choice s).1.phase = q at hmoves hm
  cases hmoves with
  | refused =>
    simp only [List.append_nil] at hm
    split at hm <;> simp at hm
  | recorded _ _ heffect =>
    have heffect : Round.recordTakesEffect choice.turn r.infoHash s.catalogue = true := heffect
    simp [heffect]

/-- A fetch that a round logs follows the attempt it logs. -/
theorem Spaced.preceded_worked (hi : Spaced env y) :
    Preceded (y.log ++ logged r (r.step env.round choice y.store).1 choice.turn.now
      (Round.recordTakesEffect choice.turn r.infoHash y.store.catalogue)) := by
  intro before after task h addr hlog
  obtain ⟨tail, hbefore, htail⟩ | ⟨tail, hbefore, htail⟩ := List.append_eq_append_iff.mp hlog
  · have hm : PeerLog.fetch task h addr ∈ logged r (r.step env.round choice y.store).1
        choice.turn.now (Round.recordTakesEffect choice.turn r.infoHash y.store.catalogue) := by
      rw [htail]
      exact List.mem_append_right _ List.mem_cons_self
    rw [logged_of_fetch hm] at htail
    cases tail with
    | nil => cases htail
    | cons entry rest =>
      obtain ⟨rfl, hrest⟩ := List.cons.inj htail
      cases rest with
      | nil => exact ⟨y.log, _, hbefore⟩
      | cons _ _ => simp at hrest
  · cases tail with
    | nil =>
      rw [List.nil_append] at htail
      have hm : PeerLog.fetch task h addr ∈ logged r (r.step env.round choice y.store).1
          choice.turn.now (Round.recordTakesEffect choice.turn r.infoHash y.store.catalogue) := by
        rw [← htail]
        exact List.mem_cons_self
      rw [logged_of_fetch hm] at htail
      cases htail
    | cons entry rest =>
      simp only [List.cons_append, List.cons.injEq] at htail
      obtain ⟨rfl, -⟩ := htail
      exact hi.preceded before rest task h addr hbefore

/-- A step of a round. -/
theorem Spaced.worked (hi : Spaced env y) (h : Fires env y (.worked index choice) z)
    (hle : y.clock ≤ choice.turn.now) (hmax : choice.turn.now ≤ maxTimestamp) :
    Spaced env { z with clock := choice.turn.now } := by
  have hsched := hi.sched.fires h
  have htasks := h.tasks hi.tasks
  have hfrom := fun r' (hr' : r' ∈ z.sched.workers) => h.workers hr'
  have hunique := fun r hw r' (hr' : r' ∈ z.sched.workers) hhash =>
    hi.sched.stepped_eq (r := r) h hw hr' hhash
  cases h with
  | @worked _ r _ hw =>
  have hr := hi.rounds r (List.mem_of_getElem? hw)
  obtain ⟨hattempts, hmismatches⟩ := hi.work_rows hw hle
  constructor
  case sched => exact hsched.clock _
  case attempts =>
    intro task h addr t hm
    obtain hm | hm := List.mem_append.mp hm
    · obtain ⟨htask, ht, -⟩ := hi.attempts task h addr t hm
      exact ⟨htask, ht.trans hle, hattempts task h addr t hm⟩
    -- A new entry has its row from this very step.
    · obtain ⟨heffect, rfl, rfl, rfl, peer, todo, hphase, rfl⟩ := attempt_mem_logged hm
      have hrecords : r.phase.records r.lastError = some (peer, none) := by rw [hphase]; rfl
      refine ⟨hi.tasks r (List.mem_of_getElem? hw), le_refl _, ⟨choice.turn.now, none⟩, ?_, le_refl _⟩
      rw [work_attempts, hrecords]
      simp [heffect]
  case mismatches =>
    intro task h addr hm
    obtain hm | hm := List.mem_append.mp hm
    · exact hmismatches task h addr hm
    · obtain ⟨heffect, rfl, peer, todo, hphase, rfl⟩ := mismatch_mem_logged hm
      have hrecords : r.phase.records r.lastError = some (peer, some hashMismatchText) := by
        rw [hphase]
        rfl
      refine ⟨⟨choice.turn.now, some hashMismatchText⟩, ?_, rfl⟩
      rw [work_attempts, hrecords]
      simp [heffect]
  case tasks => exact htasks
  case rounds =>
    intro r' hr'
    -- A hash has one round, so a round of this hash is the one that stepped.
    by_cases hhash : r'.infoHash = r.infoHash
    · rw [hunique r hw r' hr' hhash]
      have hnow := hr.mono hle
      exact hnow.logged (hnow.step fun addr hread => hi.eligible hle hmax hread) (le_refl _)
    · cases hfrom r' hr' with
      | kept hkept =>
        refine (hi.rounds r' hkept).append_other hle ?_
        intro entry hm
        rw [logged_hash hm]
        exact Ne.symm hhash
      | stepped hw' =>
        rw [hw] at hw'
        cases hw'
        exact absurd (Round.step_infoHash env.round choice r y.store) hhash
  case ordered => exact hi.ordered_worked hw hle
  case preceded => exact hi.preceded_worked

end Worked

theorem Fires.clock_eq (h : Fires env y e z) : z.clock = y.clock := by
  cases h with
  | lookedUp =>
    unfold lookUp
    split <;> rfl
  | attempted =>
    unfold attempt
    split <;> rfl
  | _ => rfl

theorem Spaced.step (hi : Spaced env y) (hprune : e.isPrune = false) (h : Step env y e y') :
    Spaced env y' := by
  obtain ⟨z, hz, hnow⟩ := h.fires
  by_cases hworked : ∃ index choice, e = .worked index choice
  · obtain ⟨index, choice, rfl⟩ := hworked
    obtain ⟨hle, hmax, rfl⟩ := hnow
    exact hi.worked hz hle hmax
  · have hne : ∀ index choice, e ≠ .worked index choice := fun index choice he =>
      hworked ⟨index, choice, he⟩
    split at hnow
    · obtain ⟨hle, -, rfl⟩ := hnow
      exact hi.quiet hz hprune hne hle
    · have hquiet := hi.quiet hz hprune hne (le_refl y.clock)
      rw [hnow]
      rwa [← hz.clock_eq] at hquiet

theorem Spaced.starts (h : Starts y) : Spaced env y where
  sched := .starts h
  attempts := by
    rw [h.log]
    nofun
  mismatches := by
    rw [h.log]
    nofun
  tasks := by
    rw [h.sched]
    nofun
  rounds := by
    rw [h.sched]
    nofun
  ordered := by
    rw [h.log]
    exact .nil
  preceded := by
    intro before after task hash addr hlog
    rw [h.log] at hlog
    simp at hlog

/-- What the log of a process says about the fetches from peers. -/
structure Courteous (hours : Nat) (y : System) : Prop where
  recorded : ∀ before after task h addr, y.log = before ++ .fetch task h addr :: after →
    ∃ earlier t row, before = earlier ++ [.attempt task h addr t] ∧
      y.store.catalogue.metadataPeerAttempts.lookup (h, addr) = some row ∧ t ≤ row.lastAttempt
  apart : ∀ a b c task task' h addr (t t' : Int),
    y.log = a ++ .attempt task h addr t :: .fetch task h addr ::
      (b ++ .attempt task' h addr t' :: .fetch task' h addr :: c) →
    task ≠ task' ∧ t + hours * 3600 ≤ t'
  rejected : ∀ before after task task' h addr, y.log = before ++ .mismatch task h addr :: after →
    .fetch task' h addr ∉ after

/-- A process never fetches from a peer for a hash without having recorded the attempt
in the same round, never twice in a round or within the retry interval, and never
again after it recorded a mismatch. -/
theorem run_courteous {y₀ : System} {es : List SystemEvent} (hs : Starts y₀)
    (h : Run (Guarded (fun _ e => e.isPrune = false) (Step env)) y₀ es y) :
    Courteous env.round.retryAfterHours y := by
  have hi : Spaced env y :=
    h.invariant (fun _ _ _ hs hst => hs.step hst.1 hst.2) (.starts hs)
  constructor
  · intro before after task hash addr hlog
    obtain ⟨earlier, t, rfl⟩ := hi.preceded before after task hash addr hlog
    obtain ⟨-, -, row, hrow, hlast⟩ := hi.attempts task hash addr t (by rw [hlog]; simp)
    exact ⟨earlier, t, row, rfl, hrow, hlast⟩
  · intro a b c task task' hash addr t t' hlog
    have hordered := hi.ordered
    rw [hlog, List.pairwise_append, List.pairwise_cons] at hordered
    exact hordered.2.1.1 (.attempt task' hash addr t') (by simp) rfl rfl
  · intro before after task task' hash addr hlog hm
    have hordered := hi.ordered
    rw [hlog, List.pairwise_append, List.pairwise_cons] at hordered
    exact hordered.2.1.1 _ hm rfl rfl

/-- A peer that times out is fetched again by the round that the retry scan starts. -/
theorem run_courteous_retried :
    let addr : SocketAddrV4 := ⟨⟨10, 0, 0, 1⟩, 6881⟩
    let env : SystemEnv :=
      ⟨⟨.ascii, ⟨fun _ => 7, fun _ => .error "no dictionary"⟩, 1⟩,
        ⟨1, 1, 1, 1, by decide, by decide, by decide, by decide⟩⟩
    let turn (now : Int) : Turn := ⟨now, 1048576, .commits⟩
    let start : System := ⟨.migrated, .empty, .idle, 0, [], []⟩
    let round (now : Int) (steps : Nat) : List SystemEvent :=
      List.replicate steps (.worked 0 ⟨turn now, .error (.timeout .connect), 0⟩)
    let script : List SystemEvent :=
      [.discovered ⟨7, [⟨addr⟩], .announcePeer⟩ 1, .lookedUp, .attempted (turn 1),
        .removed .commits, .admitted, .dispatched] ++ round 1 8 ++
      [.joined 0, .scanStarted (turn 5000), .scanRead (turn 5000), .scanAdmitted, .dispatched] ++
      round 5000 4
    ∃ y, play env script start = some y ∧ y.log = [.attempt 0 7 addr 1, .fetch 0 7 addr,
        .attempt 1 7 addr 5000, .fetch 1 7 addr] ∧ Courteous 1 y := by
  intro addr env turn start round script
  have hdone : (play env script start).any (fun y => y.log = [.attempt 0 7 addr 1,
      .fetch 0 7 addr, .attempt 1 7 addr 5000, .fetch 1 7 addr]) = true := by
    decide
  obtain ⟨y, hplay, hlog⟩ := (Option.any_eq_true _ _).mp hdone
  have hkept : ∀ e ∈ script, ∀ _ : System, e.isPrune = false := by
    intro e he _
    revert e
    decide
  exact ⟨y, hplay, of_decide_eq_true hlog,
    run_courteous ⟨rfl, rfl, rfl, rfl⟩ ((play_run hplay).guarded hkept)⟩

end System

end Btfind
