import Btfind.Metadata.PendingWork

/-!
# A hash that nobody brings

A hash without rows stays without rows, as long as the crawler neither sends a discovery of
it nor reports an observation of it.
-/

namespace Btfind

open Transition

/-- The database has no torrent and no job of the hash. -/
def Rowless (k : InfoHash) (c : Catalogue) : Prop :=
  c.torrents.lookup k = none ∧ c.hashJobs.lookup k = none

/-- The event hands the hash over from the crawler. -/
def SystemEvent.brings (k : InfoHash) : SystemEvent → Bool
  | .discovered d _ => d.infoHash = k
  | .batched _ events _ _ => events.any (CrawlStatsEvent.observes k)
  | _ => false

section Rows

variable {k h : InfoHash} {now : Int} {source : String} {peers : Bool} {c c' : Catalogue}

theorem Rowless.jobStatus (hk : Rowless k c) : jobStatus k c = none := by
  rw [Btfind.jobStatus, hk.2]
  rfl

theorem Rowless.of_eq (hk : Rowless k c) (htorrents : c'.torrents = c.torrents)
    (hjobs : c'.hashJobs = c.hashJobs) : Rowless k c' := by
  rw [Rowless, htorrents, hjobs]
  exact hk

theorem Rowless.discover (hk : Rowless k c) (hother : k ≠ h) :
    Rowless k (discover now h source peers c).2 := by
  constructor
  · rw [discover_torrents, AList.lookup_upsert, if_neg hother]
    exact hk.1
  · rw [discover_lookup_other hother]
    exact hk.2

theorem Rowless.recordDiscovery (hk : Rowless k c) (hother : k ≠ h) (contacts : List PeerContact)
    (limit : Nat) : Rowless k (recordDiscovery now h source contacts limit c).2 := by
  have hfound : Rowless k
      (Btfind.discover now h source (!(discoveredAddrs contacts limit).isEmpty) c).2 :=
    hk.discover hother
  rw [recordDiscovery_frame]
  exact hfound.of_eq rfl rfl

theorem Rowless.recordRuntimeBatch {events : List CrawlStatsEvent} (hk : Rowless k c)
    (hother : events.any (CrawlStatsEvent.observes k) = false)
    (snapshot : Option RuntimeSnapshot) :
    Rowless k (recordRuntimeBatch now events snapshot c).2 := by
  refine recordRuntimeBatch_observed hk ?_ ?_
  · intro event hevent c h source hobserved hc
    refine hc.discover ?_
    rintro rfl
    exact (Bool.eq_false_iff.mp hother) (List.any_eq_true.mpr ⟨event, hevent, hobserved⟩)
  · intro c c' hc hcore
    exact hc.of_eq hcore.torrents hcore.hashJobs

theorem Rowless.pruneBatch (hk : Rowless k c) (cutoff : Int) : Rowless k (pruneBatch cutoff c) := by
  refine List.foldlRecOn (motive := Rowless k) (oldTorrents cutoff c) _ hk ?_
  intro c hc selected _
  constructor
  · show (c.torrents.erase selected.1).lookup k = none
    rw [AList.lookup_erase_eq]
    split
    · rfl
    · exact hc.1
  · show (c.hashJobs.erase selected.1).lookup k = none
    rw [AList.lookup_erase_eq]
    split
    · rfl
    · exact hc.2

/-- The rounds of other hashes write no row of the hash. -/
theorem Rowless.writes {env : RoundEnv} {choice : Choice} {r : Round} (hk : Rowless k c)
    (hother : k ≠ r.args.infoHash) (hwrites : Round.Writes env choice r c c') : Rowless k c' := by
  cases hwrites with
  | attempt =>
    refine ⟨?_, hk.2⟩
    show (c.torrents.adjust r.args.infoHash _).lookup k = none
    rw [AList.lookup_adjust, if_neg hother]
    exact hk.1
  | commit hphase hcommit =>
    obtain ⟨old, hcommitted⟩ := commitMetadataTx_ok hcommit
    have hfound : Rowless k (Btfind.discover choice.turn.now r.args.infoHash "dht" false c).2 :=
      hk.discover hother
    constructor
    · rw [hcommitted.torrents, AList.lookup_insert_ne hother]
      exact hfound.1
    · rw [hcommitted.hashJobs, AList.lookup_upsert, if_neg hother]
      exact hfound.2
  | update hphase heffect hupdate =>
    rw [updateHashJobFailureTx] at hupdate
    split at hupdate
    · cases hupdate
      exact hk
    · split at hupdate
      · cases hupdate
        exact hk
      · cases hupdate
        refine ⟨hk.1, ?_⟩
        show (c.hashJobs.insert r.args.infoHash _).lookup k = none
        rw [AList.lookup_insert_ne hother]
        exact hk.2

end Rows

namespace System

variable {env : SystemEnv} {y y' z : System} {e : SystemEvent} {k : InfoHash}

/-- No table, job, scan, discovery or round knows the hash. -/
structure Absent (k : InfoHash) (y : System) : Prop where
  rows : Rowless k y.store.catalogue
  unheld : ¬y.Held k
  unarmed : ∀ d receipt phase, y.arm = .persisting d receipt phase → d.infoHash ≠ k
  workers : ∀ r ∈ y.sched.workers, r.infoHash ≠ k

theorem Absent.changes {c : Catalogue} (ha : Absent k y) (hc : Changes env y e c)
    (hbrings : e.brings k = false) : Rowless k c := by
  cases hc with
  | kept => exact ha.rows
  | @recorded d receipt turn harm => exact ha.rows.recordDiscovery (ha.unarmed _ _ _ harm).symm _ _
  | batched => exact ha.rows.recordRuntimeBatch hbrings _
  | worked hw hwrites => exact ha.rows.writes (ha.workers _ (List.mem_of_getElem? hw)).symm hwrites
  | prunedTorrents => exact ha.rows.pruneBatch _
  | prunedAttempts => exact ha.rows.of_eq rfl rfl
  | reconciled => exact ha.rows.of_eq rfl rfl

/-- A discovery in the arm was there before, or it has just been received. -/
theorem Fires.armed {d : HashDiscovery} {receipt : Uuid} {phase : PersistPhase}
    (h : Fires env y e z) (harm : z.arm = .persisting d receipt phase) :
    (∃ receipt phase, y.arm = .persisting d receipt phase) ∨ e = .discovered d receipt := by
  cases h with
  | discovered =>
    cases harm
    exact Or.inr rfl
  | lookedUp hready =>
    rw [lookUp] at harm
    split at harm
    · exact Or.inl ⟨receipt, phase, harm⟩
    · cases harm
      exact Or.inl ⟨_, _, hready⟩
    · cases harm
      exact Or.inl ⟨_, _, hready⟩
  | attempted turn hlooked =>
    have hown := attempt_arm_discovery harm
    exact Or.inl ⟨_, _, hown ▸ hlooked⟩
  | removed _ hcleaning =>
    cases harm
    exact Or.inl ⟨_, _, hcleaning⟩
  | admitted => cases harm
  | scanStarted =>
    simp only at harm
    split at harm <;> cases harm
  | scanRead =>
    simp only at harm
    split at harm <;> cases harm
  | scanAdmitted => cases harm
  | restarted => cases harm
  | _ => exact Or.inl ⟨receipt, phase, harm⟩

theorem Absent.fires (ha : Absent k y) (h : Fires env y e z) (hbrings : e.brings k = false) :
    Absent k z where
  rows := ha.changes h.changes hbrings
  unheld := by
    intro hheld
    obtain hold | ⟨hjob, -⟩ := h.held hheld
    · exact ha.unheld hold
    · rw [(ha.changes h.changes hbrings).jobStatus] at hjob
      cases hjob
  unarmed := by
    intro d receipt phase harm
    obtain ⟨receipt, phase, harm⟩ | rfl := h.armed harm
    · exact ha.unarmed d receipt phase harm
    · exact of_decide_eq_false hbrings
  workers := by
    intro r hr
    cases h.workers hr with
    | kept hkept => exact ha.workers r hkept
    | @spawned hash job hready hjob =>
      rintro rfl
      refine ha.unheld (Or.inl ?_)
      show (y.sched.jobs.lookup hash).isSome = true
      rw [hjob]
      rfl
    | stepped hw =>
      rw [Round.step_infoHash]
      exact ha.workers _ (List.mem_of_getElem? hw)

theorem Absent.step (ha : Absent k y) (h : Step env y e y') (hbrings : e.brings k = false) :
    Absent k y' :=
  h.lift (fun _ _ hz => ⟨hz.rows, hz.unheld, hz.unarmed, hz.workers⟩)
    fun _ hz => ha.fires hz hbrings

theorem Absent.starts (h : Starts y) (hrows : Rowless k y.store.catalogue) : Absent k y where
  rows := hrows
  unheld := by
    rintro (hjob | hscan | ⟨d, ⟨receipt, phase, harm, -⟩, -⟩)
    · rw [h.sched] at hjob
      cases hjob
    · rw [scanned, h.arm] at hscan
      cases hscan
    · rw [h.arm] at harm
      cases harm
  unarmed := by
    intro d receipt phase harm
    rw [h.arm] at harm
    cases harm
  workers := by
    rw [h.sched]
    rintro r ⟨⟩

/-- A hash that no event brings never gets a row. -/
theorem absent_run {guard : System → SystemEvent → Prop} {es : List SystemEvent}
    (hguard : ∀ y e, guard y e → e.brings k = false) (ha : Absent k y)
    (h : Run (Guarded guard (Step env)) y es y') : Absent k y' :=
  h.invariant (fun _ _ _ hs hst => hs.step hst.2 (hguard _ _ hst.1)) ha

end System

end Btfind
