import Btfind.Library.SortedMap
import Btfind.Observability.CheckpointFile

/-!
# The checkpoint survives

Whatever fails, and wherever a process is killed or the power goes, the next process loads the last
state whose call of `save` returned, or one that was being saved since.
-/

namespace Btfind

open Durable Transition

/-! ## Dictionaries -/

section Dictionaries

variable {d new fields a b : JsonObject} {key k : String} {value : Json}

theorem lookup_dictSet :
    (dictSet key value d).lookup k = if k = key then some value else d.lookup k := by
  induction d with
  | nil => exact SortedMap.lookup_cons_eq
  | cons field d ih =>
    obtain ⟨k', v⟩ := field
    by_cases hk : k' = key
    · subst hk
      rw [dictSet, if_pos rfl, SortedMap.lookup_cons_eq, SortedMap.lookup_cons_eq]
      split_ifs <;> rfl
    · rw [dictSet, if_neg hk, SortedMap.lookup_cons_eq, SortedMap.lookup_cons_eq, ih]
      by_cases h : k = k'
      · subst h
        rw [if_pos rfl, if_neg hk, if_pos rfl]
      · rw [if_neg h, if_neg h]

theorem lookup_dictUpdate : (dictUpdate d new).lookup k = (new.lookup k).or (d.lookup k) := by
  induction new with
  | nil => rfl
  | cons field new ih =>
    obtain ⟨k', v⟩ := field
    show (dictSet k' v (dictUpdate d new)).lookup k = _
    rw [lookup_dictSet, ih, SortedMap.lookup_cons_eq]
    split_ifs <;> rfl

/-- An update by all the fields gives the fields. -/
theorem same_dictUpdate (h : ∀ k, Option.Rel Json.Same (new.lookup k) (fields.lookup k))
    (hkeys : ∀ k, fields.lookup k = none → d.lookup k = none) :
    Json.Same (.obj (dictUpdate d new)) (.obj fields) := by
  refine .obj fun k => ?_
  have hk := h k
  rw [lookup_dictUpdate]
  cases hnew : new.lookup k with
  | none =>
    rw [hnew] at hk
    cases hf : fields.lookup k with
    | none =>
      rw [Option.none_or, hkeys k hf]
      exact .none
    | some value =>
      rw [hf] at hk
      cases hk
  | some value =>
    rw [hnew] at hk
    exact hk

theorem Json.Same.refl (j : Json) : Json.Same j j := by
  match j with
  | .null => exact .null
  | .bool b => exact .bool b
  | .int n => exact .int n
  | .float text => exact .float text
  | .str s => exact .str s
  | .arr items => exact .arr (List.forall₂_same.mpr fun item _ => Json.Same.refl item)
  | .obj fields =>
    refine .obj fun k => ?_
    cases hk : fields.lookup k with
    | none => exact .none
    | some value =>
      have hmem : (k, value) ∈ fields := by
        obtain ⟨l, r, rfl, -⟩ := List.lookup_eq_some_iff.mp hk
        simp
      exact .some (Json.Same.refl value)
termination_by sizeOf j
decreasing_by
  · have hlt := List.sizeOf_lt_of_mem ‹item ∈ items›
    simp
    omega
  · have hlt := List.sizeOf_lt_of_mem hmem
    simp at hlt ⊢
    omega

/-! ## Loading what was saved -/

/-- The text that is written for a state. -/
def stateText (dumpsSorted : Json → String) (s : CheckpointState) : String := dumpsSorted s.toJson

/-- `json.loads` gives back what `json.dumps` was given. -/
def ReadsBack (py : Python) (dumpsSorted : Json → String) (s : CheckpointState) : Prop :=
  ∃ j, py.loads (stateText dumpsSorted s) = .ok j ∧ Json.Same j s.toJson

theorem mergeDefaults_eq {loaded logs metrics : JsonObject}
    (hlogs : loaded.lookup "logs" = some (.obj logs))
    (hmetrics : loaded.lookup "metrics" = some (.obj metrics)) :
    mergeDefaults (.obj loaded) =
      [("version", .int 1), ("logs", .obj (dictUpdate defaultStream logs)),
        ("metrics", .obj (dictUpdate (defaultStream ++ [("baselines", .obj [])]) metrics))] := by
  simp [mergeDefaults, mergeStream, hlogs, hmetrics, defaultState, SortedMap.lookup_cons_eq,
    dictSet]

theorem relSome {j : Option Json} {value : Json} (h : Option.Rel Json.Same j (some value)) :
    ∃ v, j = some v ∧ Json.Same v value := by
  cases h with
  | some h => exact ⟨_, rfl, h⟩

/-- Fields that are there have a value in another dictionary with the same keys. -/
theorem lookup_eq_none_of_keys (h : d.map Prod.fst = fields.map Prod.fst)
    (hk : fields.lookup k = none) : d.lookup k = none := by
  rw [List.lookup_eq_none_iff] at hk ⊢
  intro field hfield
  have hmem : field.1 ∈ fields.map Prod.fst := h ▸ List.mem_map_of_mem hfield
  obtain ⟨field', hfield', heq⟩ := List.mem_map.mp hmem
  rw [← heq]
  exact hk field' hfield'

/-- A state that reads back is loaded. -/
theorem load_same {py : Python} {dumpsSorted : Json → String} {s : CheckpointState}
    (h : ReadsBack py dumpsSorted s) :
    ∃ fields, load py (some (stateText dumpsSorted s)) = .loaded fields ∧
      Json.Same (.obj fields) s.toJson := by
  obtain ⟨j, hloads, hsame⟩ := h
  cases hsame with
  | obj hfields =>
    rename_i loaded
    obtain ⟨version, hversion, hone⟩ := relSome (hfields "version")
    obtain ⟨logs, hlogs, hlogsSame⟩ := relSome (hfields "logs")
    obtain ⟨metrics, hmetrics, hmetricsSame⟩ := relSome (hfields "metrics")
    cases hone
    cases hlogsSame with
    | obj hlogsSame =>
      cases hmetricsSame with
      | obj hmetricsSame =>
        refine ⟨mergeDefaults (.obj loaded), ?_, ?_⟩
        · rw [load, hloads]
          simp [hversion, isStateVersion]
        · rw [mergeDefaults_eq hlogs hmetrics]
          refine .obj fun k => ?_
          simp only [SortedMap.lookup_cons_eq]
          split_ifs
          · exact .some (.int 1)
          · exact .some (same_dictUpdate hlogsSame fun _ => lookup_eq_none_of_keys rfl)
          · exact .some (same_dictUpdate hmetricsSame fun _ => lookup_eq_none_of_keys rfl)
          · exact .none

end Dictionaries

/-! ## Saving -/

section Saving

variable {py : Python} {dumpsSorted : Json → String} {w w' : CheckpointWorld}
  {v : Volume String String} {memory s : CheckpointState} {call : SaveCall}
  {stage after : SaveStage} {ok raised : Bool} {effect : SaveCall → Volume String String}
  {c : Option String}

/-- What the file holds for a state; the default state needs no file. -/
def Stored (py : Python) (dumpsSorted : Json → String) (s : CheckpointState)
    (c : Option String) : Prop :=
  (c = some (stateText dumpsSorted s) ∧ ReadsBack py dumpsSorted s) ∨ (c = none ∧ s = .default)

def Recoverable (py : Python) (dumpsSorted : Json → String) (w : CheckpointWorld)
    (c : Option String) : Prop :=
  ∃ s ∈ w.acknowledged :: w.attempts, Stored py dumpsSorted s c

/-- The temporary file of a call, before it takes the name over. -/
structure Prepared (v : Volume String String) (call : SaveCall) : Prop where
  descriptor : some call.descriptor ∉ v.onDisk statePath
  entry : v.entry call.temporary = some call.descriptor
  read : v.read statePath = call.before

/-- The file of a call, which no power failure takes back. -/
def Durably (dumpsSorted : Json → String) (v : Volume String String) (call : SaveCall) : Prop :=
  v.Leaves statePath fun c => c = some (stateText dumpsSorted call.payload)

/-- What the system calls so far have done. -/
def StageOk (dumpsSorted : Json → String) (v : Volume String String) (call : SaveCall) :
    SaveStage → Prop
  | .opened => Prepared v call
  | .written =>
    Prepared v call ∧ (v.file call.descriptor).content = stateText dumpsSorted call.payload
  | .synced =>
    Prepared v call ∧ (v.file call.descriptor).content = stateText dumpsSorted call.payload ∧
      (v.file call.descriptor).synced = true
  | .replaced => v.read statePath = some (stateText dumpsSorted call.payload)
  | .durable | .leaving false => Durably dumpsSorted v call
  | .leaving true =>
    v.read statePath = call.before ∨
      v.read statePath = some (stateText dumpsSorted call.payload)

structure SaveOk (py : Python) (dumpsSorted : Json → String) (w : CheckpointWorld)
    (call : SaveCall) (stage : SaveStage) : Prop where
  name : call.temporary ≠ statePath
  attempted : call.payload ∈ w.attempts
  readsBack : ReadsBack py dumpsSorted call.payload
  stage : StageOk dumpsSorted w.volume call stage

structure CheckpointOk (py : Python) (dumpsSorted : Json → String) (w : CheckpointWorld) :
    Prop where
  file : w.volume.Leaves statePath (Recoverable py dumpsSorted w)
  saving : ∀ memory call stage, w.running = some ⟨memory, some (call, stage)⟩ →
    SaveOk py dumpsSorted w call stage

theorem Durably.read (h : Durably dumpsSorted v call) :
    v.read statePath = some (stateText dumpsSorted call.payload) :=
  Volume.Leaves.read h

/-- Readers see the file from before the call or the one that it writes. -/
theorem StageOk.read (h : StageOk dumpsSorted v call stage) :
    v.read statePath = call.before ∨
      v.read statePath = some (stateText dumpsSorted call.payload) := by
  cases stage with
  | opened => exact .inl h.read
  | written => exact .inl h.1.read
  | synced => exact .inl h.1.read
  | replaced => exact .inr h
  | durable => exact .inr (Durably.read h)
  | leaving raised =>
    cases raised with
    | true => exact h
    | false => exact .inr (Durably.read h)

theorem temporaryName_ne (pid nanoseconds : Nat) : temporaryName pid nanoseconds ≠ statePath := by
  intro h
  have hhead := congrArg (fun name : String => name.toList.head?) h
  simp [temporaryName, statePath] at hhead

theorem systemCall_cases (h : w.systemCall stage after ok effect = some w') :
    ∃ memory call, w.running = some ⟨memory, some (call, stage)⟩ ∧
      (w' = w.proceed (effect call) memory call after ∨
        w' = w.proceed w.volume memory call (.leaving true)) := by
  unfold CheckpointWorld.systemCall at h
  split at h
  · rename_i memory call current hrun
    split_ifs at h with hstage hok
    · rw [not_not] at hstage
      subst hstage
      exact ⟨memory, call, hrun, .inl (Option.some.inj h).symm⟩
    · rw [not_not] at hstage
      subst hstage
      exact ⟨memory, call, hrun, .inr (Option.some.inj h).symm⟩
  · cases h

/-- A process without a call of `save`. -/
theorem CheckpointOk.rest (h : CheckpointOk py dumpsSorted w) (running : Option ExporterProcess)
    (hrest : ∀ p, running = some p → p.saving = none) :
    CheckpointOk py dumpsSorted { w with running } :=
  ⟨h.file, fun memory call stage hrun => by cases hrest _ hrun⟩

theorem CheckpointOk.proceed (h : CheckpointOk py dumpsSorted w)
    (hrun : w.running = some ⟨memory, some (call, stage)⟩)
    (hfile : v.Leaves statePath (Recoverable py dumpsSorted w))
    (hstage : StageOk dumpsSorted v call after) :
    CheckpointOk py dumpsSorted (w.proceed v memory call after) := by
  obtain ⟨hname, hattempted, hreads, -⟩ := h.saving _ _ _ hrun
  refine ⟨hfile, fun memory' call' stage' hrun' => ?_⟩
  simp only [CheckpointWorld.proceed, Option.some.injEq, ExporterProcess.mk.injEq,
    Prod.mk.injEq] at hrun'
  obtain ⟨-, rfl, rfl⟩ := hrun'
  exact ⟨hname, hattempted, hreads, hstage⟩

/-- A system call keeps the invariant when its effect does; a failed one raises. -/
theorem CheckpointOk.systemCall (h : CheckpointOk py dumpsSorted w)
    (hcall : w.systemCall stage after ok effect = some w')
    (heffect : ∀ call, SaveOk py dumpsSorted w call stage →
      (effect call).Leaves statePath (Recoverable py dumpsSorted w) ∧
        StageOk dumpsSorted (effect call) call after) :
    CheckpointOk py dumpsSorted w' := by
  obtain ⟨memory, call, hrun, rfl | rfl⟩ := systemCall_cases hcall
  · obtain ⟨hfile, hstage⟩ := heffect call (h.saving _ _ _ hrun)
    exact h.proceed hrun hfile hstage
  · exact h.proceed hrun h.file (h.saving _ _ _ hrun).stage.read

theorem CheckpointOk.open (h : CheckpointOk py dumpsSorted w) {temporary : String}
    (hname : temporary ≠ statePath) (hreads : ReadsBack py dumpsSorted memory) :
    CheckpointOk py dumpsSorted { w with
      volume := w.volume.create temporary ""
      running := some ⟨memory, some
        (⟨temporary, w.volume.next, memory, w.volume.read statePath⟩, .opened)⟩
      attempts := w.attempts ++ [memory] } := by
  have hgrown : ∀ c, Recoverable py dumpsSorted w c →
      ∃ s ∈ w.acknowledged :: (w.attempts ++ [memory]), Stored py dumpsSorted s c := by
    rintro c ⟨s, hs, hstored⟩
    exact ⟨s, List.mem_append_left [memory] hs, hstored⟩
  refine ⟨(h.file.mono hgrown).create hname "", fun memory' call' stage' hrun => ?_⟩
  simp only [Option.some.injEq, ExporterProcess.mk.injEq, Prod.mk.injEq] at hrun
  obtain ⟨rfl, rfl, rfl⟩ := hrun
  refine ⟨hname, by simp, hreads, ?_, ?_, ?_⟩
  · intro hmem
    have hlt : w.volume.next < w.volume.next := by
      refine w.volume.lt_next statePath _ ?_
      simpa [Volume.create, Volume.link, Function.update_of_ne hname.symm] using hmem
    omega
  · simp [Volume.create, Volume.link]
  · exact Volume.read_create hname

theorem Prepared.write (h : Prepared v call) (text : String) :
    Prepared (v.write call.descriptor text) call := by
  refine ⟨h.descriptor, h.entry, ?_⟩
  rw [Volume.read_write, h.read]
  intro heq
  exact h.descriptor (heq ▸ v.entry_mem statePath)

theorem Prepared.sync (h : Prepared v call) : Prepared (v.sync call.descriptor) call :=
  ⟨h.descriptor, h.entry, by rw [Volume.read_sync, h.read]⟩

/-- `save` is over: what it returned for is on disk. -/
theorem CheckpointOk.finish (h : CheckpointOk py dumpsSorted w)
    (hcall : SaveOk py dumpsSorted w call (.leaving raised))
    (hfile : ∀ P, w.volume.Leaves statePath P → v.Leaves statePath P)
    (himp : raised = true → ok = true) :
    CheckpointOk py dumpsSorted (w.finish v memory call ok) := by
  cases ok with
  | true => exact ⟨hfile _ h.file, fun _ _ _ hrun => by cases hrun⟩
  | false =>
    cases raised with
    | true => cases himp rfl
    | false =>
      have hdurable : Durably dumpsSorted w.volume call := hcall.stage
      refine ⟨(hfile _ hdurable).mono fun c hc => ?_, fun _ _ _ hrun => by cases hrun⟩
      exact ⟨call.payload, List.mem_cons_self, .inl ⟨hc, hcall.readsBack⟩⟩

theorem CheckpointOk.leave (h : CheckpointOk py dumpsSorted w) (hleave : w.leave ok = some w') :
    CheckpointOk py dumpsSorted w' := by
  unfold CheckpointWorld.leave at hleave
  split at hleave
  · rename_i memory call raised hrun
    have hcall := h.saving _ _ _ hrun
    split_ifs at hleave
    · cases hleave
      exact h.finish hcall (fun _ hP => hP) id
    · cases hleave
      exact h.finish hcall (fun _ hP => hP.unlink hcall.name) id
    · cases hleave
      exact h.finish hcall (fun _ hP => hP) fun _ => rfl
  · cases hleave

/-! ### The system calls -/

theorem CheckpointOk.write (h : CheckpointOk py dumpsSorted w) (text : String)
    (hcall : w.systemCall .opened .opened ok (fun call => w.volume.write call.descriptor text) =
      some w') : CheckpointOk py dumpsSorted w' :=
  h.systemCall hcall fun _ hok =>
    have hprepared : Prepared w.volume _ := hok.stage
    ⟨h.file.write hprepared.descriptor text, hprepared.write text⟩

theorem CheckpointOk.writeAll (h : CheckpointOk py dumpsSorted w)
    (hcall : w.systemCall .opened .written ok (fun call =>
      w.volume.write call.descriptor (dumpsSorted call.payload.toJson)) = some w') :
    CheckpointOk py dumpsSorted w' := by
  refine h.systemCall hcall fun call hok => ?_
  have hprepared : Prepared w.volume call := hok.stage
  refine ⟨h.file.write hprepared.descriptor _, hprepared.write _, ?_⟩
  simp [Volume.write, stateText]

theorem CheckpointOk.sync (h : CheckpointOk py dumpsSorted w)
    (hcall : w.systemCall .written .synced ok (fun call => w.volume.sync call.descriptor) =
      some w') : CheckpointOk py dumpsSorted w' := by
  refine h.systemCall hcall fun call hok => ?_
  obtain ⟨hprepared, hcontent⟩ := hok.stage
  refine ⟨h.file.sync hprepared.descriptor, hprepared.sync, ?_⟩
  simp [Volume.sync, hcontent]

theorem SaveOk.recoverable (h : SaveOk py dumpsSorted w call stage) :
    Recoverable py dumpsSorted w (some (stateText dumpsSorted call.payload)) :=
  ⟨call.payload, List.mem_cons_of_mem _ h.attempted, .inl ⟨rfl, h.readsBack⟩⟩

theorem CheckpointOk.replace (h : CheckpointOk py dumpsSorted w)
    (hcall : w.systemCall .synced .replaced ok (fun call =>
      w.volume.rename call.temporary statePath) = some w') : CheckpointOk py dumpsSorted w' := by
  refine h.systemCall hcall fun call hok => ?_
  obtain ⟨hprepared, hcontent, hsynced⟩ := hok.stage
  refine ⟨h.file.rename hok.name hprepared.entry hsynced ?_, ?_⟩
  · rw [hcontent]
    exact hok.recoverable
  · show (w.volume.rename call.temporary statePath).read statePath = _
    rw [Volume.read_rename hok.name, Volume.read, hprepared.entry, Option.map_some, hcontent]

theorem CheckpointOk.syncDirectory (h : CheckpointOk py dumpsSorted w)
    (hcall : w.systemCall .replaced .durable ok (fun _ => w.volume.syncDirectory) = some w') :
    CheckpointOk py dumpsSorted w' := by
  refine h.systemCall hcall fun call hok => ?_
  have hread : w.volume.read statePath = some (stateText dumpsSorted call.payload) := hok.stage
  have hdurable : Durably dumpsSorted w.volume.syncDirectory call :=
    h.file.syncDirectory.mono fun c hc => hc.trans hread
  refine ⟨hdurable.mono fun c hc => ?_, hdurable⟩
  rw [hc]
  exact hok.recoverable

/-- A step of the process that holds the lock. -/
theorem CheckpointOk.next (h : CheckpointOk py dumpsSorted w) {e : CheckpointEvent}
    (hreads : ∀ pid nanoseconds ok p, e = .openTemporary pid nanoseconds ok →
      w.running = some p → ReadsBack py dumpsSorted p.memory)
    (hnext : w.next dumpsSorted e = some w') : CheckpointOk py dumpsSorted w' := by
  cases e with
  | change state =>
    simp only [CheckpointWorld.next] at hnext
    split at hnext
    · cases hnext
      exact h.rest (some ⟨state, none⟩) (by simp)
    · cases hnext
  | openTemporary pid nanoseconds ok =>
    simp only [CheckpointWorld.next] at hnext
    split at hnext
    · rename_i memory hrun
      split_ifs at hnext
      · cases hnext
        exact h.open (temporaryName_ne _ _) (hreads _ _ _ _ rfl hrun)
      · cases hnext
        exact h
    · cases hnext
  | writePart text => exact h.write text hnext
  | write ok => exact h.writeAll hnext
  | sync ok => exact h.sync hnext
  | replace ok => exact h.replace hnext
  | syncDirectory ok => exact h.syncDirectory hnext
  | chmod ok => exact h.systemCall hnext fun call hcall => ⟨h.file, hcall.stage⟩
  | unlink ok => exact h.leave hnext
  | exit =>
    simp only [CheckpointWorld.next] at hnext
    split at hnext
    · cases hnext
      exact h.rest none (by simp)
    · cases hnext
  | kill =>
    simp only [CheckpointWorld.next] at hnext
    split_ifs at hnext
    cases hnext
    exact h.rest none (by simp)
  | enter state => cases hnext
  | recover unreadable seconds moved => cases hnext
  | powerLoss => cases hnext

/-! ### Every step -/

/-- What is stored is loaded. -/
theorem Stored.load (h : Stored py dumpsSorted s c) :
    ∃ fields, load py c = .loaded fields ∧ Json.Same (.obj fields) s.toJson := by
  obtain ⟨rfl, hreads⟩ | ⟨rfl, rfl⟩ := h
  · exact load_same hreads
  · exact ⟨defaultState, rfl, Json.Same.refl _⟩

theorem Recoverable.load (h : Recoverable py dumpsSorted w c) :
    ∃ s ∈ w.acknowledged :: w.attempts, ∃ fields, load py c = .loaded fields ∧
      Json.Same (.obj fields) s.toJson := by
  obtain ⟨s, hs, hstored⟩ := h
  exact ⟨s, hs, hstored.load⟩

/-- No file fails to be read, and every state that is saved reads back. -/
structure Undisturbed (py : Python) (dumpsSorted : Json → String) (w : CheckpointWorld)
    (e : CheckpointEvent) : Prop where
  readable : ∀ seconds moved, e ≠ .recover true seconds moved
  readsBack : ∀ pid nanoseconds ok p, e = .openTemporary pid nanoseconds ok →
    w.running = some p → ReadsBack py dumpsSorted p.memory

theorem CheckpointOk.step (h : CheckpointOk py dumpsSorted w) {e : CheckpointEvent}
    (hstep : Guarded (Undisturbed py dumpsSorted) (CheckpointStep py dumpsSorted) w e w') :
    CheckpointOk py dumpsSorted w' := by
  obtain ⟨hguard, hstep⟩ := hstep
  cases hstep with
  | enter state hfree hload hsame => exact h.rest (some ⟨state, none⟩) (by simp)
  | recover unreadable seconds moved hfree hcorrupt =>
    rcases hcorrupt with rfl | hcorrupt
    · exact absurd rfl (hguard.readable seconds moved)
    · -- What a process finds is never corrupt.
      obtain ⟨s, -, fields, hload, -⟩ := h.file.read.load
      rw [hload] at hcorrupt
      cases hcorrupt
  | next hnext => exact h.next hguard.readsBack hnext
  | powerLoss hloss => exact ⟨h.file.powerLoss hloss, by simp⟩

end Saving

/-! ## Runs -/

/-- What the next process may find under `state.json`. -/
def CheckpointWorld.MayHold (w : CheckpointWorld) (c : Option String) : Prop :=
  c = w.volume.read statePath ∨ ∃ v, w.volume.PowerLoss v ∧ c = v.read statePath

theorem mayHold_of_leaves {w : CheckpointWorld} {P : Option String → Prop}
    {c : Option String} (h : w.volume.Leaves statePath P) (hc : w.MayHold c) : P c := by
  obtain rfl | ⟨v, hloss, rfl⟩ := hc
  · exact h.read
  · exact (h.powerLoss hloss).read

/-- Nothing is being saved, and the acknowledged state is on disk. -/
structure CheckpointWorld.Initial (py : Python) (dumpsSorted : Json → String)
    (w : CheckpointWorld) : Prop where
  running : w.running = none
  file : w.volume.Leaves statePath (Stored py dumpsSorted w.acknowledged)

/-- In every run, whatever system call fails, wherever a process is killed and whenever the power
goes, the next process loads the state of the last call of `save` that returned or of a call since
then, and finds no corrupt file. While a call goes on the file is the one from before or the new
one as a whole; once it is about to return, even a power failure leaves the new one. -/
theorem checkpoint_survives {py : Python} {dumpsSorted : Json → String} {w₀ w : CheckpointWorld}
    {es : List CheckpointEvent} (h₀ : w₀.Initial py dumpsSorted)
    (h : Run (Guarded (Undisturbed py dumpsSorted) (CheckpointStep py dumpsSorted)) w₀ es w) :
    (∀ c, w.MayHold c → ∃ s ∈ w.acknowledged :: w.attempts, ∃ fields,
      load py c = .loaded fields ∧ Json.Same (.obj fields) s.toJson) ∧
    ∀ memory call stage, w.running = some ⟨memory, some (call, stage)⟩ →
      (w.volume.read statePath = call.before ∨
        w.volume.read statePath = some (stateText dumpsSorted call.payload)) ∧
      (stage = .leaving false → ∀ c, w.MayHold c →
        c = some (stateText dumpsSorted call.payload)) := by
  have hok₀ : CheckpointOk py dumpsSorted w₀ := by
    refine ⟨h₀.file.mono fun c hc => ⟨_, List.mem_cons_self, hc⟩, fun _ _ _ hrun => ?_⟩
    rw [h₀.running] at hrun
    cases hrun
  have hok : CheckpointOk py dumpsSorted w := h.invariant (fun _ _ _ hs => hs.step) hok₀
  refine ⟨fun c hc => (mayHold_of_leaves hok.file hc).load, fun memory call stage hrun => ?_⟩
  have hcall := hok.saving memory call stage hrun
  refine ⟨hcall.stage.read, ?_⟩
  rintro rfl c hc
  have hdurable : w.volume.Leaves statePath
      fun c => c = some (stateText dumpsSorted call.payload) := hcall.stage
  have hnew := mayHold_of_leaves hdurable hc
  exact hnew

/-! ### A call of `save` before the directory is synced -/

def shippedState : CheckpointState :=
  { CheckpointState.default with logs := ⟨some "s=1", true, some 1700000000, []⟩ }

def shippedText : String :=
  "\x7b\"logs\":\x7b\"cursor\":\"s=1\",\"gaps\":[],\"initialized\":true," ++
    "\"last_success_unix\":1700000000\x7d,\"metrics\":\x7b\"baselines\":\x7b\x7d," ++
    "\"cursor\":null,\"gaps\":[],\"initialized\":false,\"last_success_unix\":null\x7d," ++
    "\"version\":1\x7d"

/-- Python on this text. -/
def shippedPython : Python where
  loads text :=
    if text = shippedText then .ok shippedState.toJson else .error .jsonDecodeError
  dumps _ := shippedText
  dumpsAscii _ := shippedText
  parseInt _ := .error .valueError
  truncate _ := .error .valueError
  repr _ := shippedText
  fromTimestamp microseconds := .ok microseconds
  isoformat _ := "2023-11-14T22:13:20+00:00"
  uuid5 _ := "ee30c5d9-cac4-5c75-8a84-28c0a4c492f2"

abbrev ShippedStep : CheckpointWorld → CheckpointEvent → CheckpointWorld → Prop :=
  Guarded (Undisturbed shippedPython fun _ => shippedText)
    (CheckpointStep shippedPython fun _ => shippedText)

theorem shipped_readsBack : ReadsBack shippedPython (fun _ => shippedText) shippedState :=
  ⟨shippedState.toJson, by simp [shippedPython, stateText], Json.Same.refl _⟩

theorem shipped_initial :
    CheckpointWorld.Initial shippedPython (fun _ => shippedText) { volume := Volume.empty "" } := by
  refine ⟨rfl, fun e he => ?_⟩
  rw [List.mem_singleton.mp he]
  exact ⟨by simp, .inr ⟨rfl, rfl⟩⟩

section Undisturbed

variable {py : Python} {dumpsSorted : Json → String} {w : CheckpointWorld} {e : CheckpointEvent}
  {p : ExporterProcess} {pid nanoseconds : Nat} {ok : Bool}

/-- Only reading the file and saving a state can be disturbed. -/
theorem Undisturbed.of_ne (hrecover : ∀ seconds moved, e ≠ .recover true seconds moved)
    (hopen : ∀ pid nanoseconds ok, e ≠ .openTemporary pid nanoseconds ok) :
    Undisturbed py dumpsSorted w e :=
  ⟨hrecover, fun pid nanoseconds ok _ he => absurd he (hopen pid nanoseconds ok)⟩

theorem Undisturbed.of_readsBack (hrun : w.running = some p)
    (h : ReadsBack py dumpsSorted p.memory) :
    Undisturbed py dumpsSorted w (.openTemporary pid nanoseconds ok) := by
  refine ⟨by simp, fun _ _ _ q _ hq => ?_⟩
  rw [hrun] at hq
  cases hq
  exact h

end Undisturbed

theorem shipped_run : ∃ es w, Run ShippedStep { volume := Volume.empty "" } es w ∧
    w.acknowledged = .default ∧ w.attempts = [shippedState] := by
  have hstart : Run ShippedStep { volume := Volume.empty "" } [] { volume := Volume.empty "" } :=
    .refl _
  have hentered := hstart.snoc ⟨.of_ne (by simp) (by simp),
    .enter CheckpointState.default rfl rfl (Json.Same.refl _)⟩
  have hchanged := hentered.snoc (e := .change shippedState)
    ⟨.of_ne (by simp) (by simp), .next rfl⟩
  have hopened := hchanged.snoc (e := .openTemporary 4321 17 true)
    ⟨.of_readsBack (p := ⟨shippedState, none⟩) rfl shipped_readsBack, .next rfl⟩
  have hwritten := hopened.snoc (e := .write true) ⟨.of_ne (by simp) (by simp), .next rfl⟩
  have hsynced := hwritten.snoc (e := .sync true) ⟨.of_ne (by simp) (by simp), .next rfl⟩
  have hreplaced := hsynced.snoc (e := .replace true) ⟨.of_ne (by simp) (by simp), .next rfl⟩
  exact ⟨_, _, hreplaced, rfl, rfl⟩

/-- A power failure at this point leaves no state or the new one. -/
theorem checkpoint_survives_replaced : ∃ es w, Run ShippedStep { volume := Volume.empty "" } es w ∧
    w.attempts = [shippedState] ∧
    ∀ c, w.MayHold c → ∃ s ∈ [CheckpointState.default, shippedState], ∃ fields,
      load shippedPython c = .loaded fields ∧ Json.Same (.obj fields) s.toJson := by
  obtain ⟨es, w, hrun, hacknowledged, hattempts⟩ := shipped_run
  have hloads := (checkpoint_survives shipped_initial hrun).1
  rw [hacknowledged, hattempts] at hloads
  exact ⟨es, w, hrun, hattempts, hloads⟩

end Btfind
