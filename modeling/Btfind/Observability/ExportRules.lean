import Btfind.Library.Chunks
import Btfind.Observability.Export

/-!
# Rules for the exporter

One rule for each question to the environment and for each part that both streams share.
-/

namespace Btfind

open Program (Triple)

namespace Exporter

variable {α : Type} {P : ExportWorld → Prop} {S : Stop ExportError → ExportWorld → Prop}

theorem triple_next {answers : Answers → List α} {rest : List α → Answers → Answers}
    (hd : ∀ w, P w → S .died w) : Triple P (next answers rest) (fun _ => P) S :=
  Triple.ask (fun _ _ h => h) hd

theorem triple_checkBudget (hS : ∀ stop w, P w → S stop w) :
    Triple P checkBudget (fun _ => P) S := by
  refine Triple.bind (triple_next (hS _)) fun spent => ?_
  cases spent with
  | true => exact Triple.raise (hS _)
  | false => exact Triple.pure fun _ h => h

theorem triple_call {note : ExportWorld → ExportWorld} {Q : ExportWorld → Prop}
    (hq : ∀ w, P w → Q (note w)) (hS : ∀ stop w, P w → S stop w) :
    Triple P (call note) (fun _ => Q) S := by
  refine Triple.bind (triple_next (hS _)) fun answer => ?_
  cases answer with
  | raised e => exact Triple.raise (hS _)
  | returned failed =>
    exact Triple.bind (Triple.modify (Q := fun _ => Q) hq) fun _ => Triple.pure fun _ h => h

/-- The change of a file takes place or not, whatever is reported. -/
theorem triple_changeFile {e : ExportError} {change : ExportWorld → ExportWorld}
    {Q : ExportWorld → Prop} (hq : ∀ w, P w → Q (change w))
    (hdied : ∀ w, P w → S .died w) (hraised : ∀ w, P w → S (.raised e) w)
    (hlost : ∀ w, Q w → S (.raised e) w) : Triple P (changeFile e change) (fun _ => Q) S := by
  refine Triple.bind (triple_next hdied) fun fate => ?_
  cases fate with
  | commits => exact Triple.modify hq
  | fails _ => exact Triple.raise hraised
  | uncertain _ =>
    exact Triple.bind (Triple.modify (Q := fun _ => Q) hq) fun _ => Triple.raise hlost

theorem triple_changeMemory {f : CheckpointState → CheckpointState} {Q : ExportWorld → Prop}
    (hq : ∀ w, P w → Q { w with memory := f w.memory }) :
    Triple P (changeMemory f) (fun _ => Q) S :=
  Triple.modify hq

theorem triple_recordGap {stream : Stream} {reason : String} {details : JsonObject}
    {Q : ExportWorld → Prop}
    (hq : ∀ w gap, P w → Q { w with memory := w.memory.recordGap stream gap })
    (hd : ∀ w, P w → S .died w) :
    Triple P (recordGap stream reason details) (fun _ => Q) S :=
  Triple.bind (triple_next hd) fun _ => triple_changeMemory fun w hw => hq w _ hw

theorem triple_advance {stream : Stream} {cursor : Option String} {Q : ExportWorld → Prop}
    (hq : ∀ w now, P w → Q { w with memory := w.memory.advance stream cursor now })
    (hd : ∀ w, P w → S .died w) : Triple P (advance stream cursor) (fun _ => Q) S :=
  Triple.bind (triple_next hd) fun _ => triple_changeMemory fun w hw => hq w _ hw

theorem triple_save {commits : List MetricsCommit} {Q : ExportWorld → Prop}
    (hq : ∀ w, P w → Q { w with disk := w.memory, committed := w.committed ++ commits })
    (hdied : ∀ w, P w → S .died w) (hraised : ∀ w, P w → S (.raised .os) w)
    (hlost : ∀ w, Q w → S (.raised .os) w) : Triple P (save commits) (fun _ => Q) S :=
  triple_changeFile hq hdied hraised hlost

theorem triple_chunked {values : List α} {size : Int} (hS : ∀ stop w, P w → S stop w) :
    Triple P (chunked values size)
      (fun chunks w => (0 ≤ size → chunks.flatten = values) ∧ P w) S := by
  rw [chunked]
  split_ifs with hzero hneg
  · exact Triple.raise (hS _)
  · exact Triple.pure fun w h => ⟨fun hsize => absurd hneg hsize.not_gt, h⟩
  · exact Triple.pure fun w h => ⟨fun _ => List.toChunks_flatten size.toNat values, h⟩

/-- What a failed attempt keeps, the next one may rely on. -/
theorem triple_withRetry {operation : Exporter α} {Q : α → ExportWorld → Prop}
    (h : Triple P operation Q (fun _ => P)) (hS : ∀ stop w, P w → S stop w) (attempts : Nat) :
    Triple P (withRetry operation attempts) Q S := by
  induction attempts with
  | zero => exact Triple.raise (hS _)
  | succ attemptsLeft ih =>
    have hretry : Triple P (retry attemptsLeft (withRetry operation attemptsLeft)) Q S := by
      rw [retry]
      split
      · exact Triple.raise (hS _)
      · refine Triple.bind (triple_next (hS _)) fun tooLong => ?_
        cases tooLong with
        | true => exact Triple.raise (hS _)
        | false => exact ih
    refine Triple.bind (triple_checkBudget hS) fun _ => ?_
    refine Triple.bind (Triple.attempt (Q := fun r w => match r with
      | .ok a => Q a w
      | .error _ => P w) h (fun _ _ hw => hw) (fun w hw => hS _ w hw)) fun result => ?_
    cases result with
    | ok a => exact Triple.pure fun _ hw => hw
    | error e =>
      cases e with
      | service status =>
        show Triple P (if isTransient status then _ else _) Q S
        split
        · exact hretry
        · exact Triple.raise (hS _)
      | request => exact hretry
      | os => exact hretry
      | publish => exact Triple.raise (hS _)
      | deadLetter => exact Triple.raise (hS _)
      | journal => exact Triple.raise (hS _)
      | journalCursor => exact Triple.raise (hS _)
      | python e => exact Triple.raise (hS _)

end Exporter

namespace Export

open Exporter (checkBudget triple_next triple_checkBudget)

variable {site : ExportSite} {config : ExportConfig} {stream : Stream}
  {P : ExportWorld → Prop} {S : Stop ExportError → ExportWorld → Prop}

/-- What `journalctl` leaves behind. -/
def noteRestart (site : ExportSite) (stream : Stream) (cursor : Option String)
    (lookback : Option Int) (reading : Reading) (w : ExportWorld) : ExportWorld :=
  { w with
    restart :=
      if (cursor.filter (· ≠ "")).isNone then
        Function.update w.restart stream
          (some (firstLine site (cursor.filter (· ≠ "")) lookback reading.since))
      else w.restart }

/-- The lines that a stream reads. -/
def linesOf (site : ExportSite) (cursor : Option String) (lookback : Option Int)
    (reading : Reading) : List JournalLine :=
  printed site (firstLine site (cursor.filter (· ≠ "")) lookback reading.since) reading

def batchesOf (site : ExportSite) (config : ExportConfig) (cursor : Option String)
    (lookback : Option Int) (reading : Reading) : List JournalBatch :=
  (Journal.readBatches site.py site.uid config.limits cursor
    (linesOf site cursor lookback reading)).1

theorem triple_afterBatches (stopped : ReadEnd) (exit : JournalExit)
    (hS : ∀ stop w, P w → S stop w) : Triple P (afterBatches stopped exit) (fun _ => P) S := by
  cases stopped with
  | raised e => exact Triple.raise (hS _)
  | terminated => exact Triple.pure fun _ h => h
  | ended =>
    cases exit with
    | success => exact Triple.pure fun _ h => h
    | failure seek =>
      cases seek with
      | true => exact Triple.raise (hS _)
      | false => exact Triple.raise (hS _)

/-- A stream, by an invariant that speaks of the batches that are shipped. -/
theorem triple_shipStream {cursor : Option String} {lookback : Option Int}
    {ship : JournalBatch → Exporter Unit} (I : Reading → List JournalBatch → ExportWorld → Prop)
    (hread : ∀ reading w, P w → I reading [] (noteRestart site stream cursor lookback reading w))
    (hship : ∀ reading done batch rest,
      batchesOf site config cursor lookback reading = done ++ batch :: rest →
      Triple (I reading done) (ship batch) (fun _ => I reading (done ++ [batch])) S)
    (hstop : ∀ reading done stop w, I reading done w → S stop w)
    (hdied : ∀ w, P w → S .died w) :
    Triple P (shipStream site config stream cursor lookback ship)
      (fun _ w => ∃ reading, I reading (batchesOf site config cursor lookback reading) w) S := by
  have hjournalctl : Triple P (journalctl site stream cursor lookback)
      (fun r w => ∃ reading, r.1 = linesOf site cursor lookback reading ∧ I reading [] w) S := by
    refine Triple.bind (triple_next hdied) fun reading => ?_
    refine Triple.bind (Triple.modify (Q := fun _ => I reading []) fun w hw =>
      hread reading w hw) fun _ => ?_
    exact Triple.pure fun w hw => ⟨reading, rfl, hw⟩
  refine Triple.bind hjournalctl fun r => ?_
  intro answers w hw
  obtain ⟨reading, hr, hI⟩ := hw
  obtain ⟨lines, exit⟩ := r
  cases hr
  have hloop : Triple (I reading []) ((batchesOf site config cursor lookback reading).forM
      fun batch => do
        checkBudget
        ship batch)
      (fun _ => I reading (batchesOf site config cursor lookback reading)) S :=
    Triple.forM _ _ fun done batch rest heq =>
      Triple.bind (triple_checkBudget (hstop reading done)) fun _ =>
        hship reading done batch rest heq
  have hall := Triple.bind hloop fun _ =>
    triple_afterBatches (Journal.readBatches site.py site.uid config.limits cursor
      (linesOf site cursor lookback reading)).2 exit (hstop reading _)
  exact (hall.strengthen fun _ w hw => ⟨reading, hw⟩) answers w hI

/-! ## Points -/

/-- Publishing keeps what does not speak of the points that are posted. -/
theorem triple_publishPoints (points : List MetricPoint)
    (hpost : ∀ w chunk, P w → P { w with posted := w.posted ++ chunk })
    (hS : ∀ stop w, P w → S stop w) :
    Triple P (publishPoints config points) (fun _ => P) S := by
  have hattempt : ∀ chunk, Triple P (publishMetrics config chunk) (fun _ => P) (fun _ => P) := by
    intro chunk
    refine Triple.bind (Exporter.triple_chunked fun _ _ h => h) fun chunks => ?_
    refine Triple.of_pure fun _ => ?_
    refine Triple.foldlM (fun _ _ => P) chunks fun done chunk rest responses _ => ?_
    refine Triple.bind (Q := fun _ => P)
      (Exporter.triple_call (fun w h => hpost w chunk h) fun _ _ h => h) fun failed => ?_
    exact Triple.pure fun _ h => h
  rw [publishPoints]
  split
  · exact Triple.pure fun _ h => h
  refine Triple.bind (Exporter.triple_chunked hS) fun chunks => ?_
  refine Triple.of_pure fun _ => ?_
  refine Triple.forM (fun _ => P) chunks fun done chunk rest _ => ?_
  refine Triple.bind (triple_checkBudget hS) fun _ => ?_
  refine Triple.bind (Exporter.triple_withRetry (hattempt chunk) hS _) fun responses => ?_
  split
  · exact Triple.raise (hS _)
  · exact Triple.pure fun _ h => h

/-! ## Runs

`G` is what holds of the state while nothing is half done, and `S` what holds where a program
stops. -/

variable {G : ExportWorld → Prop}

/-- The state after the cursor is given up in memory. -/
def withoutCursor (stream : Stream) (w : ExportWorld) : ExportWorld :=
  { w with memory := w.memory.resetCursor stream }

/-- The state after the memory is saved. -/
def saved (commits : List MetricsCommit) (w : ExportWorld) : ExportWorld :=
  { w with disk := w.memory, committed := w.committed ++ commits }

theorem triple_resetCursor {cursor : Option String}
    (hgap : ∀ w gap, G w → G { w with memory := w.memory.recordGap stream gap })
    (hsaved : ∀ w, G w → G (saved [] (withoutCursor stream w)))
    (hdied : ∀ w, G w → S .died (withoutCursor stream w))
    (hraised : ∀ w, G w → S (.raised .os) (withoutCursor stream w))
    (hS : ∀ stop w, G w → S stop w) :
    Triple G (resetCursor stream cursor)
      (fun _ w => G w ∧ (w.memory.stream stream).cursor = none) S := by
  refine Triple.bind (Q := fun _ => G) (Triple.get fun _ h => h) fun w => ?_
  split
  · exact Triple.raise (hS _)
  refine Triple.bind (Exporter.triple_recordGap (Q := G) hgap (hS _)) fun _ => ?_
  -- The state without a cursor is not saved yet.
  refine Triple.bind (Exporter.triple_changeMemory
    (Q := fun w => ∃ v, G v ∧ w = withoutCursor stream v) fun v hv => ⟨v, hv, rfl⟩) fun _ => ?_
  refine Exporter.triple_save ?_ ?_ ?_ ?_
  · rintro w ⟨v, hv, rfl⟩
    exact ⟨hsaved v hv, CheckpointState.cursor_resetCursor⟩
  · rintro w ⟨v, hv, rfl⟩
    exact hdied v hv
  · rintro w ⟨v, hv, rfl⟩
    exact hraised v hv
  · exact fun w hw => hS _ w hw.1

theorem triple_deadLetterFailed {cursor : Option String}
    (hgap : ∀ w gap, G w → G { w with memory := w.memory.recordGap .logs gap })
    (hsaved : ∀ w, G w → G (saved [] w)) (hS : ∀ stop w, G w → S stop w) :
    Triple G (deadLetterFailed cursor) (fun _ => G) S := by
  refine Triple.bind (Exporter.triple_recordGap (Q := G) hgap (hS _)) fun _ => ?_
  refine Triple.bind (Exporter.triple_save (Q := G) hsaved (hS _) (hS _) (hS _)) fun _ => ?_
  exact Triple.raise (hS _)

theorem triple_runLogs
    (hship : ∀ cursor lookback, Triple (fun w => G w ∧ w.memory.logs.cursor = cursor)
      (shipLogStream site config cursor lookback) (fun _ => G) S)
    (hreset : ∀ cursor, Triple G (resetCursor .logs cursor)
      (fun _ w => G w ∧ w.memory.logs.cursor = none) S)
    (hdead : ∀ cursor, Triple G (deadLetterFailed cursor) (fun _ => G) S)
    (hquiet : ∀ e w, e ≠ .os → S (.raised e) w → G w) (hS : ∀ stop w, G w → S stop w) :
    Triple G (runLogs site config) (fun _ => G) S := by
  -- A stream that is over: what it raised is at hand, and `S` holds if it was an error.
  have hattempt : ∀ cursor lookback, Triple (fun w => G w ∧ w.memory.logs.cursor = cursor)
      (shipLogStream site config cursor lookback).attempt (fun r w => match r with
        | .ok _ => G w
        | .error e => S (.raised e) w) S :=
    fun cursor lookback => Triple.attempt (hship cursor lookback) (fun _ _ h => h) fun _ h => h
  refine Triple.bind (Q := fun v w => v = w ∧ G w) (Triple.get fun _ h => ⟨rfl, h⟩) fun v => ?_
  refine Triple.bind ((hattempt v.memory.logs.cursor (lookbackOf config v.memory.logs)).weaken
    fun w h => ⟨h.2, h.1 ▸ rfl⟩) fun result => ?_
  cases result with
  | ok _ => exact Triple.pure fun _ h => h
  | error e =>
    cases e with
    | journalCursor =>
      refine Triple.bind ((hreset _).weaken fun w h => hquiet _ w (by decide) h) fun _ => ?_
      refine Triple.bind (hattempt none none) fun result => ?_
      cases result with
      | ok _ => exact Triple.pure fun _ h => h
      | error e =>
        cases e with
        | deadLetter => exact (hdead none).weaken fun w h => hquiet _ w (by decide) h
        | publish => exact Triple.raise fun _ h => h
        | journal => exact Triple.raise fun _ h => h
        | journalCursor => exact Triple.raise fun _ h => h
        | service status => exact Triple.raise fun _ h => h
        | request => exact Triple.raise fun _ h => h
        | os => exact Triple.raise fun _ h => h
        | python e => exact Triple.raise fun _ h => h
    | deadLetter => exact (hdead _).weaken fun w h => hquiet _ w (by decide) h
    | journal => exact Triple.raise fun w h => hS _ w (hquiet _ w (by decide) h)
    | publish => exact Triple.raise fun _ h => h
    | service status => exact Triple.raise fun _ h => h
    | request => exact Triple.raise fun _ h => h
    | os => exact Triple.raise fun _ h => h
    | python e => exact Triple.raise fun _ h => h

theorem triple_runMetrics
    (hship : ∀ cursor lookback, Triple G
      (shipMetricStream site config cursor lookback) (fun _ => G) S)
    (hreset : ∀ cursor, Triple G (resetCursor .metrics cursor)
      (fun _ w => G w ∧ w.memory.metrics.cursor = none) S)
    (hquiet : ∀ e w, e ≠ .os → S (.raised e) w → G w) (hS : ∀ stop w, G w → S stop w) :
    Triple G (runMetrics site config) (fun _ => G) S := by
  refine Triple.bind (Q := fun _ => G) (Triple.get fun _ h => h) fun v => ?_
  refine Triple.bind (Triple.attempt (Q := fun r w => match r with
    | .ok _ => G w
    | .error e => S (.raised e) w) (hship _ _) (fun _ _ h => h) fun _ h => h) fun result => ?_
  cases result with
  | ok _ => exact Triple.pure fun _ h => h
  | error e =>
    cases e with
    | journalCursor =>
      refine Triple.bind ((hreset _).weaken fun w h => hquiet _ w (by decide) h) fun _ => ?_
      exact (hship none none).weaken fun _ h => h.1
    | journal => exact Triple.raise fun w h => hS _ w (hquiet _ w (by decide) h)
    | publish => exact Triple.raise fun _ h => h
    | deadLetter => exact Triple.raise fun _ h => h
    | service status => exact Triple.raise fun _ h => h
    | request => exact Triple.raise fun _ h => h
    | os => exact Triple.raise fun _ h => h
    | python e => exact Triple.raise fun _ h => h

/-- A process starts from the file; what holds wherever it may stop holds after the run. -/
theorem run_keeps {I : ExportWorld → Prop} {run : ExportRun} {w : ExportWorld}
    (hstart : G { w with memory := w.disk })
    (hlogs : Triple G (runLogs site run.config) (fun _ => G) S)
    (hmetrics : Triple G (runMetrics site run.config) (fun _ => G) S)
    (hS : ∀ stop w, G w → S stop w) (hI : ∀ stop w, S stop w → I w) :
    I (run.world site w) := by
  have hrun : Triple (fun v => v = w) (runStream site run.config run.stream)
      (fun _ => I) (fun _ => I) := by
    refine Triple.bind (Q := fun _ => G) (Triple.modify fun v hv => hv ▸ hstart) fun _ => ?_
    refine Triple.bind ((triple_next (P := G) (S := S) (hS _)).consequence (fun _ h => h)
      (fun _ _ h => h) hI) fun made => ?_
    cases made with
    | false => exact Triple.pure fun w h => hI .died w (hS _ w h)
    | true =>
      have hattempt : ∀ body : Exporter Unit, Triple G body (fun _ => G) S →
          Triple G body.attempt (fun _ => I) (fun _ => I) :=
        fun body hbody => Triple.attempt
          (hbody.strengthen fun _ w h => hI .died w (hS _ w h)) (fun e w h => hI _ w h)
          fun w h => hI _ w h
      refine Triple.bind (Q := fun _ => I) ?_ fun result => ?_
      · cases run.stream with
        | logs => exact hattempt _ hlogs
        | metrics => exact hattempt _ hmetrics
      cases result with
      | ok _ => exact Triple.pure fun _ h => h
      | error e =>
        cases e with
        | publish => exact Triple.pure fun _ h => h
        | python e =>
          cases e with
          | recursionError => exact Triple.pure fun _ h => h
          | typeError => exact Triple.raise fun _ h => h
          | valueError => exact Triple.raise fun _ h => h
          | jsonDecodeError => exact Triple.raise fun _ h => h
          | overflowError => exact Triple.raise fun _ h => h
          | attributeError => exact Triple.raise fun _ h => h
        | deadLetter => exact Triple.raise fun _ h => h
        | journal => exact Triple.raise fun _ h => h
        | journalCursor => exact Triple.raise fun _ h => h
        | service status => exact Triple.raise fun _ h => h
        | request => exact Triple.raise fun _ h => h
        | os => exact Triple.raise fun _ h => h
  exact hrun.finally (fun _ _ h => h) (fun _ _ h => h) rfl

end Export

end Btfind
