import Btfind.Observability.LogExport

/-!
# Export runs

One run of the exporter reads the journal after its saved cursor, ships what it reads batch by
batch, and saves the cursor of a batch when the batch is shipped. Runs follow each other; a run may
stop anywhere, and the next one starts from the file.
-/

namespace Btfind

namespace Export

open Exporter (checkBudget withRetry chunked)
open Program (raise modify get)

/-! ## The journal -/

/-- The cursor of a line. -/
def rawCursor (py : Python) (text : String) : Option String :=
  if text.toList.all isSpace then none
  else
    match py.loads text with
    | .ok (.obj raw) =>
      let cursor := Journal.decodeField py (raw.lookup "__CURSOR")
      if cursor = "" then none else some cursor
    | _ => none

/-- A text that the reader takes for no JSON. -/
def isBroken (py : Python) (text : String) : Bool :=
  match py.loads text with
  | .error .jsonDecodeError => true
  | _ => false

/-- The first line that `journalctl` prints: the one after the cursor, or the first one of the
look-back, or the first one of the journal. -/
def firstLine (site : ExportSite) (cursor : Option String) (lookback : Option Int) (since : Nat) :
    Nat :=
  match cursor with
  | some c => site.journal.findIdx (fun text => rawCursor site.py text = some c) + 1
  | none => if lookback.isSome then since else 0

/-- What `journalctl` prints from a line on: some of the lines, and maybe a part of the next. -/
def printed (site : ExportSite) (first : Nat) (reading : Reading) : List JournalLine :=
  List.zipWith JournalLine.mk (site.journal.drop first) reading.printed ++
    (reading.fragment.filter fun line => isBroken site.py line.text).toList

def journalctl (site : ExportSite) (stream : Stream) (cursor : Option String)
    (lookback : Option Int) : Exporter (List JournalLine × JournalExit) := do
  let reading ← Exporter.reading
  -- An empty cursor is none.
  let cursor := cursor.filter (· ≠ "")
  let first := firstLine site cursor lookback reading.since
  modify fun w =>
    { w with
      restart := if cursor.isNone then Function.update w.restart stream (some first)
        else w.restart }
  return (printed site first reading, reading.exit)

/-- What `read_batches` raises after its last batch. -/
def afterBatches : ReadEnd → JournalExit → Exporter Unit
  | .raised e, _ => raise (.python e)
  | .terminated, _ | .ended, .success => pure ()
  | .ended, .failure true => raise .journalCursor
  | .ended, .failure false => raise .journal

/-- The loop over the batches of `read_batches`. -/
def shipStream (site : ExportSite) (config : ExportConfig) (stream : Stream)
    (cursor : Option String) (lookback : Option Int) (ship : JournalBatch → Exporter Unit) :
    Exporter Unit := do
  let (lines, exit) ← journalctl site stream cursor lookback
  let (batches, stopped) := Journal.readBatches site.py site.uid config.limits cursor lines
  batches.forM fun batch => do
    checkBudget
    ship batch
  afterBatches stopped exit

/-! ## Logs -/

/-- `config.log_ocids.get` -/
def logOcid (site : ExportSite) : Service → String
  | .crawler => site.crawlerLogOcid
  | .web => site.webLogOcid

/-- The entries of one service. -/
def shipService (site : ExportSite) (config : ExportConfig) (group : Service × List LogEntry) :
    Exporter Unit :=
  if logOcid site group.1 = "" then raise .publish
  else do
    let chunks ← chunked group.2 config.maxEntries
    chunks.forM fun chunk => do
      checkBudget
      withRetry (LogExport.putLogs site config (logOcid site group.1) group.1 chunk)
        config.maxAttempts

def shipLogBatch (site : ExportSite) (config : ExportConfig) (batch : JournalBatch) :
    Exporter Unit := do
  let grouped ← LogExport.entriesByService site.py config batch.records
  grouped.forM (shipService site config)

def shipLogStream (site : ExportSite) (config : ExportConfig) (cursor : Option String)
    (lookback : Option Int) : Exporter Unit :=
  shipStream site config .logs cursor lookback fun batch => do
    shipLogBatch site config batch
    Exporter.advance .logs batch.cursor
    Exporter.save []

/-- The dead-letter file could not be written. -/
def deadLetterFailed (cursor : Option String) : Exporter Unit := do
  Exporter.recordGap .logs "dead_letter_failed"
    [("cursor", (cursor.map Json.str).getD .null)]
  Exporter.save []
  raise .publish

/-- The cursor is given up: what lies after it is a gap. -/
def resetCursor (stream : Stream) (cursor : Option String) : Exporter Unit := do
  let w ← get
  if (w.memory.stream stream).cursor ≠ cursor then raise .publish
  else do
    Exporter.recordGap stream "cursor_invalid"
      [("cursor", (cursor.map Json.str).getD .null)]
    Exporter.changeMemory (.resetCursor stream)
    Exporter.save []

/-- The look-back is for a stream that has committed nothing. -/
def lookbackOf (config : ExportConfig) (state : StreamState) : Option Int :=
  if state.initialized then none else some config.lookbackSeconds

def runLogs (site : ExportSite) (config : ExportConfig) : Exporter Unit := do
  let w ← get
  let cursor := w.memory.logs.cursor
  match ← (shipLogStream site config cursor (lookbackOf config w.memory.logs)).attempt with
  | .ok () => pure ()
  | .error .journalCursor => do
    resetCursor .logs cursor
    match ← (shipLogStream site config none none).attempt with
    | .ok () => pure ()
    | .error .deadLetter => deadLetterFailed none
    | .error e => raise e
  | .error .deadLetter => deadLetterFailed cursor
  | .error .journal => raise .publish
  | .error e => raise e

/-! ## Metrics -/

def publishMetrics (config : ExportConfig) (points : List MetricPoint) :
    Exporter (List Int) := do
  let chunks ← chunked points config.maxPointsPerRequest
  chunks.foldlM (fun responses chunk => do
    let failed ← Exporter.call fun w => { w with posted := w.posted ++ chunk }
    return responses ++ [failed]) []

/-- A rejected point keeps the batch from being committed. -/
def publishChunk (config : ExportConfig) (chunk : List MetricPoint) : Exporter Unit := do
  checkBudget
  let responses ← withRetry (publishMetrics config chunk) config.maxAttempts
  if responses.sum ≠ 0 then raise .publish else pure ()

def publishPoints (config : ExportConfig) (points : List MetricPoint) : Exporter Unit :=
  if points = [] then pure ()
  else do
    let chunks ← chunked points config.maxPointsPerRequest
    chunks.forM (publishChunk config)

def shipMetricsBatch (site : ExportSite) (config : ExportConfig) (batch : JournalBatch) :
    Exporter Unit := do
  let now ← Exporter.clock
  let freshness := ⟨config.metricsMaxAgeSeconds, now⟩
  let w ← get
  let mapped ← Program.ofExcept ((MetricsExport.mapBatch site.py site.instanceName freshness
    batch.records w.memory.baselines).mapError ExportError.python)
  mapped.skipped.forM (Exporter.recordGap .metrics "freshness_skip")
  publishPoints config mapped.points
  Exporter.advance .metrics batch.cursor
  Exporter.changeMemory fun state => { state with baselines := mapped.working }
  Exporter.save [⟨batch.records, freshness, mapped.points⟩]

def shipMetricStream (site : ExportSite) (config : ExportConfig) (cursor : Option String)
    (lookback : Option Int) : Exporter Unit :=
  shipStream site config .metrics cursor lookback (shipMetricsBatch site config)

def runMetrics (site : ExportSite) (config : ExportConfig) : Exporter Unit := do
  let w ← get
  let cursor := w.memory.metrics.cursor
  match ← (shipMetricStream site config cursor (lookbackOf config w.memory.metrics)).attempt with
  | .ok () => pure ()
  | .error .journalCursor => do
    resetCursor .metrics cursor
    shipMetricStream site config none none
  | .error .journal => raise .publish
  | .error e => raise e

/-! ## Runs -/

/-- `run_stream`, with its exit status. -/
def runStream (site : ExportSite) (config : ExportConfig) (stream : Stream) : Exporter Nat := do
  modify fun w => { w with memory := w.disk }
  if ← Exporter.makeClient then
    let run := match stream with
      | .logs => runLogs site config
      | .metrics => runMetrics site config
    match ← run.attempt with
    | .ok () => return 0
    | .error .publish => return 1
    -- A `RecursionError` is a `RuntimeError`, like that of a lock that is held.
    | .error (.python .recursionError) => return 75
    | .error e => raise e
  else return 3

/-- A run of the exporter: its stream, its configuration and what the environment answers. -/
structure ExportRun where
  stream : Stream
  config : ExportConfig
  answers : Answers

def ExportRun.world (site : ExportSite) (w : ExportWorld) (run : ExportRun) : ExportWorld :=
  (runStream site run.config run.stream run.answers w).2.2

/-- The state after some runs. -/
def after (site : ExportSite) (runs : List ExportRun) : ExportWorld :=
  runs.foldl (ExportRun.world site) .start

end Export

end Btfind
