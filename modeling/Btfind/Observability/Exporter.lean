import Mathlib.Logic.Function.Basic
import Btfind.Library.Calls
import Btfind.Library.Transaction
import Btfind.Observability.MetricsExport

/-!
# The exporter and its environment

Answers of the ingestion service, of the file system, of `journalctl` and of the clock are not the
exporter's own. The state on disk outlives a process, the state in memory does not.
-/

namespace Btfind

/-- An entry of `put_logs`; its time is in microseconds. -/
structure LogEntry where
  data : String
  id : String
  time : Int

/-- A `put_logs` call. -/
structure LogCall where
  logId : String
  subject : Service
  source : String
  entries : List LogEntry

/-- A metrics batch that is committed, with the points that it was published as. -/
structure MetricsCommit where
  records : List JournalRecord
  freshness : MetricsExport.Freshness
  points : List MetricPoint

inductive ExportError
  | publish
  | deadLetter
  | journal
  | journalCursor
  | service (status : Option Nat)
  | request
  | os
  | python (e : PyError)
  deriving DecidableEq

/-! ## The environment -/

/-- The answer to a call of the ingestion service; a response may count failed metrics. -/
inductive CallReply
  | returned (failed : Int)
  | raised (e : ExportError)

/-- How `journalctl` exits, and whether it complains about the cursor. -/
inductive JournalExit
  | success
  | failure (seek : Bool)

/-- What one `journalctl` prints. -/
structure Reading where
  /-- The first line that the look-back selects. -/
  since : Nat
  /-- The clock at each line that is printed. -/
  printed : List Int
  /-- A last line that is cut off. -/
  fragment : Option JournalLine
  exit : JournalExit

structure Answers where
  /-- Whether the time budget is spent, at each look at it. -/
  budgets : List Bool
  /-- Whether the pause before the next attempt is longer than the rest of the budget. -/
  pauses : List Bool
  replies : List CallReply
  files : List (Transaction.Fate Unit)
  clocks : List Int
  readings : List Reading
  /-- Whether a client can be made. -/
  clients : List Bool

/-! ## The state -/

/-- The dead-letter file and the one it replaced. -/
structure DeadLetterFile where
  lines : List String
  backup : List String

structure ExportWorld where
  /-- `store.state` of the running process. -/
  memory : CheckpointState
  /-- `state.json` -/
  disk : CheckpointState
  deadLetterFile : DeadLetterFile
  /-- The `put_logs` calls that returned. -/
  acknowledged : List LogCall
  /-- The points of the `post_metric_data` calls that returned. -/
  posted : List MetricPoint
  /-- The records that were written to the dead-letter file. -/
  deadLettered : List JournalRecord
  /-- Where the last `journalctl` without a cursor began. -/
  restart : Stream → Option Nat
  /-- The metrics batches that the file on disk has taken in. -/
  committed : List MetricsCommit

def ExportWorld.start : ExportWorld :=
  { memory := .default
    disk := .default
    deadLetterFile := ⟨[], []⟩
    acknowledged := []
    posted := []
    deadLettered := []
    restart := fun _ => none
    committed := [] }

abbrev Exporter := Program Answers ExportWorld ExportError

/-- What all runs share. -/
structure ExportSite where
  py : Python
  uid : Nat
  instanceName : String
  crawlerLogOcid : String
  webLogOcid : String
  /-- The lines of the journal, oldest first. -/
  journal : List String

structure ExportConfig where
  lookbackSeconds : Int
  limits : JournalLimits
  metricsMaxAgeSeconds : Int
  maxAttempts : Nat
  /-- `LOG_ENTRY_MAX_CHARS` -/
  maxDataChars : Int
  /-- `LOG_BATCH_MAX_ENTRIES` -/
  maxEntries : Int
  /-- `DEAD_LETTER_MAX_BYTES` -/
  maxDeadLetterBytes : Int
  /-- `METRICS_BATCH_MAX_POINTS` -/
  maxPointsPerRequest : Int

namespace Exporter

open Program (raise modify)

/-! ## Questions -/

/-- Take the next of the answers of one kind. -/
def next {α : Type} (answers : Answers → List α) (rest : List α → Answers → Answers) : Exporter α :=
  Program.ask fun w =>
    match answers w with
    | [] => none
    | answer :: others => some (answer, rest others w)

/-- `budget.expired` -/
def expired : Exporter Bool := next Answers.budgets fun rest w => { w with budgets := rest }

def pauseTooLong : Exporter Bool := next Answers.pauses fun rest w => { w with pauses := rest }

def reply : Exporter CallReply := next Answers.replies fun rest w => { w with replies := rest }

def fate : Exporter (Transaction.Fate Unit) :=
  next Answers.files fun rest w => { w with files := rest }

def clock : Exporter Int := next Answers.clocks fun rest w => { w with clocks := rest }

def reading : Exporter Reading := next Answers.readings fun rest w => { w with readings := rest }

def makeClient : Exporter Bool := next Answers.clients fun rest w => { w with clients := rest }

def checkBudget : Exporter Unit := do
  if ← expired then raise .publish else pure ()

/-- A call of the ingestion service, and what is known when it returns. -/
def call (note : ExportWorld → ExportWorld) : Exporter Int := do
  match ← reply with
  | .returned failed => do
    modify note
    return failed
  | .raised e => raise e

/-- A change of the file system; an error may be reported of one that took effect. -/
def changeFile (e : ExportError) (change : ExportWorld → ExportWorld) : Exporter Unit := do
  match ← fate with
  | .commits => modify change
  | .fails _ => raise e
  | .uncertain _ => do
    modify change
    raise e

/-! ## The checkpoint store -/

def changeMemory (f : CheckpointState → CheckpointState) : Exporter Unit :=
  modify fun w => { w with memory := f w.memory }

def recordGap (stream : Stream) (reason : String) (details : JsonObject) : Exporter Unit := do
  let now ← clock
  changeMemory (.recordGap stream ⟨now, reason, details⟩)

def advance (stream : Stream) (cursor : Option String) : Exporter Unit := do
  let now ← clock
  changeMemory (.advance stream cursor now)

/-- `save`: the new file replaces the old one as a whole. -/
def save (commits : List MetricsCommit) : Exporter Unit :=
  changeFile .os fun w =>
    { w with disk := w.memory, committed := w.committed ++ commits }

/-! ## Retries -/

def isTransient (status : Option Nat) : Bool :=
  status ∈ [408, 429, 500, 502, 503, 504].map some

/-- The rest of the loop after a failed attempt. -/
def retry {α : Type} (attemptsLeft : Nat) (again : Exporter α) : Exporter α :=
  if attemptsLeft = 0 then raise .publish
  else do
    if ← pauseTooLong then raise .publish else again

/-- `with_retry`, with the number of attempts that are left. -/
def withRetry {α : Type} (operation : Exporter α) : Nat → Exporter α
  | 0 => raise .publish
  | attemptsLeft + 1 => do
    checkBudget
    match ← operation.attempt with
    | .ok a => pure a
    | .error (.service status) =>
      if isTransient status then retry attemptsLeft (withRetry operation attemptsLeft)
      else raise .publish
    | .error .request | .error .os => retry attemptsLeft (withRetry operation attemptsLeft)
    | .error e => raise e

/-- `chunked`; a step of zero is an error of `range`, and a negative one gives no chunk. -/
def chunked {α : Type} (values : List α) (size : Int) : Exporter (List (List α)) :=
  if size = 0 then raise (.python .valueError)
  else if size < 0 then pure []
  else pure (values.toChunks size.toNat)

end Exporter

end Btfind
