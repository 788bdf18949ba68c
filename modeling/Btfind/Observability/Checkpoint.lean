import Btfind.Library.KeyedTable
import Btfind.Observability.Journal

/-!
# The checkpoint

The state of the exporter: a cursor for each stream, what was skipped, and the counter values
that the next metrics are compared with.
-/

namespace Btfind

inductive Stream
  | logs
  | metrics
  deriving DecidableEq

structure Gap where
  atUnix : Int
  reason : String
  details : JsonObject

structure StreamState where
  cursor : Option String
  initialized : Bool
  lastSuccessUnix : Option Int
  gaps : List Gap

/-- `baselines["crawler"]` -/
structure CrawlerBaseline where
  runId : String
  counters : KeyedTable String Int

/-- The baselines; nothing is stored before the first status record. -/
abbrev Baselines := Option CrawlerBaseline

structure CheckpointState where
  logs : StreamState
  metrics : StreamState
  baselines : Baselines

def StreamState.default : StreamState := ⟨none, false, none, []⟩

namespace CheckpointState

/-- `default_state` -/
def default : CheckpointState := ⟨.default, .default, none⟩

def stream (s : CheckpointState) : Stream → StreamState
  | .logs => s.logs
  | .metrics => s.metrics

def adjustStream (stream : Stream) (f : StreamState → StreamState) (s : CheckpointState) :
    CheckpointState :=
  match stream with
  | .logs => { s with logs := f s.logs }
  | .metrics => { s with metrics := f s.metrics }

def maxGaps : Nat := 10

/-- `record_gap`: only the last gaps are kept. -/
def recordGap (stream : Stream) (gap : Gap) : CheckpointState → CheckpointState :=
  adjustStream stream fun state =>
    { state with gaps := (state.gaps ++ [gap]).drop (state.gaps.length + 1 - maxGaps) }

def advance (stream : Stream) (cursor : Option String) (nowUnix : Int) :
    CheckpointState → CheckpointState :=
  adjustStream stream fun state =>
    { state with cursor := cursor, initialized := true, lastSuccessUnix := some nowUnix }

/-- What an invalid cursor does to its stream. -/
def resetCursor (stream : Stream) : CheckpointState → CheckpointState :=
  adjustStream stream fun state => { state with cursor := none, initialized := false }

variable {s : CheckpointState} {stream other : Stream} {gap : Gap} {cursor : Option String}
  {nowUnix : Int} {f : StreamState → StreamState}

@[simp] theorem baselines_adjustStream : (s.adjustStream stream f).baselines = s.baselines := by
  cases stream <;> rfl

@[simp] theorem stream_adjustStream : (s.adjustStream stream f).stream stream =
    f (s.stream stream) := by
  cases stream <;> rfl

theorem stream_adjustStream_of_ne (h : other ≠ stream) :
    (s.adjustStream stream f).stream other = s.stream other := by
  cases stream with
  | logs =>
    cases other with
    | logs => exact absurd rfl h
    | metrics => rfl
  | metrics =>
    cases other with
    | logs => rfl
    | metrics => exact absurd rfl h

@[simp] theorem baselines_recordGap : (s.recordGap stream gap).baselines = s.baselines :=
  baselines_adjustStream

@[simp] theorem baselines_resetCursor : (s.resetCursor stream).baselines = s.baselines :=
  baselines_adjustStream

@[simp] theorem baselines_advance :
    (s.advance stream cursor nowUnix).baselines = s.baselines :=
  baselines_adjustStream

/-- A gap moves no cursor. -/
@[simp] theorem cursor_recordGap :
    ((s.recordGap stream gap).stream other).cursor = (s.stream other).cursor := by
  by_cases h : other = stream
  · rw [h, recordGap, stream_adjustStream]
  · rw [recordGap, stream_adjustStream_of_ne h]

@[simp] theorem cursor_resetCursor : ((s.resetCursor stream).stream stream).cursor = none := by
  rw [resetCursor, stream_adjustStream]

end CheckpointState

end Btfind
