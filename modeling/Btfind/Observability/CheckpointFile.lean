import Btfind.Library.Transition
import Btfind.Library.Volume
import Btfind.Observability.Checkpoint

/-!
# The checkpoint file

How the checkpoint store loads `state.json` and replaces it, system call by system call. A process
is killed when its time is over, at whatever point it is, and the power may fail.
-/

namespace Btfind

open Durable Transition

/-! ## Dictionaries -/

/-- Equal as Python values: a dictionary has no order. -/
inductive Json.Same : Json → Json → Prop
  | null : Same .null .null
  | bool (b : Bool) : Same (.bool b) (.bool b)
  | int (n : Int) : Same (.int n) (.int n)
  | float (text : String) : Same (.float text) (.float text)
  | str (s : String) : Same (.str s) (.str s)
  | arr {xs ys : List Json} : List.Forall₂ Same xs ys → Same (.arr xs) (.arr ys)
  | obj {a b : JsonObject} : (∀ k, Option.Rel Same (a.lookup k) (b.lookup k)) →
      Same (.obj a) (.obj b)

/-- `d[key] = value` -/
def dictSet (key : String) (value : Json) : JsonObject → JsonObject
  | [] => [(key, value)]
  | (k, v) :: d => if k = key then (key, value) :: d else (k, v) :: dictSet key value d

/-- `d.update(new)` -/
def dictUpdate (d new : JsonObject) : JsonObject :=
  new.foldr (fun field d => dictSet field.1 field.2 d) d

/-! ## Loading -/

def defaultStream : JsonObject :=
  [("cursor", .null), ("initialized", .bool false), ("last_success_unix", .null), ("gaps", .arr [])]

/-- `default_state`, as a dictionary. -/
def defaultState : JsonObject :=
  [("version", .int 1), ("logs", .obj defaultStream),
    ("metrics", .obj (defaultStream ++ [("baselines", .obj [])]))]

/-- One turn of the loop in `_merge_defaults`. -/
def mergeStream (loaded state : JsonObject) (stream : String) : JsonObject :=
  match loaded.lookup stream, state.lookup stream with
  | some (.obj value), some (.obj fields) => dictSet stream (.obj (dictUpdate fields value)) state
  | _, _ => state

/-- `_merge_defaults` -/
def mergeDefaults : Json → JsonObject
  | .obj loaded => ["logs", "metrics"].foldl (mergeStream loaded) defaultState
  | _ => defaultState

/-- The version is 1; `True` is. -/
def isStateVersion : Option Json → Bool
  | some (.int n) => n = 1
  | some (.bool b) => b
  | _ => false

inductive Loading
  | loaded (state : JsonObject)
  /-- The file is moved away, and the default state is loaded. -/
  | corrupt
  | raised

/-- `_load`, with the text of the file if there is one. -/
def load (py : Python) : Option String → Loading
  | none => .loaded defaultState
  | some text =>
    match py.loads text with
    | .error .jsonDecodeError => .corrupt
    | .error _ => .raised
    | .ok (.obj fields) =>
      if isStateVersion (fields.lookup "version") then .loaded (mergeDefaults (.obj fields))
      else .corrupt
    | .ok _ => .corrupt

/-! ## The state as a dictionary -/

def Gap.toJson (gap : Gap) : Json :=
  .obj (dictUpdate [("at_unix", .int gap.atUnix), ("reason", .str gap.reason)] gap.details)

def StreamState.fields (s : StreamState) : JsonObject :=
  [("cursor", s.cursor.elim .null .str), ("initialized", .bool s.initialized),
    ("last_success_unix", s.lastSuccessUnix.elim .null .int),
    ("gaps", .arr (s.gaps.map Gap.toJson))]

def CrawlerBaseline.toJson (b : CrawlerBaseline) : Json :=
  .obj [("run_id", .str b.runId),
    ("counters", .obj (b.counters.entries.map fun counter => (counter.1, .int counter.2)))]

def CheckpointState.toJson (s : CheckpointState) : Json :=
  .obj [("version", .int 1), ("logs", .obj s.logs.fields),
    ("metrics", .obj (s.metrics.fields ++
      [("baselines", .obj (s.baselines.elim [] fun b => [("crawler", b.toJson)]))]))]

/-! ## Saving -/

/-- `state.json` -/
def statePath : String := "state.json"

def temporaryName (pid nanoseconds : Nat) : String :=
  ".state.json." ++ toString pid ++ "." ++ toString nanoseconds ++ ".tmp"

/-- Where `_move_corrupt` moves the file. -/
def backupName (seconds : Nat) : String := "state.json.corrupt." ++ toString seconds

/-- A call of `save`; the file is written from the state at its beginning. -/
structure SaveCall where
  temporary : String
  descriptor : Nat
  payload : CheckpointState
  /-- What was under `state.json` when the call began. -/
  before : Option String

/-- The last system call of `save` that succeeded; a call leaves through its `finally`. -/
inductive SaveStage
  | opened
  | written
  | synced
  | replaced
  | durable
  | leaving (raised : Bool)
  deriving DecidableEq

/-- The process that holds the lock. -/
structure ExporterProcess where
  memory : CheckpointState
  saving : Option (SaveCall × SaveStage) := none

structure CheckpointWorld where
  volume : Volume String String
  running : Option ExporterProcess := none
  /-- The state of the last call of `save` that returned. -/
  acknowledged : CheckpointState := .default
  /-- The states of the calls since then. -/
  attempts : List CheckpointState := []

inductive CheckpointEvent
  /-- `__enter__` with the lock, and the state that is loaded. -/
  | enter (state : CheckpointState)
  /-- `__enter__` that calls `_move_corrupt`. -/
  | recover (unreadable : Bool) (seconds : Nat) (moved : Bool)
  /-- The exporter's own work. -/
  | change (state : CheckpointState)
  | openTemporary (pid nanoseconds : Nat) (ok : Bool)
  /-- Some of the text reaches the file. -/
  | writePart (text : String)
  | write (ok : Bool)
  | sync (ok : Bool)
  | replace (ok : Bool)
  | syncDirectory (ok : Bool)
  | chmod (ok : Bool)
  | unlink (ok : Bool)
  | exit
  | kill
  | powerLoss

namespace CheckpointWorld

/-- The call of `save` goes on. -/
def proceed (w : CheckpointWorld) (volume : Volume String String) (memory : CheckpointState)
    (call : SaveCall) (stage : SaveStage) : CheckpointWorld :=
  { w with volume, running := some ⟨memory, some (call, stage)⟩ }

/-- A system call that may fail, between two stages. -/
def systemCall (w : CheckpointWorld) (stage after : SaveStage) (ok : Bool)
    (effect : SaveCall → Volume String String) : Option CheckpointWorld :=
  match w.running with
  | some ⟨memory, some (call, current)⟩ =>
    if current ≠ stage then none
    else if ok then some (w.proceed (effect call) memory call after)
    else some (w.proceed w.volume memory call (.leaving true))
  | _ => none

/-- `save` raises or returns. -/
def finish (w : CheckpointWorld) (volume : Volume String String) (memory : CheckpointState)
    (call : SaveCall) (raised : Bool) : CheckpointWorld :=
  if raised then { w with volume, running := some ⟨memory, none⟩ }
  else
    { volume, running := some ⟨memory, none⟩, acknowledged := call.payload, attempts := [] }

/-- The end of `finally`; a file that is not there any more raises nothing. -/
def leave (w : CheckpointWorld) (ok : Bool) : Option CheckpointWorld :=
  match w.running with
  | some ⟨memory, some (call, .leaving raised)⟩ =>
    if w.volume.entry call.temporary = none then some (w.finish w.volume memory call raised)
    else if ok then some (w.finish (w.volume.unlink call.temporary) memory call raised)
    else some (w.finish w.volume memory call true)
  | _ => none

/-- The steps of the process that holds the lock. -/
def next (dumpsSorted : Json → String) (w : CheckpointWorld) :
    CheckpointEvent → Option CheckpointWorld
  | .change state =>
    match w.running with
    | some ⟨_, none⟩ => some { w with running := some ⟨state, none⟩ }
    | _ => none
  | .openTemporary pid nanoseconds ok =>
    match w.running with
    | some ⟨memory, none⟩ =>
      let temporary := temporaryName pid nanoseconds
      if ok ∧ w.volume.entry temporary = none then
        let call := ⟨temporary, w.volume.next, memory, w.volume.read statePath⟩
        some { w with
          volume := w.volume.create temporary ""
          running := some ⟨memory, some (call, .opened)⟩
          attempts := w.attempts ++ [memory] }
      else some w
    | _ => none
  | .writePart text =>
    w.systemCall .opened .opened true fun call => w.volume.write call.descriptor text
  | .write ok =>
    w.systemCall .opened .written ok fun call =>
      w.volume.write call.descriptor (dumpsSorted call.payload.toJson)
  | .sync ok => w.systemCall .written .synced ok fun call => w.volume.sync call.descriptor
  | .replace ok =>
    w.systemCall .synced .replaced ok fun call => w.volume.rename call.temporary statePath
  | .syncDirectory ok => w.systemCall .replaced .durable ok fun _ => w.volume.syncDirectory
  | .chmod ok => w.systemCall .durable (.leaving false) ok fun _ => w.volume
  | .unlink ok => w.leave ok
  | .exit =>
    match w.running with
    | some ⟨_, none⟩ => some { w with running := none }
    | _ => none
  | .kill => if w.running.isSome then some { w with running := none } else none
  | _ => none

end CheckpointWorld

/-- What happens to the file; the lock keeps a second process out. -/
inductive CheckpointStep (py : Python) (dumpsSorted : Json → String) :
    CheckpointWorld → CheckpointEvent → CheckpointWorld → Prop
  | enter {w : CheckpointWorld} {fields : JsonObject} (state : CheckpointState) :
      w.running = none → load py (w.volume.read statePath) = .loaded fields →
      Json.Same (.obj fields) state.toJson →
      CheckpointStep py dumpsSorted w (.enter state) { w with running := some ⟨state, none⟩ }
  | recover {w : CheckpointWorld} (unreadable : Bool) (seconds : Nat) (moved : Bool) :
      w.running = none → unreadable = true ∨ load py (w.volume.read statePath) = .corrupt →
      CheckpointStep py dumpsSorted w (.recover unreadable seconds moved)
        { w with
          volume := if moved then w.volume.rename statePath (backupName seconds) else w.volume
          running := some ⟨.default, none⟩ }
  | next {w w' : CheckpointWorld} {e : CheckpointEvent} : w.next dumpsSorted e = some w' →
      CheckpointStep py dumpsSorted w e w'
  | powerLoss {w : CheckpointWorld} {v : Volume String String} : w.volume.PowerLoss v →
      CheckpointStep py dumpsSorted w .powerLoss { w with volume := v, running := none }

end Btfind
