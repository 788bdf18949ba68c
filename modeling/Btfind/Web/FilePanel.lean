import Btfind.Web.Dashboard
import Btfind.Web.Torrents

/-!
# The file panels of the dashboard

`loadDetail` and `loadFiles`: a card that is expanded has a detail object, whose summary and files
are loaded, filtered and extended by calls that go on in any order. A call holds on to the object
that it was made for, also when the map has another one for the hash by then.
-/

namespace Btfind

open Transition

/-- `FILE_LIMIT` -/
def fileLimit : Nat := 100

/-- A detail object, with the hash under which it is put into the map. -/
structure Detail where
  infoHash : String
  loading : Bool := true
  error : Option String := none
  summary : Option TorrentDetail := none
  files : List Web.FileEntry := []
  fileOffset : Nat := 0
  fileQuery : String := ""
  filesLoading : Bool := false
  filesError : Option String := none
  hasMoreFiles : Bool := false
  fileController : Option Nat := none

/-- A call of `loadDetail` that awaits its response; its object is its key. -/
structure DetailTask where
  infoHash : String
  stage : SearchStage := .fetching

/-- What a call of `loadFiles` asks for, and the object that it is made for. -/
structure FileRequest where
  detail : Nat
  infoHash : String
  reset : Bool
  params : FileSearchQuery

/-- A call of `loadFiles` that awaits its response; its controller is its key. -/
structure FileTask where
  request : FileRequest
  stage : SearchStage := .fetching
  aborted : Bool := false

/-- `state.details`, the detail objects, and the calls that go on. -/
structure DetailPanels where
  details : KeyedTable String Nat := ∅
  objects : KeyedTable Nat Detail := ∅
  detailTasks : KeyedTable Nat DetailTask := ∅
  fileTasks : KeyedTable Nat FileTask := ∅
  nextId : Nat := 0

inductive PanelEvent
  /-- A card is expanded, or `Retry` is clicked for its detail. -/
  | loadDetail (infoHash : String) (force : Bool)
  | detailResponse (detail : Nat) (ok : Bool) (statusText : String)
  | detailBody (detail : Nat) (data : TorrentDetail)
  | detailErrorBody (detail : Nat) (error : Option String)
  | detailReject (detail : Nat) (message : String)
  /-- `Show more` or `Retry` is clicked for the files. -/
  | loadFiles (infoHash : String)
  /-- The filter of the files is submitted, trimmed. -/
  | filter (infoHash query : String)
  | fileResponse (controller : Nat) (ok : Bool) (statusText : String)
  | fileBody (controller : Nat) (data : FileSearchResponse)
  | fileErrorBody (controller : Nat) (error : Option String)
  | fileReject (controller : Nat) (failure : FetchFailure)
  | refresh

namespace DetailPanels

/-- `detail.fileController.abort()`, when there is one. -/
def abortFiles (s : DetailPanels) (detail : Nat) : DetailPanels :=
  match (s.objects.lookup detail).bind (·.fileController) with
  | none => s
  | some controller =>
    { s with fileTasks := s.fileTasks.adjust controller fun task => { task with aborted := true } }

/-- The query that `URLSearchParams` gets. -/
def fileParams (detail : Detail) : FileSearchQuery where
  q := if detail.fileQuery.isEmpty then none else some detail.fileQuery
  limit := fileLimit
  offset := detail.fileOffset

/-- The fields that `loadFiles` sets before it fetches. -/
def startFiles (reset : Bool) (controller : Nat) (detail : Detail) : Detail :=
  { detail with
    fileController := some controller
    files := if reset then [] else detail.files
    fileOffset := if reset then 0 else detail.fileOffset
    hasMoreFiles := if reset then false else detail.hasMoreFiles
    filesLoading := true
    filesError := none }

/-- `loadFiles` up to its first `await`. -/
def loadFiles (s : DetailPanels) (infoHash : String) (reset : Bool) : DetailPanels :=
  match s.details.lookup infoHash with
  | none => s
  | some k =>
    match s.objects.lookup k with
    | none => s
    | some detail =>
      if detail.summary.isNone then s
      else
        let s := s.abortFiles k
        let detail := startFiles reset s.nextId detail
        { s with
          objects := s.objects.insert k detail
          fileTasks := s.fileTasks.insert s.nextId
            { request := ⟨k, infoHash, reset, fileParams detail⟩ }
          nextId := s.nextId + 1 }

/-- `loadDetail` up to its first `await`. -/
def loadDetail (s : DetailPanels) (infoHash : String) (force : Bool) : DetailPanels :=
  let existing := (s.details.lookup infoHash).bind s.objects.lookup
  if existing.any fun detail => !force && (detail.loading || detail.summary.isSome) then s
  else
    let s := (s.details.lookup infoHash).elim s s.abortFiles
    { s with
      details := s.details.insert infoHash s.nextId
      objects := s.objects.insert s.nextId { infoHash }
      detailTasks := s.detailTasks.insert s.nextId { infoHash }
      nextId := s.nextId + 1 }

/-- The end of a failed `loadDetail`. -/
def failDetail (s : DetailPanels) (detail : Nat) (message : String) : DetailPanels :=
  { s with
    objects := s.objects.adjust detail fun d =>
      { d with loading := false, error := some ("Could not load torrent details: " ++ message) }
    detailTasks := s.detailTasks.erase detail }

/-- The end of a call of `loadFiles`: its `finally`, after a change of its object. -/
def finishFiles (s : DetailPanels) (controller detail : Nat) (change : Detail → Detail) :
    DetailPanels :=
  { s with
    objects := s.objects.adjust detail fun d =>
      let d := change d
      if d.fileController = some controller then { d with filesLoading := false } else d
    fileTasks := s.fileTasks.erase controller }

/-- What `loadFiles` does with the data of a response, unless another call is current. -/
def applyFiles (controller : Nat) (reset : Bool) (data : FileSearchResponse) (detail : Detail) :
    Detail :=
  if detail.fileController = some controller then
    { detail with
      files := if reset then data.files else detail.files ++ data.files
      fileOffset := data.offset + data.files.length
      hasMoreFiles := data.hasNext }
  else detail

/-- What `loadFiles` does with an error, whichever call is current. -/
def failFiles (message : String) (detail : Detail) : Detail :=
  { detail with filesError := some ("Could not load files: " ++ message) }

/-- The handler of `refresh`. -/
def refresh (s : DetailPanels) : DetailPanels :=
  let s := s.details.entries.foldl (fun s e => s.abortFiles e.2) s
  { s with details := ∅ }

def next (s : DetailPanels) : PanelEvent → Option DetailPanels
  | .loadDetail infoHash force => some (s.loadDetail infoHash force)
  | .detailResponse detail ok statusText =>
    match s.detailTasks.lookup detail with
    | some task =>
      if task.stage = .fetching then
        let stage := if ok then .reading else .readingError statusText
        some { s with detailTasks := s.detailTasks.insert detail { task with stage } }
      else none
    | none => none
  | .detailBody detail data =>
    match s.detailTasks.lookup detail with
    | some task =>
      if task.stage = .reading then
        let s := { s with
          objects := s.objects.adjust detail fun d =>
            { d with summary := some data, loading := false }
          detailTasks := s.detailTasks.erase detail }
        some (s.loadFiles task.infoHash true)
      else none
    | none => none
  | .detailErrorBody detail error =>
    match s.detailTasks.lookup detail with
    | some task =>
      match task.stage with
      | .readingError statusText => some (s.failDetail detail (error.getD statusText))
      | _ => none
    | none => none
  | .detailReject detail message =>
    match s.detailTasks.lookup detail with
    | some task =>
      match task.stage with
      | .readingError statusText => some (s.failDetail detail statusText)
      | _ => some (s.failDetail detail message)
    | none => none
  | .loadFiles infoHash => some (s.loadFiles infoHash false)
  | .filter infoHash query =>
    match s.details.lookup infoHash with
    | some k =>
      let s := { s with objects := s.objects.adjust k fun d => { d with fileQuery := query } }
      some (s.loadFiles infoHash true)
    | none => none
  | .fileResponse controller ok statusText =>
    match s.fileTasks.lookup controller with
    | some task =>
      if task.stage = .fetching then
        let stage := if ok then .reading else .readingError statusText
        some { s with fileTasks := s.fileTasks.insert controller { task with stage } }
      else none
    | none => none
  | .fileBody controller data =>
    match s.fileTasks.lookup controller with
    | some task =>
      if task.stage = .reading then
        some (s.finishFiles controller task.request.detail
          (applyFiles controller task.request.reset data))
      else none
    | none => none
  | .fileErrorBody controller error =>
    match s.fileTasks.lookup controller with
    | some task =>
      match task.stage with
      | .readingError statusText =>
        some (s.finishFiles controller task.request.detail (failFiles (error.getD statusText)))
      | _ => none
    | none => none
  | .fileReject controller failure =>
    match s.fileTasks.lookup controller with
    | some task =>
      match task.stage, failure with
      | .readingError statusText, _ =>
        some (s.finishFiles controller task.request.detail (failFiles statusText))
      | _, .abortError =>
        if task.aborted then some (s.finishFiles controller task.request.detail id) else none
      | _, .other message =>
        some (s.finishFiles controller task.request.detail (failFiles message))
    | none => none
  | .refresh => some s.refresh

end DetailPanels

end Btfind
