import Btfind.Library.Transition
import Btfind.Web.Search

/-!
# Searching in the dashboard

`search` of the dashboard: every call aborts the one before it and awaits a response, an error text
or a failure, and the calls go on in any order. An abort reaches a call late or not at all, since a
response may be there already, so each call compares its controller with the current one.
-/

namespace Btfind

open Transition

/-! ## Requests -/

/-- The controls as they are read, with the sizes parsed or the message of their error. -/
structure Controls where
  query : String
  sort : String
  limit : Nat
  minSize : Except String (Option Nat)
  maxSize : Except String (Option Nat)

def maximumTooSmall : String := "Maximum size must be greater than or equal to minimum size."

/-- `buildSearchRequest`, on the trimmed query; `updateSortAvailability` takes the rank away from a
query that is too short for it. -/
def buildSearchRequest (controls : Controls) (offset : Nat) : Except String SearchQuery :=
  match controls.minSize, controls.maxSize with
  | .error message, _ => .error message
  | _, .error message => .error message
  | .ok minSize, .ok maxSize =>
    if minSize.any fun lo => maxSize.any fun hi => decide (hi < lo) then .error maximumTooSmall
    else
      let sort :=
        if controls.query.length < 2 ∧ controls.sort = "rank" then "last_seen" else controls.sort
      .ok {
        q := if controls.query.isEmpty then none else some controls.query
        limit := controls.limit
        offset
        sort := some sort
        completeOnly := some true
        minSize := minSize.map Int.ofNat
        maxSize := maxSize.map Int.ofNat }

/-! ## State -/

/-- What a call of `search` awaits. -/
inductive SearchStage
  | fetching
  | reading
  | readingError (statusText : String)
  deriving DecidableEq

/-- A call of `search`; its controller is its key. -/
structure SearchTask where
  request : SearchQuery
  stage : SearchStage := .fetching
  aborted : Bool := false

/-- `els.status` -/
structure StatusLine where
  isError : Bool := false
  text : String := ""
  deriving DecidableEq

/-- The part of `state` that `search` reads or writes, the status line and the calls that go on. -/
structure Dashboard where
  results : List SearchResult := []
  limit : Nat := 50
  offset : Nat := 0
  hasNext : Bool := false
  effectiveSort : String := "last_seen"
  expandedHash : Option String := none
  searchController : Option Nat := none
  searchBusy : Bool := false
  status : StatusLine := {}
  tasks : KeyedTable Nat SearchTask := ∅
  nextController : Nat := 0

/-- The handlers that search. -/
inductive SearchTrigger
  | load (offset : Nat)
  | submit
  | refresh
  | clearFilters
  | clearChip
  | prevPage
  | nextPage
  | popstate (offset : Nat)

inductive FetchFailure
  | abortError
  | other (message : String)

inductive DashboardEvent
  | search (trigger : SearchTrigger) (controls : Controls)
  /-- `fetch` resolves. -/
  | response (controller : Nat) (ok : Bool) (statusText : String)
  /-- `resp.json()` resolves for a good response. -/
  | body (controller : Nat) (data : SearchResponse)
  /-- `errorMessage` resolves; a body without an error text leaves the status text. -/
  | errorBody (controller : Nat) (error : Option String)
  /-- The promise that the call awaits rejects. -/
  | reject (controller : Nat) (failure : FetchFailure)
  /-- A title is clicked. -/
  | toggle (infoHash : String)

/-! ## Steps -/

/-- `state.searchController.abort()` -/
def Dashboard.abortSearch (s : Dashboard) : Dashboard :=
  match s.searchController with
  | none => s
  | some controller =>
    { s with tasks := s.tasks.adjust controller fun task => { task with aborted := true } }

/-- What a handler does before it calls `search`; `none` when it returns. -/
def Dashboard.prepare (s : Dashboard) : SearchTrigger → Option Dashboard
  | .load offset => some { s with offset }
  | .submit => some { s with offset := 0, expandedHash := none }
  | .refresh => some { s with expandedHash := none }
  | .clearFilters => some { s with offset := 0, expandedHash := none }
  | .clearChip => some { s with offset := 0 }
  | .prevPage => some { s with offset := s.offset - s.limit, expandedHash := none }
  | .nextPage =>
    if s.hasNext then some { s with offset := s.offset + s.limit, expandedHash := none } else none
  | .popstate offset => some { s.abortSearch with offset, expandedHash := none }

/-- `search` up to its first `await`. -/
def Dashboard.search (s : Dashboard) (controls : Controls) : Dashboard :=
  match buildSearchRequest controls s.offset with
  | .error message => { s with status := ⟨true, message⟩ }
  | .ok request =>
    let s := s.abortSearch
    { s with
      searchController := some s.nextController
      searchBusy := true
      status := {}
      tasks := s.tasks.insert s.nextController { request }
      nextController := s.nextController + 1 }

/-- The end of a call: its `finally`. -/
def Dashboard.finish (s : Dashboard) (controller : Nat) : Dashboard :=
  { s with
    tasks := s.tasks.erase controller
    searchBusy := if s.searchController = some controller then false else s.searchBusy }

/-- `resultStatus` -/
def resultStatus (formatNumber : Nat → String) (data : SearchResponse) : String :=
  if data.results = [] then "No complete torrents found."
  else
    let label :=
      if data.effectiveSort = "rank" then "relevance"
      else if data.effectiveSort = "last_seen" then "recently seen"
      else if data.effectiveSort = "total_size" then "largest"
      else data.effectiveSort
    "Page " ++ formatNumber (data.offset / data.limit + 1) ++ ", sorted by " ++ label ++ "."

/-- What `search` does with the data of a response. -/
def Dashboard.apply (formatNumber : Nat → String) (s : Dashboard) (data : SearchResponse) :
    Dashboard :=
  { s with
    results := data.results
    limit := data.limit
    offset := data.offset
    hasNext := data.hasNext
    effectiveSort := data.effectiveSort
    expandedHash := s.expandedHash.filter fun h => data.results.any fun r => r.infoHash == h
    status := ⟨false, resultStatus formatNumber data⟩ }

/-- `showError` of a failed search. -/
def Dashboard.fail (s : Dashboard) (message : String) : Dashboard :=
  { s with status := ⟨true, "Search failed: " ++ message⟩ }

def Dashboard.next (formatNumber : Nat → String) (s : Dashboard) :
    DashboardEvent → Option Dashboard
  | .search trigger controls => (s.prepare trigger).map fun s => s.search controls
  | .response controller ok statusText =>
    match s.tasks.lookup controller with
    | some task =>
      if task.stage = .fetching then
        let stage := if ok then .reading else .readingError statusText
        some { s with tasks := s.tasks.insert controller { task with stage } }
      else none
    | none => none
  | .body controller data =>
    match s.tasks.lookup controller with
    | some task =>
      if task.stage = .reading then
        some ((if s.searchController = some controller then s.apply formatNumber data
          else s).finish controller)
      else none
    | none => none
  | .errorBody controller error =>
    match s.tasks.lookup controller with
    | some task =>
      match task.stage with
      | .readingError statusText => some ((s.fail (error.getD statusText)).finish controller)
      | _ => none
    | none => none
  | .reject controller failure =>
    match s.tasks.lookup controller with
    | some task =>
      match task.stage, failure with
      -- `errorMessage` catches whatever the body rejects with.
      | .readingError statusText, _ => some ((s.fail statusText).finish controller)
      | _, .abortError => if task.aborted then some (s.finish controller) else none
      | _, .other message => some ((s.fail message).finish controller)
    | none => none
  | .toggle infoHash =>
    if s.results.any fun r => r.infoHash == infoHash then
      some { s with
        expandedHash := if s.expandedHash = some infoHash then none else some infoHash }
    else none

end Btfind
