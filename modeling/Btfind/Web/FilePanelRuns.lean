import Btfind.Web.FilePanel

/-!
# The file panels show the files

In every order of clicks, filters, responses and failures the files of a panel are a prefix of what
the server lists for its filter, none left out and none twice, and a panel that waits for nothing
and has no error offers more files exactly when there are more. What carries it: the current call of
an object asks for what comes after its files, and a call that is not current changes none of them.
-/

namespace Btfind

open Transition OffsetPages

/-- The call that an object waits for. -/
def DetailPanels.call (s : DetailPanels) (detail : Detail) : Option FileTask :=
  detail.fileController.bind s.fileTasks.lookup

/-- A response has the page of a list that a query asks for. -/
structure AnswersPage (all : List Web.FileEntry) (params : FileSearchQuery)
    (data : FileSearchResponse) : Prop where
  files : data.files = (all.drop params.offset).take params.limit
  offset : data.offset = params.offset
  hasNext : data.hasNext = decide (params.offset + params.limit < all.length)

/-- The files of an object and the request that it waits for, over what a server lists for a hash
and a query. -/
structure ListedOk (list : String → String → List Web.FileEntry) (request : Option FileRequest)
    (k : Nat) (d : Detail) : Prop where
  files : d.files <+: list d.infoHash d.fileQuery
  offset : d.fileOffset = d.files.length
  started : d.fileController = none → d.files = []
  summary : d.summary = none → d.fileController = none
  asked : ∀ r, request = some r →
    r = ⟨k, d.infoHash, r.reset, DetailPanels.fileParams d⟩ ∧ (r.reset = true → d.files = [])
  loading : d.filesLoading = request.isSome

/-- What an object has besides while it is in the map. -/
structure MappedOk (list : String → String → List Web.FileEntry) (call : Option FileTask)
    (d : Detail) : Prop where
  live : ∀ task, call = some task → task.aborted = false
  complete : call = none → d.fileController ≠ none → d.filesError = none →
    d.hasMoreFiles = decide (d.files.length < (list d.infoHash d.fileQuery).length)

/-- The summary of an object is loading as long as its call goes on. -/
structure SummaryOk (task : Option DetailTask) (d : Detail) : Prop where
  loading : d.loading = task.isSome
  ended : task = none → d.summary ≠ none ∨ d.error ≠ none
  infoHash : ∀ t, task = some t → t.infoHash = d.infoHash

structure ObjectOk (list : String → String → List Web.FileEntry) (s : DetailPanels) (k : Nat)
    (d : Detail) : Prop where
  known : k < s.nextId
  controller : ∀ c, d.fileController = some c → c < s.nextId
  files : ListedOk list ((s.call d).map (·.request)) k d
  summary : SummaryOk (s.detailTasks.lookup k) d

structure PanelsOk (list : String → String → List Web.FileEntry) (s : DetailPanels) : Prop where
  mapped : ∀ h k, s.details.lookup h = some k →
    ∃ d, s.objects.lookup k = some d ∧ d.infoHash = h ∧ MappedOk list (s.call d) d
  object : ∀ k d, s.objects.lookup k = some d → ObjectOk list s k d
  fileTask : ∀ c task, s.fileTasks.lookup c = some task → c < s.nextId

section Frames

variable {list : String → String → List Web.FileEntry} {s t : DetailPanels} {k : Nat} {d : Detail}
  {c : Nat} {task : FileTask}

/-- A call belongs to the object that waits for it. -/
theorem PanelsOk.owner (h : PanelsOk list s) (hk : s.objects.lookup k = some d)
    (hcurrent : d.fileController = some c) (htask : s.fileTasks.lookup c = some task) :
    task.request.detail = k := by
  have hcall : (s.call d).map (·.request) = some task.request := by
    rw [DetailPanels.call, hcurrent, Option.bind_some, htask, Option.map_some]
  rw [((h.object k d hk).files.asked _ hcall).1]

/-- One object is changed or new, the calls of the others ask for what they did, and those that stay
in the map are the same. -/
theorem PanelsOk.update (h : PanelsOk list s) (k : Nat)
    (hobjects : ∀ k', k' ≠ k → t.objects.lookup k' = s.objects.lookup k')
    (hrequests : ∀ k' d, k' ≠ k → s.objects.lookup k' = some d →
      (t.call d).map (·.request) = (s.call d).map (·.request))
    (hsummaries : ∀ k', k' ≠ k → t.detailTasks.lookup k' = s.detailTasks.lookup k')
    (hmaps : ∀ hash k', k' ≠ k → t.details.lookup hash = some k' →
      s.details.lookup hash = some k' ∧
        ∀ d, s.objects.lookup k' = some d → t.call d = s.call d)
    (hnext : s.nextId ≤ t.nextId)
    (htasks : ∀ c task, t.fileTasks.lookup c = some task → c < t.nextId)
    (hobject : ∀ d, t.objects.lookup k = some d → ObjectOk list t k d)
    (hmapped : ∀ hash, t.details.lookup hash = some k →
      ∃ d, t.objects.lookup k = some d ∧ d.infoHash = hash ∧ MappedOk list (t.call d) d) :
    PanelsOk list t where
  mapped hash k' hk' := by
    by_cases heq : k' = k
    · subst heq
      exact hmapped hash hk'
    · obtain ⟨hold, hcall⟩ := hmaps hash k' heq hk'
      obtain ⟨d, hd, hhash, hok⟩ := h.mapped hash k' hold
      exact ⟨d, (hobjects k' heq).trans hd, hhash, by rw [hcall d hd]; exact hok⟩
  object k' d hk' := by
    by_cases heq : k' = k
    · subst heq
      exact hobject d hk'
    · rw [hobjects k' heq] at hk'
      obtain ⟨hknown, hcontroller, hfiles, hsummary⟩ := h.object k' d hk'
      refine ⟨hknown.trans_le hnext, fun c hc => (hcontroller c hc).trans_le hnext, ?_, ?_⟩
      · rw [hrequests k' d heq hk']
        exact hfiles
      · rw [hsummaries k' heq]
        exact hsummary
  fileTask := htasks

/-! ## Aborts -/

theorem abortFiles_eq (s : DetailPanels) (k : Nat) :
    s.abortFiles k = { s with fileTasks := (s.abortFiles k).fileTasks } := by
  unfold DetailPanels.abortFiles
  split <;> rfl

/-- Nothing but the calls has changed, and they have the requests that they had. -/
structure SameRequests (s t : DetailPanels) : Prop where
  details : t.details = s.details
  objects : t.objects = s.objects
  detailTasks : t.detailTasks = s.detailTasks
  nextId : t.nextId = s.nextId
  requests : ∀ c,
    (t.fileTasks.lookup c).map (·.request) = (s.fileTasks.lookup c).map (·.request)

theorem SameRequests.refl (s : DetailPanels) : SameRequests s s := ⟨rfl, rfl, rfl, rfl, fun _ => rfl⟩

theorem SameRequests.trans {u : DetailPanels} (h : SameRequests s t) (h' : SameRequests t u) :
    SameRequests s u where
  details := h'.details.trans h.details
  objects := h'.objects.trans h.objects
  detailTasks := h'.detailTasks.trans h.detailTasks
  nextId := h'.nextId.trans h.nextId
  requests c := (h'.requests c).trans (h.requests c)

theorem sameRequests_abortFiles (s : DetailPanels) (k : Nat) : SameRequests s (s.abortFiles k) := by
  unfold DetailPanels.abortFiles
  split
  · exact .refl s
  · refine ⟨rfl, rfl, rfl, rfl, fun c => ?_⟩
    simp only [AList.lookup_adjust]
    split_ifs with hc
    · rw [Option.map_map, hc]
      rfl
    · rfl

theorem SameRequests.call (h : SameRequests s t) (d : Detail) :
    (t.call d).map (·.request) = (s.call d).map (·.request) := by
  unfold DetailPanels.call
  cases d.fileController with
  | none => rfl
  | some c => exact h.requests c

theorem SameRequests.lt (h : SameRequests s t) (hok : PanelsOk list s)
    (htask : t.fileTasks.lookup c = some task) : c < s.nextId := by
  have hrequest := h.requests c
  rw [htask, Option.map_some] at hrequest
  obtain ⟨old, hold, -⟩ := Option.map_eq_some_iff.mp hrequest.symm
  exact hok.fileTask c old hold

/-- An abort reaches the call of its object only. -/
theorem call_abortFiles (h : PanelsOk list s) {k' : Nat} (hne : k' ≠ k)
    (hd : s.objects.lookup k' = some d) : (s.abortFiles k).call d = s.call d := by
  unfold DetailPanels.abortFiles
  cases hcontroller : (s.objects.lookup k).bind (·.fileController) with
  | none => rfl
  | some c =>
    obtain ⟨own, hown, hc⟩ := Option.bind_eq_some_iff.mp hcontroller
    unfold DetailPanels.call
    cases hother : d.fileController with
    | none => rfl
    | some c' =>
      simp only [Option.bind_some, AList.lookup_adjust]
      split_ifs with heq
      · subst heq
        cases htask : s.fileTasks.lookup c' with
        | none => rfl
        | some task =>
          exact absurd ((h.owner hd hother htask).symm.trans (h.owner hown hc htask)) hne
      · rfl

end Frames

/-! ## Calls that start and end -/

/-- A call of `loadFiles` for an object, which is put in the place of the old one. -/
def DetailPanels.started (s : DetailPanels) (k : Nat) (hash : String) (reset : Bool) (d : Detail) :
    DetailPanels :=
  { s.abortFiles k with
    objects := s.objects.insert k d
    fileTasks := (s.abortFiles k).fileTasks.insert s.nextId
      { request := ⟨k, hash, reset, DetailPanels.fileParams d⟩ }
    nextId := s.nextId + 1 }

section Calls

variable {list : String → String → List Web.FileEntry} {s : DetailPanels} {k c : Nat} {d : Detail}
  {hash query : String} {reset : Bool} {task : FileTask}

theorem ListedOk.congr {request : Option FileRequest} {d' : Detail} (h : ListedOk list request k d)
    (hhash : d'.infoHash = d.infoHash) (hquery : d'.fileQuery = d.fileQuery)
    (hfiles : d'.files = d.files) (hoffset : d'.fileOffset = d.fileOffset)
    (hcontroller : d'.fileController = d.fileController)
    (hloading : d'.filesLoading = d.filesLoading)
    (hsummary : d'.summary = none → d.summary = none) : ListedOk list request k d' where
  files := by rw [hfiles, hhash, hquery]; exact h.files
  offset := by rw [hoffset, hfiles]; exact h.offset
  started := by rw [hcontroller, hfiles]; exact h.started
  summary hnone := hcontroller.trans (h.summary (hsummary hnone))
  asked := by
    simp only [DetailPanels.fileParams, hquery, hoffset, hhash, hfiles]
    exact h.asked
  loading := hloading.trans h.loading

/-- A call starts with the files that its object has, or with none. -/
theorem ListedOk.start {request : Option FileRequest} (h : ListedOk list request k d)
    (hsummary : d.summary ≠ none) (hquery : reset = true ∨ query = d.fileQuery) :
    let d' := DetailPanels.startFiles reset c { d with fileQuery := query }
    ListedOk list (some ⟨k, d.infoHash, reset, DetailPanels.fileParams d'⟩) k d' := by
  refine ⟨?_, ?_, fun hnone => by simp [DetailPanels.startFiles] at hnone,
    fun hnone => absurd hnone hsummary, ?_, rfl⟩
  · simp only [DetailPanels.startFiles]
    split_ifs with hreset
    · exact List.nil_prefix
    · rw [hquery.resolve_left hreset]
      exact h.files
  · simp only [DetailPanels.startFiles]
    split_ifs
    · rfl
    · exact h.offset
  · rintro r ⟨rfl⟩
    refine ⟨rfl, fun hreset => ?_⟩
    simp only at hreset
    simp only [DetailPanels.startFiles, hreset, if_true]

theorem PanelsOk.started (h : PanelsOk list s) (hd : s.objects.lookup k = some d)
    (hhash : d.infoHash = hash) (hsummary : d.summary ≠ none)
    (hquery : reset = true ∨ query = d.fileQuery) :
    PanelsOk list (s.started k hash reset
      (DetailPanels.startFiles reset s.nextId { d with fileQuery := query })) := by
  subst hhash
  have hobject := h.object k d hd
  set new := DetailPanels.startFiles reset s.nextId { d with fileQuery := query } with hnew
  have hlookup : (s.started k d.infoHash reset new).objects.lookup k = some new := by
    rw [DetailPanels.started, AList.lookup_insert]
  have hown : (s.started k d.infoHash reset new).call new =
      some { request := ⟨k, d.infoHash, reset, DetailPanels.fileParams new⟩ } := by
    rw [DetailPanels.call, hnew, DetailPanels.startFiles]
    simp only [Option.bind_some, DetailPanels.started, AList.lookup_insert]
  have hcall : ∀ d', (∀ c, d'.fileController = some c → c < s.nextId) →
      (s.started k d.infoHash reset new).call d' = (s.abortFiles k).call d' := by
    intro d' hknown
    unfold DetailPanels.call
    cases hc : d'.fileController with
    | none => rfl
    | some c =>
      simp only [Option.bind_some, DetailPanels.started, AList.lookup_insert_eq]
      have := hknown c hc
      rw [if_neg (by omega)]
  refine h.update k (fun k' hne => ?_) (fun k' d' hne hd' => ?_) (fun k' _ => ?_)
    (fun hash' k' hne hk' => ⟨?_, fun d' hd' => ?_⟩) (Nat.le_succ _) (fun c task htask => ?_)
    (fun d' hd' => ?_) (fun hash' hk' => ?_)
  · simp only [DetailPanels.started, AList.lookup_insert_eq, if_neg hne]
  · rw [hcall d' (h.object k' d' hd').controller, (sameRequests_abortFiles s k).call]
  · rw [DetailPanels.started, abortFiles_eq]
  · rw [DetailPanels.started, abortFiles_eq] at hk'
    exact hk'
  · rw [hcall d' (h.object k' d' hd').controller, call_abortFiles h hne hd']
  · simp only [DetailPanels.started, AList.lookup_insert_eq] at htask ⊢
    split_ifs at htask with hc
    · omega
    · have := (sameRequests_abortFiles s k).lt h htask
      omega
  · obtain rfl := Option.some.inj (hlookup.symm.trans hd')
    refine ⟨hobject.known.trans (Nat.lt_succ_self _), fun c hc => ?_, ?_, ?_⟩
    · obtain rfl : s.nextId = c := Option.some.inj hc
      exact Nat.lt_succ_self _
    · rw [hown]
      exact hobject.files.start hsummary hquery
    · have htasks : (s.started k d.infoHash reset new).detailTasks = s.detailTasks := by
        rw [DetailPanels.started, abortFiles_eq]
      rw [htasks]
      exact ⟨hobject.summary.loading, hobject.summary.ended, hobject.summary.infoHash⟩
  · rw [DetailPanels.started, abortFiles_eq] at hk'
    obtain ⟨d', hd', hhash, -⟩ := h.mapped hash' k hk'
    obtain rfl := Option.some.inj (hd.symm.trans hd')
    refine ⟨new, hlookup, hhash, ?_⟩
    rw [hown]
    exact ⟨fun task htask => by cases htask; rfl, fun hnone => by cases hnone⟩

/-- `loadFiles` returns at once, or it starts a call for the object of the hash. -/
theorem loadFiles_cases (s : DetailPanels) (hash : String) (reset : Bool) :
    s.loadFiles hash reset = s ∨
    ∃ k d, s.details.lookup hash = some k ∧ s.objects.lookup k = some d ∧ d.summary ≠ none ∧
      s.loadFiles hash reset =
        s.started k hash reset (DetailPanels.startFiles reset s.nextId d) := by
  unfold DetailPanels.loadFiles
  cases hk : s.details.lookup hash with
  | none => exact .inl rfl
  | some k =>
    simp only
    cases hd : s.objects.lookup k with
    | none => exact .inl rfl
    | some d =>
      simp only
      split_ifs with hsummary
      · exact .inl rfl
      · refine .inr ⟨k, d, rfl, hd, by simpa using hsummary, ?_⟩
        rw [DetailPanels.started, abortFiles_eq s k]

theorem PanelsOk.loadFiles (h : PanelsOk list s) : PanelsOk list (s.loadFiles hash reset) := by
  obtain heq | ⟨k, d, hk, hd, hsummary, heq⟩ := loadFiles_cases s hash reset
  · rw [heq]
    exact h
  · obtain ⟨d', hd', hhash, -⟩ := h.mapped hash k hk
    obtain rfl := Option.some.inj (hd.symm.trans hd')
    rw [heq]
    exact h.started hd hhash hsummary (.inr rfl)

/-- An object that keeps its call is changed, with its place among the loading summaries. -/
theorem PanelsOk.put (h : PanelsOk list s) (hd : s.objects.lookup k = some d) (new : Detail)
    {tasks : KeyedTable Nat DetailTask} (hhash : new.infoHash = d.infoHash)
    (hcontroller : new.fileController = d.fileController)
    (hfiles : ListedOk list ((s.call d).map (·.request)) k new)
    (hmapped : MappedOk list (s.call d) d → MappedOk list (s.call d) new)
    (hsummary : SummaryOk (tasks.lookup k) new)
    (htasks : ∀ k', k' ≠ k → tasks.lookup k' = s.detailTasks.lookup k') :
    PanelsOk list { s with objects := s.objects.insert k new, detailTasks := tasks } := by
  have hobject := h.object k d hd
  have hcall : DetailPanels.call { s with
      objects := s.objects.insert k new, detailTasks := tasks } new = s.call d := by
    unfold DetailPanels.call
    rw [hcontroller]
  refine h.update k (fun k' hne => AList.lookup_insert_ne hne) (fun k' d' _ _ => rfl) htasks
    (fun hash' k' _ hk' => ⟨hk', fun d' _ => rfl⟩) le_rfl h.fileTask (fun d' hd' => ?_)
    (fun hash' hk' => ?_)
  · obtain rfl := Option.some.inj ((AList.lookup_insert _).symm.trans hd')
    refine ⟨hobject.known, ?_, ?_, hsummary⟩
    · rw [hcontroller]
      exact hobject.controller
    · rw [hcall]
      exact hfiles
  · obtain ⟨d', hd', hhash', hok⟩ := h.mapped hash' k hk'
    obtain rfl := Option.some.inj (hd.symm.trans hd')
    refine ⟨new, AList.lookup_insert _, hhash.trans hhash', ?_⟩
    rw [hcall]
    exact hmapped hok

/-- A filter that is set before the files are loaded is the filter of the new call. -/
theorem loadFiles_filter (hk : s.details.lookup hash = some k) (hd : s.objects.lookup k = some d)
    (hsummary : d.summary ≠ none) :
    ({ s with objects := s.objects.insert k { d with fileQuery := query } }).loadFiles hash true =
      s.started k hash true
        (DetailPanels.startFiles true s.nextId { d with fileQuery := query }) := by
  have habort : ({ s with objects := s.objects.insert k { d with fileQuery := query } }).abortFiles k =
      { s.abortFiles k with objects := s.objects.insert k { d with fileQuery := query } } := by
    unfold DetailPanels.abortFiles
    simp only [AList.lookup_insert, hd, Option.bind_some]
    split <;> rfl
  have hsome : ¬ d.summary.isNone = true := by simpa using hsummary
  unfold DetailPanels.loadFiles
  simp only [hk, AList.lookup_insert, habort]
  rw [if_neg hsome, DetailPanels.started, AList.insert_insert, abortFiles_eq s k]

/-- The filter of an object is changed, and its files are loaded from the start. -/
theorem PanelsOk.filter (h : PanelsOk list s) (hk : s.details.lookup hash = some k) :
    PanelsOk list ({ s with
      objects := s.objects.adjust k fun d => { d with fileQuery := query } }.loadFiles hash true) := by
  obtain ⟨d, hd, hhash, -⟩ := h.mapped hash k hk
  have hadjust : s.objects.adjust k (fun d => { d with fileQuery := query }) =
      s.objects.insert k { d with fileQuery := query } := by
    rw [AList.adjust, hd]
  rw [hadjust]
  by_cases hsummary : d.summary = none
  · -- Nothing is loaded yet, so the object has no files that another filter selected.
    obtain ⟨-, -, hfiles, hloading⟩ := h.object k d hd
    have hcontroller := hfiles.summary hsummary
    have hcall : s.call d = none := by rw [DetailPanels.call, hcontroller, Option.bind_none]
    rw [hcall] at hfiles
    have hfresh : ListedOk list none k { d with fileQuery := query } := by
      refine ⟨?_, hfiles.offset, hfiles.started, hfiles.summary, by simp, hfiles.loading⟩
      rw [hfiles.started hcontroller]
      exact List.nil_prefix
    have hnew : MappedOk list none { d with fileQuery := query } :=
      ⟨by simp, fun _ hstarted => absurd hcontroller hstarted⟩
    rw [← hcall] at hnew
    exact (h.put hd { d with fileQuery := query } rfl rfl (by rw [hcall]; exact hfresh)
      (fun _ => hnew) ⟨hloading.loading, hloading.ended, hloading.infoHash⟩ fun _ _ => rfl).loadFiles
  · rw [loadFiles_filter hk hd hsummary]
    exact h.started hd hhash hsummary (.inl rfl)

/-- The fields of an object that no call of `loadFiles` sets at its end. -/
def Detail.kept (d : Detail) : String × Bool × Option String × Option TorrentDetail × Option Nat :=
  (d.infoHash, d.loading, d.error, d.summary, d.fileController)

/-- A call ends. Where it is the current one of its object, that object waits for nothing any more;
else it waits for what it did. -/
theorem PanelsOk.finish (h : PanelsOk list s) (htask : s.fileTasks.lookup c = some task)
    {change : Detail → Detail} (hkept : ∀ d, (change d).kept = d.kept)
    (hcurrent : ∀ d, d.fileController = some c →
      ListedOk list (some task.request) task.request.detail d →
      ListedOk list none task.request.detail (change d) ∧
        (task.aborted = false → MappedOk list none (change d)))
    (hother : ∀ d, d.fileController ≠ some c →
      (∀ r, ListedOk list r task.request.detail d →
        ListedOk list r task.request.detail (change d)) ∧
      ∀ call, MappedOk list call d → MappedOk list call (change d)) :
    PanelsOk list { s with
      objects := s.objects.adjust task.request.detail change
      fileTasks := s.fileTasks.erase c } := by
  set k := task.request.detail with hk
  set t : DetailPanels := { s with
    objects := s.objects.adjust k change
    fileTasks := s.fileTasks.erase c } with ht
  have hcontroller : ∀ d, (change d).fileController = d.fileController :=
    fun d => congrArg (·.2.2.2.2) (hkept d)
  have hcall : ∀ d : Detail, t.call d = if d.fileController = some c then none else s.call d := by
    intro d
    unfold DetailPanels.call
    cases hd : d.fileController with
    | none => rfl
    | some c' => simp only [Option.bind_some, ht, AList.lookup_erase_eq, Option.some.injEq]
  have hothers : ∀ k' d, k' ≠ k → s.objects.lookup k' = some d → t.call d = s.call d := by
    intro k' d hne hd
    rw [hcall, if_neg]
    intro hd'
    exact hne (h.owner hd hd' htask).symm
  have hlookup : ∀ d, s.objects.lookup k = some d → t.objects.lookup k = some (change d) := by
    intro d hd
    rw [ht]
    simp only [AList.lookup_adjust, if_true, hd, Option.map_some]
  have hown : ∀ d, d.fileController = some c → s.call d = some task := by
    intro d hd
    rw [DetailPanels.call, hd, Option.bind_some, htask]
  have hnew : ∀ d, t.call (change d) = t.call d := by
    intro d
    unfold DetailPanels.call
    rw [hcontroller]
  refine h.update k (fun k' hne => ?_) (fun k' d' hne hd' => by rw [hothers k' d' hne hd'])
    (fun _ _ => rfl) (fun hash' k' hne hk' => ⟨hk', fun d' hd' => hothers k' d' hne hd'⟩) le_rfl
    (fun c' task' htask' => ?_) (fun d' hd' => ?_) (fun hash' hk' => ?_)
  · simp only [ht, AList.lookup_adjust, if_neg hne]
  · simp only [ht, AList.lookup_erase_eq] at htask'
    split_ifs at htask'
    exact h.fileTask c' task' htask'
  · rw [ht] at hd'
    simp only [AList.lookup_adjust, if_true] at hd'
    obtain ⟨d, hd, rfl⟩ := Option.map_eq_some_iff.mp hd'
    obtain ⟨hknown, hbound, hfiles, hloading, hended, hhash⟩ := h.object k d hd
    obtain ⟨heq, hload, herror, hsummary, -⟩ : _ ∧ _ ∧ _ ∧ _ ∧ _ := by
      simpa only [Detail.kept, Prod.mk.injEq] using hkept d
    refine ⟨hknown, ?_, ?_, ?_, ?_, ?_⟩
    · rw [hcontroller]
      exact hbound
    · rw [hnew, hcall]
      split_ifs with hc
      · rw [hown d hc] at hfiles
        exact (hcurrent d hc hfiles).1
      · exact (hother d hc).1 _ hfiles
    · rw [hload]
      exact hloading
    · rw [hsummary, herror]
      exact hended
    · rw [heq]
      exact hhash
  · obtain ⟨d, hd, hhash, hok⟩ := h.mapped hash' k hk'
    refine ⟨change d, hlookup d hd, (congrArg (·.1) (hkept d)).trans hhash, ?_⟩
    rw [hnew, hcall]
    split_ifs with hc
    · have hfiles := (h.object k d hd).files
      rw [hown d hc] at hok hfiles
      exact (hcurrent d hc hfiles).2 (hok.live task rfl)
    · exact (hother d hc).2 _ hok

theorem PanelsOk.finishFiles (h : PanelsOk list s) (htask : s.fileTasks.lookup c = some task)
    {change : Detail → Detail} (hkept : ∀ d, (change d).kept = d.kept)
    (hcurrent : ∀ d, d.fileController = some c →
      ListedOk list (some task.request) task.request.detail d →
      ListedOk list none task.request.detail { change d with filesLoading := false } ∧
        (task.aborted = false → MappedOk list none { change d with filesLoading := false }))
    (hother : ∀ d, d.fileController ≠ some c →
      (∀ r, ListedOk list r task.request.detail d →
        ListedOk list r task.request.detail (change d)) ∧
      ∀ call, MappedOk list call d → MappedOk list call (change d)) :
    PanelsOk list (s.finishFiles c task.request.detail change) := by
  have hcontroller : ∀ d, (change d).fileController = d.fileController :=
    fun d => congrArg (·.2.2.2.2) (hkept d)
  have hif : ∀ d, (if (change d).fileController = some c then
      { change d with filesLoading := false } else change d) =
      if d.fileController = some c then { change d with filesLoading := false } else change d := by
    intro d
    by_cases hd : d.fileController = some c
    · rw [if_pos ((hcontroller d).trans hd), if_pos hd]
    · rw [if_neg (mt (hcontroller d).symm.trans hd), if_neg hd]
  have hchange := funext hif
  unfold DetailPanels.finishFiles
  simp only [hchange]
  refine h.finish htask (fun d => ?_) (fun d hd hfiles => ?_) (fun d hd => ?_)
  · split_ifs
    · exact hkept d
    · exact hkept d
  · rw [if_pos hd]
    exact hcurrent d hd hfiles
  · rw [if_neg hd]
    exact hother d hd

/-- An object that got no answer has the files that it had. -/
theorem ListedOk.idle {request : Option FileRequest} (h : ListedOk list request k d)
    (e : Option String) : ListedOk list none k { d with filesError := e, filesLoading := false } :=
  ⟨h.files, h.offset, h.started, h.summary, nofun, rfl⟩

theorem PanelsOk.abort (h : PanelsOk list s) (htask : s.fileTasks.lookup c = some task)
    (haborted : task.aborted = true) :
    PanelsOk list (s.finishFiles c task.request.detail id) := by
  -- No object in the map waits for an aborted call.
  refine h.finishFiles htask (fun _ => rfl) (fun d hd hfiles => ⟨hfiles.idle d.filesError,
    fun hlive => ?_⟩) fun d hd => ⟨fun _ hfiles => hfiles, fun _ hok => hok⟩
  rw [haborted] at hlive
  cases hlive

theorem PanelsOk.fail (h : PanelsOk list s) (htask : s.fileTasks.lookup c = some task)
    (message : String) :
    PanelsOk list (s.finishFiles c task.request.detail (DetailPanels.failFiles message)) :=
  h.finishFiles htask (fun _ => rfl)
    (fun _ _ hfiles => ⟨hfiles.idle _, fun _ => ⟨nofun, fun _ _ herror => by cases herror⟩⟩)
    fun _ _ => ⟨fun _ hfiles => hfiles.congr rfl rfl rfl rfl rfl rfl id,
      fun _ hok => ⟨hok.live, fun _ _ herror => by cases herror⟩⟩

/-- The page after the files of an object makes them a longer prefix of the same list. -/
theorem files_append {all files : List Web.FileEntry} {params : FileSearchQuery}
    {data : FileSearchResponse} (hfiles : files <+: all) (hoffset : params.offset = files.length)
    (h : AnswersPage all params data) :
    files ++ data.files <+: all ∧ data.offset + data.files.length = (files ++ data.files).length ∧
      data.hasNext = decide ((files ++ data.files).length < all.length) := by
  have hpage : files ++ data.files = all.take (files.length + params.limit) := by
    rw [h.files, hoffset, List.take_add, ← List.prefix_iff_eq_take.mp hfiles]
  refine ⟨?_, ?_, ?_⟩
  · rw [hpage]
    exact List.take_prefix _ _
  · rw [h.offset, hoffset, List.length_append]
  · rw [h.hasNext, hpage, List.length_take, hoffset]
    congr 1
    simp only [eq_iff_iff]
    omega

theorem PanelsOk.apply (h : PanelsOk list s) (htask : s.fileTasks.lookup c = some task)
    {data : FileSearchResponse}
    (hanswer : ∀ all, all = list task.request.infoHash (task.request.params.q.getD "") →
      task.request.params.limit = fileLimit → task.request.params.offset ≤ all.length →
      AnswersPage all task.request.params data) :
    PanelsOk list (s.finishFiles c task.request.detail
      (DetailPanels.applyFiles c task.request.reset data)) := by
  refine h.finishFiles htask (fun d => ?_) (fun d hd hfiles => ?_) (fun d hd => ?_)
  · unfold DetailPanels.applyFiles
    split_ifs <;> rfl
  · obtain ⟨hrequest, hreset⟩ := hfiles.asked _ rfl
    have hquery : task.request.params.q.getD "" = d.fileQuery := by
      rw [hrequest]
      simp only [DetailPanels.fileParams]
      split_ifs with hempty
      · exact (String.isEmpty_iff.mp hempty).symm
      · rfl
    have hoffset : task.request.params.offset = d.files.length := by
      rw [hrequest]
      exact hfiles.offset
    have hinfoHash : task.request.infoHash = d.infoHash := by rw [hrequest]
    have hpage := hanswer _ rfl (by rw [hrequest]; rfl) (by
      rw [hoffset, hquery, hinfoHash]
      exact hfiles.files.length_le)
    rw [hquery, hinfoHash] at hpage
    obtain ⟨hpre, hlength, hmore⟩ := files_append hfiles.files hoffset hpage
    have happend : (if task.request.reset then data.files else d.files ++ data.files) =
        d.files ++ data.files := by
      split_ifs with hr
      · rw [hreset hr, List.nil_append]
      · rfl
    simp only [DetailPanels.applyFiles, if_pos hd, happend]
    exact ⟨⟨hpre, hlength, fun hnone => by simp [hd] at hnone, hfiles.summary, nofun, rfl⟩,
      fun _ => ⟨nofun, fun _ _ _ => hmore⟩⟩
  · simp only [DetailPanels.applyFiles, if_neg hd]
    exact ⟨fun _ hfiles => hfiles, fun _ hok => hok⟩

/-- A call awaits something else. -/
theorem PanelsOk.await (h : PanelsOk list s) (htask : s.fileTasks.lookup c = some task)
    (stage : SearchStage) :
    PanelsOk list { s with fileTasks := s.fileTasks.insert c { task with stage } } := by
  set t : DetailPanels := { s with fileTasks := s.fileTasks.insert c { task with stage } } with ht
  have hcall : ∀ d : Detail,
      t.call d = s.call d ∨ s.call d = some task ∧ t.call d = some { task with stage } := by
    intro d
    unfold DetailPanels.call
    cases hd : d.fileController with
    | none => exact .inl rfl
    | some c' =>
      simp only [Option.bind_some, ht, AList.lookup_insert_eq]
      split_ifs with hc
      · exact .inr ⟨hc ▸ htask, rfl⟩
      · exact .inl rfl
  refine ⟨fun hash k hk => ?_, fun k d hd => ?_, fun c' task' htask' => ?_⟩
  · obtain ⟨d, hd, hhash, hok⟩ := h.mapped hash k hk
    refine ⟨d, hd, hhash, ?_⟩
    rcases hcall d with hsame | ⟨hold, hnew⟩
    · rw [hsame]
      exact hok
    · rw [hold] at hok
      rw [hnew]
      exact ⟨fun task' htask' => by cases htask'; exact hok.live task rfl, nofun⟩
  · obtain ⟨hknown, hbound, hfiles, hsummary⟩ := h.object k d hd
    refine ⟨hknown, hbound, ?_, hsummary⟩
    rcases hcall d with hsame | ⟨hold, hnew⟩
    · rw [hsame]
      exact hfiles
    · rw [hold] at hfiles
      rw [hnew]
      exact hfiles
  · simp only [ht, AList.lookup_insert_eq] at htask' ⊢
    split_ifs at htask' with hc
    · exact hc ▸ h.fileTask c task htask
    · exact h.fileTask c' task' htask'

/-! ## Summaries -/

/-- The call of a summary awaits something else. -/
theorem PanelsOk.awaitDetail (h : PanelsOk list s) {task : DetailTask}
    (htask : s.detailTasks.lookup k = some task) (stage : SearchStage) :
    PanelsOk list { s with detailTasks := s.detailTasks.insert k { task with stage } } := by
  refine h.update k (fun _ _ => rfl) (fun _ _ _ _ => rfl) (fun k' hne => AList.lookup_insert_ne hne)
    (fun _ _ _ hk' => ⟨hk', fun _ _ => rfl⟩) le_rfl h.fileTask (fun d hd => ?_)
    fun hash' hk' => h.mapped hash' k hk'
  obtain ⟨hknown, hbound, hfiles, hsummary⟩ := h.object k d hd
  rw [htask] at hsummary
  refine ⟨hknown, hbound, hfiles, ?_⟩
  rw [AList.lookup_insert]
  exact ⟨hsummary.loading, nofun, fun t ht => by cases ht; exact hsummary.infoHash task rfl⟩

/-- The call of a summary ends with the summary or with an error. -/
theorem PanelsOk.endDetail (h : PanelsOk list s) {change : Detail → Detail}
    (hfiles : ∀ d r, ListedOk list r k d → ListedOk list r k (change d))
    (hmapped : ∀ d call, MappedOk list call d → MappedOk list call (change d))
    (hhash : ∀ d, (change d).infoHash = d.infoHash)
    (hcontroller : ∀ d, (change d).fileController = d.fileController)
    (hsummary : ∀ d, SummaryOk none (change d)) :
    PanelsOk list { s with
      objects := s.objects.adjust k change
      detailTasks := s.detailTasks.erase k } := by
  cases hd : s.objects.lookup k with
  | none =>
    refine h.update k (fun k' hne => ?_) (fun _ _ _ _ => rfl)
      (fun k' hne => AList.lookup_erase_ne hne) (fun _ _ _ hk' => ⟨hk', fun _ _ => rfl⟩) le_rfl
      h.fileTask (fun d hd' => ?_) (fun hash' hk' => ?_)
    · simp only [AList.lookup_adjust, if_neg hne]
    · simp only [AList.lookup_adjust, if_true, hd] at hd'
      cases hd'
    · obtain ⟨d, hd', -⟩ := h.mapped hash' k hk'
      rw [hd] at hd'
      cases hd'
  | some d =>
    have hadjust : s.objects.adjust k change = s.objects.insert k (change d) := by
      rw [AList.adjust, hd]
    rw [hadjust]
    refine h.put hd _ (hhash d) (hcontroller d) (hfiles d _ (h.object k d hd).files) (hmapped d _) ?_
      fun k' hne => AList.lookup_erase_ne hne
    rw [AList.lookup_erase]
    exact hsummary d

theorem PanelsOk.failDetail (h : PanelsOk list s) (message : String) :
    PanelsOk list (s.failDetail k message) :=
  h.endDetail (fun _ _ hfiles => hfiles.congr rfl rfl rfl rfl rfl rfl id)
    (fun _ _ hok => ⟨hok.live, hok.complete⟩) (fun _ => rfl) (fun _ => rfl)
    fun _ => ⟨rfl, fun _ => .inr nofun, nofun⟩

theorem PanelsOk.summarize (h : PanelsOk list s) (data : TorrentDetail) :
    PanelsOk list { s with
      objects := s.objects.adjust k fun d => { d with summary := some data, loading := false }
      detailTasks := s.detailTasks.erase k } :=
  h.endDetail (fun _ _ hfiles => hfiles.congr rfl rfl rfl rfl rfl rfl nofun)
    (fun _ _ hok => ⟨hok.live, hok.complete⟩) (fun _ => rfl) (fun _ => rfl)
    fun _ => ⟨rfl, fun _ => .inl nofun, nofun⟩

/-- A new object takes the place of the one that the hash had; the call of that one is aborted. -/
theorem PanelsOk.loadDetail (h : PanelsOk list s) (hash : String) (force : Bool) :
    PanelsOk list (s.loadDetail hash force) := by
  unfold DetailPanels.loadDetail
  simp only
  split_ifs
  · exact h
  set u := (s.details.lookup hash).elim s s.abortFiles with hu
  have hsame : SameRequests s u := by
    rw [hu]
    cases s.details.lookup hash with
    | none => exact .refl s
    | some k => exact sameRequests_abortFiles s k
  refine h.update s.nextId (fun k hne => ?_) (fun k d hne hd => hsame.call d) (fun k hne => ?_)
    (fun hash' k hne hk => ?_) ?_ (fun c task htask => ?_) (fun d hd => ?_) (fun hash' hk => ?_)
  · simp only [hsame.objects, hsame.nextId, AList.lookup_insert_ne hne]
  · simp only [hsame.detailTasks, hsame.nextId, AList.lookup_insert_ne hne]
  · simp only [hsame.details, hsame.nextId, AList.lookup_insert_eq] at hk
    split_ifs at hk with hhash
    · exact absurd (Option.some.inj hk).symm hne
    · refine ⟨hk, fun d hd => ?_⟩
      show u.call d = s.call d
      rw [hu]
      cases hold : s.details.lookup hash with
      | none => rfl
      | some k' =>
        refine call_abortFiles h ?_ hd
        rintro rfl
        obtain ⟨d', hd', hhash', -⟩ := h.mapped hash' _ hk
        obtain ⟨d'', hd'', hhash'', -⟩ := h.mapped hash _ hold
        obtain rfl := Option.some.inj (hd'.symm.trans hd'')
        exact hhash (hhash'.symm.trans hhash'')
  · simp only [hsame.nextId]
    omega
  · have := hsame.lt h htask
    simp only [hsame.nextId]
    omega
  · simp only [hsame.objects, hsame.nextId, AList.lookup_insert] at hd
    obtain rfl := Option.some.inj hd
    refine ⟨by simp only [hsame.nextId]; omega, nofun, ?_, ?_⟩
    · exact ⟨List.nil_prefix, rfl, fun _ => rfl, fun _ => rfl, nofun, rfl⟩
    · simp only [hsame.detailTasks, hsame.nextId, AList.lookup_insert]
      exact ⟨rfl, nofun, fun t ht => by cases ht; rfl⟩
  · simp only [hsame.details, hsame.nextId, AList.lookup_insert_eq] at hk
    split_ifs at hk with hhash
    · subst hhash
      simp only [hsame.objects, hsame.nextId, AList.lookup_insert]
      exact ⟨_, rfl, rfl, nofun, fun _ hstarted => absurd rfl hstarted⟩
    · obtain ⟨d, hd, -⟩ := h.mapped hash' _ hk
      exact absurd (h.object _ d hd).known (lt_irrefl _)

/-- The map is emptied, whatever the calls that are left do. -/
theorem PanelsOk.refresh (h : PanelsOk list s) : PanelsOk list s.refresh := by
  have hsame : ∀ (es : List (Σ _ : String, Nat)) (t : DetailPanels), SameRequests s t →
      SameRequests s (es.foldl (fun s e => s.abortFiles e.2) t) := by
    intro es
    induction es with
    | nil => exact fun t ht => ht
    | cons e es ih => exact fun t ht => ih _ (ht.trans (sameRequests_abortFiles t e.2))
  have hall := hsame s.details.entries s (.refl s)
  refine h.update s.nextId (fun k _ => congrArg (AList.lookup k) hall.objects)
    (fun k d _ _ => hall.call d) (fun k _ => congrArg (AList.lookup k) hall.detailTasks)
    (fun hash' k _ hk => by cases hk) hall.nextId.ge (fun c task htask => ?_) (fun d hd => ?_)
    (fun hash' hk => by cases hk)
  · exact (hall.lt h htask).trans_le hall.nextId.ge
  · have hd' : s.objects.lookup s.nextId = some d :=
      (congrArg (AList.lookup s.nextId) hall.objects).symm.trans hd
    exact absurd (h.object _ d hd').known (lt_irrefl _)

end Calls

/-! ## Runs -/

/-- What the service lists for the text of a hash and a query. -/
def listedFiles (decode : String → Except String Bytes) (coll : Collation) (c : Catalogue)
    (text query : String) : List Web.FileEntry :=
  match decodeInfoHash decode text with
  | .ok hash => orderedFiles coll hash query c
  | .error _ => []

/-- A response of files is the one that the service gives while the tables stay as they are. -/
def Answered (decode : String → Except String Bytes) (coll : Collation) (c : Catalogue)
    (s : DetailPanels) : PanelEvent → Prop
  | .fileBody controller data => ∀ task, s.fileTasks.lookup controller = some task →
    (apiTorrentFiles decode coll (.ok c) (.ok c) task.request.infoHash
      task.request.params).response = .ok data
  | _ => True

abbrev DetailPanels.Step (s : DetailPanels) (e : PanelEvent) (t : DetailPanels) : Prop :=
  s.next e = some t

section Runs

variable {decode : String → Except String Bytes} {coll : Collation} {c : Catalogue}
  {s t : DetailPanels} {e : PanelEvent} {es : List PanelEvent} {text : String} {k : Nat}
  {params : FileSearchQuery} {data : FileSearchResponse}

theorem answersPage_of_ok (hdecode : DecodesHex decode) (hrows : c.files.length < 2 ^ 63) (hlimit : params.limit = fileLimit)
    (hoffset : params.offset ≤ (listedFiles decode coll c text (params.q.getD "")).length)
    (h : (apiTorrentFiles decode coll (.ok c) (.ok c) text params).response = .ok data) :
    AnswersPage (listedFiles decode coll c text (params.q.getD "")) params data := by
  by_cases hvalid : ∃ hash, Denotes text hash
  · obtain ⟨hash, hdenotes⟩ := hvalid
    have hlist : listedFiles decode coll c text (params.q.getD "") =
        orderedFiles coll hash (params.q.getD "") c := by
      rw [listedFiles, decodeInfoHash_eq hdecode hdenotes]
    rw [hlist] at hoffset ⊢
    have hlength := length_orderedFiles_le coll hash (params.q.getD "") c
    have hclampOffset : clampOffset params.offset = params.offset := by
      unfold clampOffset
      omega
    have hclampLimit : clampLimit params.limit = params.limit := by
      rw [hlimit]
      rfl
    rw [apiTorrentFiles_eq hdecode hdenotes] at h
    simp only [readStore] at h
    by_cases hrow : (c.torrents.lookup hash).isNone = true
    · rw [if_pos hrow] at h
      cases h
    · rw [if_neg hrow] at h
      obtain rfl := Except.ok.inj h
      have hfetch := lt_fetchLimit params.limit
      rw [hclampLimit] at hfetch
      rw [fileResponse_eq]
      refine ⟨?_, hclampOffset, ?_⟩
      · simp only [pageOf_rows hfetch, hclampOffset, hclampLimit]
      · simp only [pageOf_hasNext_eq hfetch, hclampOffset, hclampLimit]
  · -- The check refuses every other text.
    have hcheck : validateInfoHashHex text =
        .error (.badRequest "invalid info_hash: must be 40 hex characters") :=
      if_neg (mt isInfoHashHex_iff.mp hvalid)
    simp only [apiTorrentFiles, checkRequest, hcheck] at h
    cases h

/-- What an event can do: start a call for a detail or for its files, let a call go on, or end one
with its data, with an error or without. -/
theorem DetailPanels.next_cases (h : s.next e = some t) :
    (∃ hash force, t = s.loadDetail hash force) ∨
    (∃ hash, t = s.loadFiles hash false) ∨
    (∃ hash query k, s.details.lookup hash = some k ∧ t = ({ s with
      objects := s.objects.adjust k fun d => { d with fileQuery := query } }).loadFiles hash true) ∨
    t = s.refresh ∨
    (∃ k task stage, s.detailTasks.lookup k = some task ∧
      t = { s with detailTasks := s.detailTasks.insert k { task with stage } }) ∨
    (∃ k hash data, t = ({ s with
      objects := s.objects.adjust k fun d => { d with summary := some data, loading := false }
      detailTasks := s.detailTasks.erase k }).loadFiles hash true) ∨
    (∃ k message, t = s.failDetail k message) ∨
    (∃ c task stage, s.fileTasks.lookup c = some task ∧
      t = { s with fileTasks := s.fileTasks.insert c { task with stage } }) ∨
    (∃ c task data, e = .fileBody c data ∧ s.fileTasks.lookup c = some task ∧
      t = s.finishFiles c task.request.detail (applyFiles c task.request.reset data)) ∨
    (∃ c task message, s.fileTasks.lookup c = some task ∧
      t = s.finishFiles c task.request.detail (failFiles message)) ∨
    ∃ c task, s.fileTasks.lookup c = some task ∧ task.aborted = true ∧
      t = s.finishFiles c task.request.detail id := by
  cases e with
  | loadDetail infoHash force => exact .inl ⟨infoHash, force, (Option.some.inj h).symm⟩
  | loadFiles infoHash => exact .inr (.inl ⟨infoHash, (Option.some.inj h).symm⟩)
  | filter infoHash query =>
    simp only [next] at h
    cases hk : s.details.lookup infoHash with
    | none => simp [hk] at h
    | some k =>
      simp only [hk] at h
      cases h
      exact .inr (.inr (.inl ⟨infoHash, query, k, hk, rfl⟩))
  | refresh => exact .inr (.inr (.inr (.inl (Option.some.inj h).symm)))
  | detailResponse k ok statusText =>
    refine .inr (.inr (.inr (.inr (.inl ?_))))
    simp only [next] at h
    cases htask : s.detailTasks.lookup k with
    | none => simp [htask] at h
    | some task =>
      simp only [htask] at h
      by_cases hstage : task.stage = .fetching
      · rw [if_pos hstage] at h
        cases h
        exact ⟨k, task, _, htask, rfl⟩
      · rw [if_neg hstage] at h
        cases h
  | detailBody k data =>
    refine .inr (.inr (.inr (.inr (.inr (.inl ?_)))))
    simp only [next] at h
    cases htask : s.detailTasks.lookup k with
    | none => simp [htask] at h
    | some task =>
      simp only [htask] at h
      by_cases hstage : task.stage = .reading
      · rw [if_pos hstage] at h
        cases h
        exact ⟨k, task.infoHash, data, rfl⟩
      · rw [if_neg hstage] at h
        cases h
  | detailErrorBody k error =>
    refine .inr (.inr (.inr (.inr (.inr (.inr (.inl ?_))))))
    simp only [next] at h
    cases htask : s.detailTasks.lookup k with
    | none => simp [htask] at h
    | some task =>
      simp only [htask] at h
      split at h
      · cases h
        exact ⟨k, _, rfl⟩
      · cases h
  | detailReject k message =>
    refine .inr (.inr (.inr (.inr (.inr (.inr (.inl ?_))))))
    simp only [next] at h
    cases htask : s.detailTasks.lookup k with
    | none => simp [htask] at h
    | some task =>
      simp only [htask] at h
      split at h
      all_goals
        cases h
        exact ⟨k, _, rfl⟩
  | fileResponse c ok statusText =>
    refine .inr (.inr (.inr (.inr (.inr (.inr (.inr (.inl ?_)))))))
    simp only [next] at h
    cases htask : s.fileTasks.lookup c with
    | none => simp [htask] at h
    | some task =>
      simp only [htask] at h
      by_cases hstage : task.stage = .fetching
      · rw [if_pos hstage] at h
        cases h
        exact ⟨c, task, _, htask, rfl⟩
      · rw [if_neg hstage] at h
        cases h
  | fileBody c data =>
    refine .inr (.inr (.inr (.inr (.inr (.inr (.inr (.inr (.inl ?_))))))))
    simp only [next] at h
    cases htask : s.fileTasks.lookup c with
    | none => simp [htask] at h
    | some task =>
      simp only [htask] at h
      by_cases hstage : task.stage = .reading
      · rw [if_pos hstage] at h
        cases h
        exact ⟨c, task, data, rfl, htask, rfl⟩
      · rw [if_neg hstage] at h
        cases h
  | fileErrorBody c error =>
    refine .inr (.inr (.inr (.inr (.inr (.inr (.inr (.inr (.inr (.inl ?_)))))))))
    simp only [next] at h
    cases htask : s.fileTasks.lookup c with
    | none => simp [htask] at h
    | some task =>
      simp only [htask] at h
      split at h
      · cases h
        exact ⟨c, task, _, htask, rfl⟩
      · cases h
  | fileReject c failure =>
    refine .inr (.inr (.inr (.inr (.inr (.inr (.inr (.inr (.inr ?_))))))))
    simp only [next] at h
    cases htask : s.fileTasks.lookup c with
    | none => simp [htask] at h
    | some task =>
      simp only [htask] at h
      split at h
      · cases h
        exact .inl ⟨c, task, _, htask, rfl⟩
      · split_ifs at h with haborted
        cases h
        exact .inr ⟨c, task, htask, haborted, rfl⟩
      · cases h
        exact .inl ⟨c, task, _, htask, rfl⟩

theorem PanelsOk.step (hdecode : DecodesHex decode) (hrows : c.files.length < 2 ^ 63)
    (h : PanelsOk (listedFiles decode coll c) s)
    (hstep : Guarded (Answered decode coll c) DetailPanels.Step s e t) :
    PanelsOk (listedFiles decode coll c) t := by
  obtain ⟨hanswer, hnext⟩ := hstep
  obtain ⟨hash, force, rfl⟩ | ⟨hash, rfl⟩ | ⟨hash, query, k, hk, rfl⟩ | rfl |
    ⟨k, task, stage, htask, rfl⟩ | ⟨k, hash, data, rfl⟩ | ⟨k, message, rfl⟩ |
    ⟨call, task, stage, htask, rfl⟩ | ⟨call, task, data, rfl, htask, rfl⟩ |
    ⟨call, task, message, htask, rfl⟩ | ⟨call, task, htask, haborted, rfl⟩ :=
    DetailPanels.next_cases hnext
  · exact h.loadDetail hash force
  · exact h.loadFiles
  · exact h.filter hk
  · exact h.refresh
  · exact h.awaitDetail htask stage
  · exact (h.summarize data).loadFiles
  · exact h.failDetail message
  · exact h.await htask stage
  · refine h.apply htask fun all hall hlimit hoffset => ?_
    rw [hall] at hoffset ⊢
    exact answersPage_of_ok hdecode hrows hlimit hoffset (hanswer task htask)
  · exact h.fail htask message
  · exact h.abort htask haborted

theorem panelsOk_init (list : String → String → List Web.FileEntry) : PanelsOk list {} :=
  ⟨by simp, by simp, by simp⟩

/-- In every run of the panels over tables that stay as they are, the files of each panel are a
prefix of what the service lists for its filter. The panel loads as long as its current call goes
on, and where none does and no error is shown, it offers more exactly when some are missing. -/
theorem file_panel_exact (hdecode : DecodesHex decode) (hrows : c.files.length < 2 ^ 63)
    (h : Run (Guarded (Answered decode coll c) DetailPanels.Step) {} es s)
    (hmap : s.details.lookup text = some k) :
    ∃ d, s.objects.lookup k = some d ∧ d.infoHash = text ∧
      d.files <+: listedFiles decode coll c text d.fileQuery ∧
      d.fileOffset = d.files.length ∧
      (d.loading = true ↔ (s.detailTasks.lookup k).isSome = true) ∧
      (d.loading = false → d.summary ≠ none ∨ d.error ≠ none) ∧
      (d.filesLoading = true ↔
        ∃ call, d.fileController = some call ∧ (s.fileTasks.lookup call).isSome = true) ∧
      (d.fileController ≠ none → d.filesLoading = false → d.filesError = none →
        (d.hasMoreFiles = false ↔ d.files = listedFiles decode coll c text d.fileQuery)) := by
  have hok : PanelsOk (listedFiles decode coll c) s :=
    h.invariant (fun _ _ _ hs hstep => hs.step hdecode hrows hstep) (panelsOk_init _)
  obtain ⟨d, hd, rfl, hmapped⟩ := hok.mapped text k hmap
  obtain ⟨-, -, hfiles, hsummary⟩ := hok.object k d hd
  refine ⟨d, hd, rfl, hfiles.files, hfiles.offset, by rw [hsummary.loading],
    fun hloading => hsummary.ended ?_, ?_, fun hstarted hloading herror => ?_⟩
  · rw [hsummary.loading] at hloading
    simpa using hloading
  · rw [hfiles.loading, Option.isSome_map, DetailPanels.call]
    cases d.fileController <;> simp
  · have hcall : s.call d = none := by
      rw [hfiles.loading] at hloading
      simpa using hloading
    rw [hmapped.complete hcall hstarted herror, decide_eq_false_iff_not, not_lt]
    exact ⟨fun hle => hfiles.files.eq_of_length_le hle, fun heq => by rw [heq]⟩

end Runs

/-- A card is expanded, and its files are filtered while their first page is being read. -/
def filteredEarly (text : String) : List PanelEvent :=
  [.loadDetail text false, .detailResponse 0 true "OK",
    .detailBody 0 ⟨text, none, 3, 2, 0, 0, true, ""⟩, .fileResponse 1 true "OK", .filter text "b"]

/-- The first page is there after the filter, and the panel has files of the filter only. -/
theorem file_panel_exact_filtered :
    ∃ data s d, Run (Guarded (Answered plainHex .ignoreCase twoFiles) DetailPanels.Step) {}
        (filteredEarly (hexEncode 7) ++ [.fileBody 1 data]) s ∧
      s.objects.lookup 0 = some d ∧
      d.files <+: listedFiles plainHex .ignoreCase twoFiles (hexEncode 7) d.fileQuery := by
  obtain ⟨u, hu⟩ : ∃ u, play DetailPanels.next (filteredEarly (hexEncode 7)) {} = some u :=
    Option.isSome_iff_exists.mp (by decide +kernel)
  have hmap : ((play DetailPanels.next (filteredEarly (hexEncode 7)) {}).bind fun u =>
      u.details.lookup (hexEncode 7)) = some 0 := by decide +kernel
  have hcall : ((play DetailPanels.next (filteredEarly (hexEncode 7)) {}).bind fun u =>
      u.fileTasks.lookup 1).map (fun task => (task.stage, task.request.infoHash)) =
      some (.reading, hexEncode 7) := by decide +kernel
  rw [hu, Option.bind_some] at hmap hcall
  obtain ⟨task, htask, hfields⟩ := Option.map_eq_some_iff.mp hcall
  obtain ⟨hstage, hhash⟩ := Prod.mk.inj hfields
  set data := fileResponse .ignoreCase 7 task.request.params twoFiles
  set s := u.finishFiles 1 task.request.detail
    (DetailPanels.applyFiles 1 task.request.reset data) with hs
  have hstep : u.next (.fileBody 1 data) = some s := by
    simp only [DetailPanels.next, htask, if_pos hstage, hs]
  have hanswer : Answered plainHex .ignoreCase twoFiles u (.fileBody 1 data) := by
    intro task' htask'
    obtain rfl := Option.some.inj (htask.symm.trans htask')
    rw [hhash, apiTorrentFiles_eq plainHex_decodes (denotes_hexEncode 7)]
    rfl
  have hrun : Run (Guarded (Answered plainHex .ignoreCase twoFiles) DetailPanels.Step) {}
      (filteredEarly (hexEncode 7) ++ [.fileBody 1 data]) s := by
    refine (Run.guarded (play_run hu) ?_).snoc ⟨hanswer, hstep⟩
    simp [filteredEarly, Answered]
  obtain ⟨d, hd, -, hfiles, -⟩ := file_panel_exact plainHex_decodes (by decide) hrun hmap
  exact ⟨data, s, d, hrun, hd, hfiles⟩

end Btfind
