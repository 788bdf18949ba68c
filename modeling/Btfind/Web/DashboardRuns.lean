import Btfind.Web.Dashboard

/-!
# The latest search wins

In every order of responses, errors and aborts the dashboard shows the answer to the latest call
that was answered while it was the current one; answers are shown in the order of their calls, and
the dashboard is busy exactly as long as the current call goes on.
-/

namespace Btfind

open Transition

/-- A response that `search` put on display, with its controller and its request. -/
structure Applied where
  controller : Nat
  request : SearchQuery
  data : SearchResponse

/-- The response that an event puts on display. -/
def Dashboard.applies (s : Dashboard) : DashboardEvent → Option Applied
  | .body controller data =>
    match s.tasks.lookup controller with
    | some task =>
      if task.stage = .reading ∧ s.searchController = some controller then
        some ⟨controller, task.request, data⟩
      else none
    | none => none
  | _ => none

/-- The responses that a sequence of events puts on display. -/
def appliedResponses (formatNumber : Nat → String) (s : Dashboard) :
    List DashboardEvent → List Applied
  | [] => []
  | e :: es => (s.applies e).toList ++
    (s.next formatNumber e).elim [] fun t => appliedResponses formatNumber t es

/-- The page on display; its offset is moved by the handlers before they search. -/
def Dashboard.page (s : Dashboard) : List SearchResult × Nat × Bool × String :=
  (s.results, s.limit, s.hasNext, s.effectiveSort)

def SearchResponse.page (r : SearchResponse) : List SearchResult × Nat × Bool × String :=
  (r.results, r.limit, r.hasNext, r.effectiveSort)

/-- The calls that go on: they are known, all but the current one are aborted, and the dashboard is
busy as long as that one goes on. -/
structure CallsOk (s : Dashboard) : Prop where
  known : ∀ id task, s.tasks.lookup id = some task → id < s.nextController
  current : ∀ id, s.searchController = some id → id < s.nextController
  aborted : ∀ id task, s.tasks.lookup id = some task → s.searchController ≠ some id →
    task.aborted = true
  busy : s.searchBusy = true ↔
    ∃ id, s.searchController = some id ∧ (s.tasks.lookup id).isSome = true

/-- The expanded card is on display. -/
def Dashboard.ExpandedOk (s : Dashboard) : Prop :=
  ∀ h, s.expandedHash = some h → ∃ r ∈ s.results, r.infoHash = h

section Calls

variable {s t : Dashboard} {controls : Controls} {trigger : SearchTrigger} {id : Nat}
  {task : SearchTask} {f : SearchTask → SearchTask}

theorem CallsOk.congr (h : CallsOk s) (htasks : t.tasks = s.tasks)
    (hcontroller : t.searchController = s.searchController) (hbusy : t.searchBusy = s.searchBusy)
    (hnext : t.nextController = s.nextController) : CallsOk t where
  known := by rw [htasks, hnext]; exact h.known
  current := by rw [hcontroller, hnext]; exact h.current
  aborted := by rw [htasks, hcontroller]; exact h.aborted
  busy := by rw [htasks, hcontroller, hbusy]; exact h.busy

/-- A call that goes on is changed in place. -/
theorem CallsOk.adjust (h : CallsOk s) (hf : ∀ task, task.aborted = true → (f task).aborted = true) :
    CallsOk { s with tasks := s.tasks.adjust id f } := by
  have hrow : ∀ id' task, (s.tasks.adjust id f).lookup id' = some task →
      ∃ old, s.tasks.lookup id' = some old ∧ (task = old ∨ task = f old) := by
    intro id' task htask
    rw [AList.lookup_adjust] at htask
    split_ifs at htask with hid
    · obtain ⟨old, hold, rfl⟩ := Option.map_eq_some_iff.mp htask
      exact ⟨old, hid ▸ hold, .inr rfl⟩
    · exact ⟨task, htask, .inl rfl⟩
  refine ⟨?_, h.current, ?_, ?_⟩
  · intro id' task htask
    obtain ⟨old, hold, -⟩ := hrow id' task htask
    exact h.known id' old hold
  · intro id' task htask hcurrent
    obtain ⟨old, hold, rfl | rfl⟩ := hrow id' task htask
    · exact h.aborted id' _ hold hcurrent
    · exact hf old (h.aborted id' old hold hcurrent)
  · have hsome : ∀ id', ((s.tasks.adjust id f).lookup id').isSome = (s.tasks.lookup id').isSome := by
      intro id'
      rw [AList.lookup_adjust]
      split_ifs with hid
      · rw [hid, Option.isSome_map]
      · rfl
    simp only [hsome]
    exact h.busy

theorem CallsOk.abortSearch (h : CallsOk s) : CallsOk s.abortSearch := by
  unfold Dashboard.abortSearch
  split
  · exact h
  · exact h.adjust (f := fun task => { task with aborted := true }) fun _ _ => rfl

/-- An aborted dashboard goes on with aborted calls only. -/
theorem aborted_abortSearch (h : CallsOk s)
    (htask : s.abortSearch.tasks.lookup id = some task) : task.aborted = true := by
  unfold Dashboard.abortSearch at htask
  cases hcontroller : s.searchController with
  | none =>
    rw [hcontroller] at htask
    exact h.aborted id task htask (by simp [hcontroller])
  | some controller =>
    rw [hcontroller] at htask
    simp only [AList.lookup_adjust] at htask
    split_ifs at htask with hid
    · obtain ⟨old, -, rfl⟩ := Option.map_eq_some_iff.mp htask
      rfl
    · exact h.aborted id task htask (by simp [hcontroller, Ne.symm hid])

/-- An abort changes none of the calls that have ended, and nothing that is on display. -/
theorem abortSearch_frame (s : Dashboard) :
    s.abortSearch.page = s.page ∧ s.abortSearch.expandedHash = s.expandedHash ∧
      s.abortSearch.searchController = s.searchController ∧
      s.abortSearch.nextController = s.nextController ∧
      ∀ id, s.tasks.lookup id = none → s.abortSearch.tasks.lookup id = none := by
  unfold Dashboard.abortSearch
  split
  · exact ⟨rfl, rfl, rfl, rfl, fun _ => id⟩
  · refine ⟨rfl, rfl, rfl, rfl, fun id hid => ?_⟩
    simp only [AList.lookup_adjust]
    split_ifs with heq
    · rw [← heq, hid]
      rfl
    · exact hid

/-- `search` shows an error, or it aborts the call before it and makes its own the current one. -/
theorem search_cases (s : Dashboard) (controls : Controls) :
    (∃ status, s.search controls = { s with status }) ∨
    ∃ request, s.search controls = { s.abortSearch with
      searchController := some s.nextController
      searchBusy := true
      status := {}
      tasks := s.abortSearch.tasks.insert s.nextController { request }
      nextController := s.nextController + 1 } := by
  unfold Dashboard.search
  have hnext := (abortSearch_frame s).2.2.2.1
  cases buildSearchRequest controls s.offset with
  | error message => exact .inl ⟨_, rfl⟩
  | ok request => exact .inr ⟨request, by simp only [hnext]⟩

theorem CallsOk.search (h : CallsOk s) : CallsOk (s.search controls) := by
  obtain ⟨status, heq⟩ | ⟨request, heq⟩ := search_cases s controls
  · rw [heq]
    exact h.congr rfl rfl rfl rfl
  · rw [heq]
    have haborted := h.abortSearch
    have hnext := (abortSearch_frame s).2.2.2.1
    have hrow : ∀ id task, (s.abortSearch.tasks.insert s.nextController { request }).lookup id =
        some task → id = s.nextController ∨ s.abortSearch.tasks.lookup id = some task := by
      intro id task htask
      rw [AList.lookup_insert_eq] at htask
      split_ifs at htask with hid
      · exact .inl hid
      · exact .inr htask
    refine ⟨?_, ?_, ?_, ?_⟩
    · intro id task htask
      simp only at htask ⊢
      rcases hrow id task htask with rfl | hold
      · omega
      · have := haborted.known id task hold
        omega
    · intro id hid
      simp only [Option.some.injEq] at hid ⊢
      omega
    · intro id task htask hcurrent
      simp only [ne_eq, Option.some.injEq] at htask hcurrent
      rcases hrow id task htask with rfl | hold
      · exact absurd rfl hcurrent
      · exact aborted_abortSearch h hold
    · simp [AList.lookup_insert_eq]

theorem CallsOk.finish (h : CallsOk s) : CallsOk (s.finish id) := by
  have hrow : ∀ id' task, (s.tasks.erase id).lookup id' = some task →
      id' ≠ id ∧ s.tasks.lookup id' = some task := by
    intro id' task htask
    rw [AList.lookup_erase_eq] at htask
    split_ifs at htask with hid
    exact ⟨hid, htask⟩
  refine ⟨fun id' task htask => h.known id' task (hrow id' task htask).2, h.current,
    fun id' task htask => h.aborted id' task (hrow id' task htask).2, ?_⟩
  by_cases hcurrent : s.searchController = some id
  · simp [Dashboard.finish, hcurrent, AList.lookup_erase_eq]
  · simp only [Dashboard.finish, if_neg hcurrent, AList.lookup_erase_eq]
    rw [h.busy]
    refine exists_congr fun id' => and_congr_right fun hid' => ?_
    rw [if_neg]
    rintro rfl
    exact hcurrent hid'

/-- A call that goes on awaits something else. -/
theorem CallsOk.insert (h : CallsOk s) (htask : s.tasks.lookup id = some task) {new : SearchTask}
    (hnew : new.aborted = task.aborted) :
    CallsOk { s with tasks := s.tasks.insert id new } := by
  have hrow : ∀ id' task', (s.tasks.insert id new).lookup id' = some task' →
      ∃ old, s.tasks.lookup id' = some old ∧ task'.aborted = old.aborted := by
    intro id' task' htask'
    rw [AList.lookup_insert_eq] at htask'
    split_ifs at htask' with hid
    · cases htask'
      exact ⟨task, hid ▸ htask, hnew⟩
    · exact ⟨task', htask', rfl⟩
  refine ⟨?_, h.current, ?_, ?_⟩
  · intro id' task' htask'
    obtain ⟨old, hold, -⟩ := hrow id' task' htask'
    exact h.known id' old hold
  · intro id' task' htask' hcurrent
    obtain ⟨old, hold, haborted⟩ := hrow id' task' htask'
    rw [haborted]
    exact h.aborted id' old hold hcurrent
  · have hsome : ∀ id', ((s.tasks.insert id new).lookup id').isSome =
        (s.tasks.lookup id').isSome := by
      intro id'
      rw [AList.lookup_insert_eq]
      split_ifs with hid
      · rw [hid, htask]
        rfl
      · rfl
    simp only [hsome]
    exact h.busy

theorem CallsOk.prepare (h : CallsOk s) (hprepare : s.prepare trigger = some t) : CallsOk t := by
  cases trigger with
  | popstate offset =>
    cases hprepare
    exact h.abortSearch.congr rfl rfl rfl rfl
  | nextPage =>
    simp only [Dashboard.prepare] at hprepare
    split_ifs at hprepare
    cases hprepare
    exact h.congr rfl rfl rfl rfl
  | _ =>
    cases hprepare
    exact h.congr rfl rfl rfl rfl

end Calls

/-! ## Steps -/

section Steps

variable {formatNumber : Nat → String} {s t : Dashboard} {e : DashboardEvent}

/-- What an event can do: start a call, let one go on, end one with or without its response on
display, or move the expanded card. -/
theorem Dashboard.next_cases (h : s.next formatNumber e = some t) :
    (∃ trigger controls prepared, e = .search trigger controls ∧
      s.prepare trigger = some prepared ∧ t = prepared.search controls) ∨
    (∃ id task stage, s.applies e = none ∧ s.tasks.lookup id = some task ∧
      t = { s with tasks := s.tasks.insert id { task with stage } }) ∨
    (∃ id task data, s.applies e = some ⟨id, task.request, data⟩ ∧
      s.tasks.lookup id = some task ∧ s.searchController = some id ∧
      t = (s.apply formatNumber data).finish id) ∨
    (∃ id status, s.applies e = none ∧ t = { s with status }.finish id) ∨
    ∃ infoHash, s.applies e = none ∧ (s.results.any fun r => r.infoHash == infoHash) = true ∧
      t = { s with
        expandedHash := if s.expandedHash = some infoHash then none else some infoHash } := by
  cases e with
  | search trigger controls =>
    obtain ⟨prepared, hprepared, rfl⟩ := Option.map_eq_some_iff.mp h
    exact .inl ⟨trigger, controls, prepared, rfl, hprepared, rfl⟩
  | response controller ok statusText =>
    simp only [Dashboard.next] at h
    cases htask : s.tasks.lookup controller with
    | none => simp [htask] at h
    | some task =>
      simp only [htask] at h
      by_cases hstage : task.stage = .fetching
      · rw [if_pos hstage] at h
        cases h
        exact .inr (.inl ⟨controller, task, _, rfl, htask, rfl⟩)
      · rw [if_neg hstage] at h
        cases h
  | body controller data =>
    simp only [Dashboard.next] at h
    cases htask : s.tasks.lookup controller with
    | none => simp [htask] at h
    | some task =>
      simp only [htask] at h
      split_ifs at h with hstage hcurrent
      · cases h
        refine .inr (.inr (.inl ⟨controller, task, data, ?_, htask, hcurrent, rfl⟩))
        simp [Dashboard.applies, htask, hstage, hcurrent]
      · cases h
        refine .inr (.inr (.inr (.inl ⟨controller, s.status, ?_, rfl⟩)))
        simp [Dashboard.applies, htask, hcurrent]
  | errorBody controller error =>
    simp only [Dashboard.next] at h
    cases htask : s.tasks.lookup controller with
    | none => simp [htask] at h
    | some task =>
      simp only [htask] at h
      split at h
      · cases h
        exact .inr (.inr (.inr (.inl ⟨controller, _, rfl, rfl⟩)))
      · cases h
  | reject controller failure =>
    simp only [Dashboard.next] at h
    cases htask : s.tasks.lookup controller with
    | none => simp [htask] at h
    | some task =>
      simp only [htask] at h
      split at h
      · cases h
        exact .inr (.inr (.inr (.inl ⟨controller, _, rfl, rfl⟩)))
      · split_ifs at h
        cases h
        exact .inr (.inr (.inr (.inl ⟨controller, s.status, rfl, rfl⟩)))
      · cases h
        exact .inr (.inr (.inr (.inl ⟨controller, _, rfl, rfl⟩)))
  | toggle infoHash =>
    simp only [Dashboard.next] at h
    by_cases hshown : (s.results.any fun r => r.infoHash == infoHash) = true
    · rw [if_pos hshown] at h
      cases h
      exact .inr (.inr (.inr (.inr ⟨infoHash, rfl, hshown, rfl⟩)))
    · rw [if_neg hshown] at h
      cases h

/-- What is on display is the last of the responses put there, in the order of their calls. -/
structure AppliedOk (s : Dashboard) (applied : List Applied) : Prop where
  ended : ∀ a ∈ applied, a.controller < s.nextController ∧ s.tasks.lookup a.controller = none
  before : ∀ a ∈ applied, ∀ id, s.searchController = some id → a.controller ≤ id
  ordered : applied.Pairwise fun a b => a.controller < b.controller
  page : s.page = applied.getLast?.elim ({} : Dashboard).page (·.data.page)
  answered : ∀ a ∈ applied, s.searchController = some a.controller → applied.getLast? = some a

theorem page_search (s : Dashboard) (controls : Controls) : (s.search controls).page = s.page := by
  obtain ⟨status, heq⟩ | ⟨request, heq⟩ := search_cases s controls
  · rw [heq]
    rfl
  · rw [heq]
    exact (abortSearch_frame s).1

theorem prepare_frame {trigger : SearchTrigger} (h : s.prepare trigger = some t) :
    t.page = s.page ∧ (t.expandedHash = s.expandedHash ∨ t.expandedHash = none) ∧
      t.searchController = s.searchController ∧ t.nextController = s.nextController ∧
      ∀ id, s.tasks.lookup id = none → t.tasks.lookup id = none := by
  cases trigger with
  | popstate offset =>
    cases h
    obtain ⟨hpage, -, hcontroller, hnext, htasks⟩ := abortSearch_frame s
    exact ⟨hpage, .inr rfl, hcontroller, hnext, htasks⟩
  | nextPage =>
    simp only [Dashboard.prepare] at h
    split_ifs at h
    cases h
    exact ⟨rfl, .inr rfl, rfl, rfl, fun _ => id⟩
  | load _ | clearChip =>
    cases h
    exact ⟨rfl, .inl rfl, rfl, rfl, fun _ => id⟩
  | _ =>
    cases h
    exact ⟨rfl, .inr rfl, rfl, rfl, fun _ => id⟩

theorem AppliedOk.congr {applied : List Applied} (h : AppliedOk s applied)
    (hcontroller : t.searchController = s.searchController)
    (hnext : t.nextController = s.nextController) (hpage : t.page = s.page)
    (htasks : ∀ id, s.tasks.lookup id = none → t.tasks.lookup id = none) : AppliedOk t applied where
  ended a ha := by
    obtain ⟨hlt, hnone⟩ := h.ended a ha
    exact ⟨hnext ▸ hlt, htasks _ hnone⟩
  before := by rw [hcontroller]; exact h.before
  ordered := h.ordered
  page := by rw [hpage]; exact h.page
  answered := by rw [hcontroller]; exact h.answered

theorem AppliedOk.search {applied : List Applied} (h : AppliedOk s applied) (controls : Controls) :
    AppliedOk (s.search controls) applied := by
  have hpage := (page_search s controls).trans h.page
  obtain ⟨status, heq⟩ | ⟨request, heq⟩ := search_cases s controls
  · rw [heq]
    exact h.congr rfl rfl rfl fun _ => id
  · obtain ⟨-, -, -, -, htasks⟩ := abortSearch_frame s
    rw [heq] at hpage ⊢
    refine ⟨fun a ha => ?_, fun a ha id hid => ?_, h.ordered, hpage, fun a ha hcurrent => ?_⟩
    · obtain ⟨hlt, hnone⟩ := h.ended a ha
      simp only [AList.lookup_insert_eq]
      rw [if_neg (by omega), htasks _ hnone]
      exact ⟨by omega, rfl⟩
    · have hlt := (h.ended a ha).1
      simp only [Option.some.injEq] at hid
      omega
    · -- The new controller is none of the old ones.
      have hlt := (h.ended a ha).1
      simp only [Option.some.injEq] at hcurrent
      omega

theorem AppliedOk.finish {applied : List Applied} (h : AppliedOk s applied) (id : Nat) :
    AppliedOk (s.finish id) applied := by
  refine h.congr rfl rfl rfl fun id' hid' => ?_
  simp only [Dashboard.finish, AList.lookup_erase_eq]
  split_ifs
  · rfl
  · exact hid'

/-- The response of the current call comes after all that were on display before. -/
theorem AppliedOk.apply {applied : List Applied} {id : Nat} {task : SearchTask}
    (h : AppliedOk s applied) (hcalls : CallsOk s) (htask : s.tasks.lookup id = some task)
    (hcurrent : s.searchController = some id) (data : SearchResponse) :
    AppliedOk ((s.apply formatNumber data).finish id) (applied ++ [⟨id, task.request, data⟩]) := by
  have hbefore : ∀ a ∈ applied, a.controller < id := by
    intro a ha
    have hle := h.before a ha id hcurrent
    have hne : a.controller ≠ id := by
      rintro heq
      have hnone := (h.ended a ha).2
      rw [heq, htask] at hnone
      cases hnone
    omega
  have hended := (h.finish id).ended
  refine ⟨?_, ?_, ?_, ?_, ?_⟩
  · intro a ha
    rcases List.mem_append.mp ha with hold | hnew
    · exact hended a hold
    · rw [List.mem_singleton.mp hnew]
      exact ⟨hcalls.current id hcurrent, by simp [Dashboard.finish]⟩
  · intro a ha id' hid'
    have heq : id' = id := Option.some.inj (hid'.symm.trans hcurrent)
    rcases List.mem_append.mp ha with hold | hnew
    · have := hbefore a hold
      omega
    · rw [List.mem_singleton.mp hnew, heq]
  · rw [List.pairwise_append]
    refine ⟨h.ordered, List.pairwise_singleton _ _, fun a ha b hb => ?_⟩
    rw [List.mem_singleton.mp hb]
    exact hbefore a ha
  · rw [List.getLast?_append, List.getLast?_singleton]
    rfl
  · intro a ha hid
    have heq : id = a.controller := Option.some.inj (hcurrent.symm.trans hid)
    rcases List.mem_append.mp ha with hold | hnew
    · have := hbefore a hold
      omega
    · rw [List.mem_singleton.mp hnew, List.getLast?_append, List.getLast?_singleton]
      rfl

/-- What holds of a dashboard and of the responses that were put on display. -/
structure DashboardOk (s : Dashboard) (applied : List Applied) : Prop where
  calls : CallsOk s
  applied : AppliedOk s applied
  expanded : s.ExpandedOk

theorem expandedOk_of_eq (h : s.ExpandedOk) (hresults : t.results = s.results)
    (hexpanded : t.expandedHash = s.expandedHash ∨ t.expandedHash = none) : t.ExpandedOk := by
  intro hash hhash
  rw [hresults]
  rcases hexpanded with heq | hnone
  · exact h hash (heq ▸ hhash)
  · rw [hnone] at hhash
    cases hhash

theorem expandedOk_search (h : s.ExpandedOk) (controls : Controls) :
    (s.search controls).ExpandedOk := by
  refine expandedOk_of_eq h (congrArg Prod.fst (page_search s controls)) (.inl ?_)
  obtain ⟨status, heq⟩ | ⟨request, heq⟩ := search_cases s controls
  · rw [heq]
  · rw [heq]
    exact (abortSearch_frame s).2.1

theorem expandedOk_apply (data : SearchResponse) : (s.apply formatNumber data).ExpandedOk := by
  intro hash hhash
  obtain ⟨-, hmem⟩ := Option.filter_eq_some_iff.mp hhash
  obtain ⟨r, hr, heq⟩ := List.any_eq_true.mp hmem
  exact ⟨r, hr, eq_of_beq heq⟩

theorem DashboardOk.step {applied : List Applied} (h : DashboardOk s applied)
    (hstep : s.next formatNumber e = some t) :
    DashboardOk t (applied ++ (s.applies e).toList) := by
  obtain ⟨trigger, controls, prepared, rfl, hprepare, rfl⟩ |
    ⟨id, task, stage, hnone, htask, rfl⟩ | ⟨id, task, data, hsome, htask, hcurrent, rfl⟩ |
    ⟨id, status, hnone, rfl⟩ | ⟨infoHash, hnone, hshown, rfl⟩ := Dashboard.next_cases hstep
  · have hnone : s.applies (.search trigger controls) = none := rfl
    obtain ⟨hpage, hexpanded, hcontroller, hnext, htasks⟩ := prepare_frame hprepare
    have hprepared : prepared.ExpandedOk :=
      expandedOk_of_eq h.expanded (congrArg Prod.fst hpage) hexpanded
    rw [hnone, Option.toList_none, List.append_nil]
    exact ⟨(h.calls.prepare hprepare).search,
      (h.applied.congr hcontroller hnext hpage htasks).search controls,
      expandedOk_search hprepared controls⟩
  · rw [hnone, Option.toList_none, List.append_nil]
    refine ⟨h.calls.insert htask rfl, h.applied.congr rfl rfl rfl fun id' hid' => ?_,
      expandedOk_of_eq h.expanded rfl (.inl rfl)⟩
    simp only [AList.lookup_insert_eq]
    rw [if_neg]
    · exact hid'
    · rintro rfl
      rw [htask] at hid'
      cases hid'
  · rw [hsome, Option.toList_some]
    have happly : CallsOk (s.apply formatNumber data) := h.calls.congr rfl rfl rfl rfl
    have hexpanded : (s.apply formatNumber data).ExpandedOk := expandedOk_apply data
    exact ⟨happly.finish, h.applied.apply h.calls htask hcurrent data,
      expandedOk_of_eq hexpanded rfl (.inl rfl)⟩
  · rw [hnone, Option.toList_none, List.append_nil]
    have hstatus : CallsOk { s with status } := h.calls.congr rfl rfl rfl rfl
    have hsame : AppliedOk { s with status } applied := h.applied.congr rfl rfl rfl fun _ h => h
    exact ⟨hstatus.finish, hsame.finish id, expandedOk_of_eq h.expanded rfl (.inl rfl)⟩
  · rw [hnone, Option.toList_none, List.append_nil]
    refine ⟨h.calls.congr rfl rfl rfl rfl, h.applied.congr rfl rfl rfl fun _ => id, ?_⟩
    intro hash hhash
    simp only at hhash
    split_ifs at hhash
    cases hhash
    obtain ⟨r, hr, heq⟩ := List.any_eq_true.mp hshown
    exact ⟨r, hr, eq_of_beq heq⟩

end Steps

/-! ## Runs -/

section Runs

variable {formatNumber : Nat → String} {s t : Dashboard} {e : DashboardEvent}
  {es : List DashboardEvent}

abbrev Dashboard.Step (formatNumber : Nat → String) (s : Dashboard) (e : DashboardEvent)
    (t : Dashboard) : Prop := s.next formatNumber e = some t

theorem appliedResponses_concat (h : Run (Dashboard.Step formatNumber) s es t) :
    appliedResponses formatNumber s (es ++ [e]) =
      appliedResponses formatNumber s es ++ (t.applies e).toList := by
  -- Along the run from its first step on; the last event finds the state that the run reached.
  have hplay : ∀ es s, play (Dashboard.next formatNumber) es s = some t →
      appliedResponses formatNumber s (es ++ [e]) =
        appliedResponses formatNumber s es ++ (t.applies e).toList := by
    intro es
    induction es with
    | nil =>
      intro s hs
      cases hs
      rw [List.nil_append, appliedResponses, appliedResponses, List.nil_append]
      cases t.next formatNumber e <;> exact List.append_nil _
    | cons first es ih =>
      intro s hs
      obtain ⟨u, hu, hrest⟩ := Option.bind_eq_some_iff.mp hs
      rw [List.cons_append, appliedResponses, appliedResponses, hu, Option.elim_some,
        Option.elim_some, ih u hrest, List.append_assoc]
  exact hplay es s h.play_eq

theorem dashboardOk_init : DashboardOk {} [] where
  calls := ⟨by simp, by simp, by simp, by simp⟩
  applied := ⟨by simp, by simp, .nil, rfl, by simp⟩
  expanded := by simp [Dashboard.ExpandedOk]

theorem run_dashboardOk (h : Run (Dashboard.Step formatNumber) {} es s) :
    DashboardOk s (appliedResponses formatNumber {} es) := by
  generalize hinit : ({} : Dashboard) = s₀ at h
  induction h with
  | refl =>
    subst hinit
    exact dashboardOk_init
  | snoc hrun hstep ih =>
    rw [appliedResponses_concat hrun]
    exact ih.step hstep

/-- In every run the page on display is the answer to the latest call that was answered while it
was current. Answers come in the order of their calls, a call that is not current any more is
aborted, and the dashboard is busy as long as the current call goes on and no longer. -/
theorem latest_search_wins (h : Run (Dashboard.Step formatNumber) {} es s) :
    (appliedResponses formatNumber {} es).Pairwise (fun a b => a.controller < b.controller) ∧
    s.page = (appliedResponses formatNumber {} es).getLast?.elim ({} : Dashboard).page
      (·.data.page) ∧
    (∀ a ∈ appliedResponses formatNumber {} es, s.searchController = some a.controller →
      s.page = a.data.page ∧ s.searchBusy = false) ∧
    (s.searchBusy = true ↔
      ∃ id, s.searchController = some id ∧ (s.tasks.lookup id).isSome = true) ∧
    (∀ id task, s.tasks.lookup id = some task → s.searchController ≠ some id →
      task.aborted = true) ∧
    ∀ hash, s.expandedHash = some hash → ∃ r ∈ s.results, r.infoHash = hash := by
  obtain ⟨hcalls, happlied, hexpanded⟩ := run_dashboardOk h
  refine ⟨happlied.ordered, happlied.page, fun a ha hcurrent => ⟨?_, ?_⟩, hcalls.busy,
    hcalls.aborted, hexpanded⟩
  · rw [happlied.page, happlied.answered a ha hcurrent]
    rfl
  · rw [Bool.eq_false_iff]
    intro hbusy
    obtain ⟨id, hid, hgoing⟩ := hcalls.busy.mp hbusy
    have heq : id = a.controller := Option.some.inj (hid.symm.trans hcurrent)
    rw [heq, (happlied.ended a ha).2] at hgoing
    cases hgoing

end Runs

/-- Two calls whose responses arrive in the other order. -/
def crossedSearches (first second : SearchResponse) : List DashboardEvent :=
  let controls : Controls := ⟨"ubuntu", "rank", 50, .ok none, .ok none⟩
  [.search .submit controls, .response 0 true "OK",
    .search .submit controls, .response 1 true "OK", .body 1 second, .body 0 first]

/-- A page with one torrent, and with no page after it. -/
def onePage (hash : InfoHash) : SearchResponse :=
  ⟨[⟨hexEncode hash, none, 0, 0, 0, 0, ""⟩], 50, 0, false, "rank"⟩

/-- The answer to the earlier call comes last and is not shown. -/
theorem latest_search_wins_crossed :
    ∃ s, Run (Dashboard.Step Nat.repr) {} (crossedSearches (onePage 1) (onePage 2)) s ∧
      s.page = (onePage 2).page ∧ s.results.map SearchResult.infoHash = [hexEncode 2] := by
  obtain ⟨s, hplay⟩ : ∃ s, play (Dashboard.next Nat.repr)
      (crossedSearches (onePage 1) (onePage 2)) {} = some s := ⟨_, rfl⟩
  have hpage : s.page = (onePage 2).page := (latest_search_wins (play_run hplay)).2.1
  have hresults : s.results = (onePage 2).results := congrArg Prod.fst hpage
  exact ⟨s, play_run hplay, hpage, by rw [hresults]; rfl⟩

end Btfind
