import Mathlib.Algebra.BigOperators.Group.List.Basic
import Mathlib.Algebra.Ring.Int.Defs
import Btfind.Library.Batches
import Btfind.Observability.Journal

/-!
# What the reader yields

The reader cuts the records that it selects into batches, and stops when it has yielded as many as
it may. The cursor of a batch stands after the last record of the batch and before the next one, so
a reading that starts there goes on with the batches that were to follow.
-/

namespace Btfind

/-- A line whose record is selected. -/
structure SelectedLine where
  cursor : String
  record : JournalRecord
  size : Int

/-- A reader that yields nothing more than `max_batches`; it yields one batch at least. -/
def JournalLimits.most (limits : JournalLimits) : Nat := max 1 limits.maxBatches.toNat

namespace Journal

/-! ## Lines -/

/-- The cursor of a line that is read. -/
def cursorOf (py : Python) (uid : Nat) (line : JournalLine) : Option String :=
  match readLine py uid line with
  | .ok (some (cursor, _)) => some cursor
  | _ => none

/-- The record that a line selects. -/
def recordOf (py : Python) (uid : Nat) (line : JournalLine) : Option JournalRecord :=
  match readLine py uid line with
  | .ok (some (_, record)) => record
  | _ => none

def recordsOf (py : Python) (uid : Nat) (lines : List JournalLine) : List JournalRecord :=
  lines.filterMap (recordOf py uid)

/-- The lines that are selected before the reader fails. -/
def selected (py : Python) (uid : Nat) : List JournalLine → List SelectedLine
  | [] => []
  | line :: lines =>
    match readLine py uid line with
    | .error _ => []
    | .ok (some (cursor, some record)) =>
      ⟨cursor, record, line.text.utf8ByteSize⟩ :: selected py uid lines
    | .ok _ => selected py uid lines

/-- How the loop over the lines ends where it is not cut short. -/
def ending (py : Python) (uid : Nat) : List JournalLine → ReadEnd
  | [] => .ended
  | line :: lines =>
    match readLine py uid line with
    | .error e => .raised e
    | .ok _ => ending py uid lines

/-- The last cursor that is seen. -/
def lastCursor (py : Python) (uid : Nat) : List JournalLine → Option String → Option String
  | [], cursor => cursor
  | line :: lines, cursor =>
    match readLine py uid line with
    | .error _ => cursor
    | .ok none => lastCursor py uid lines cursor
    | .ok (some (rawCursor, _)) => lastCursor py uid lines (some rawCursor)

/-! ## Batches -/

/-- The line does not fit into the batch. -/
def overflows (limits : JournalLimits) (batch : List SelectedLine) (line : SelectedLine) : Bool :=
  limits.maxRecords ≤ batch.length ∨
    limits.maxBytes < (batch.map SelectedLine.size).sum + line.size

/-- The batches of all lines. -/
def cut (py : Python) (uid : Nat) (limits : JournalLimits) (lines : List JournalLine) :
    Batches SelectedLine :=
  Batches.empty.addAll (overflows limits) Batches.never (selected py uid lines)

def toBatch (lines : List SelectedLine) : JournalBatch :=
  ⟨lines.map SelectedLine.record, lines.getLast?.map SelectedLine.cursor⟩

/-- The reader holds these batches. -/
structure Holds (b : Batches SelectedLine) (s : JournalReader) : Prop where
  yielded : s.yielded = b.closed.map toBatch
  batch : s.batch = b.current.map SelectedLine.record
  batchBytes : s.batchBytes = (b.current.map SelectedLine.size).sum
  batchCursor : b.current ≠ [] → s.batchCursor = b.current.getLast?.map SelectedLine.cursor

section Reading

variable {py : Python} {uid : Nat} {limits : JournalLimits} {cursor : Option String}
  {line : JournalLine} {lines : List JournalLine} {s : JournalReader} {b : Batches SelectedLine}
  {x : SelectedLine}

theorem holds_start : Holds .empty (.start cursor) := ⟨rfl, rfl, rfl, fun h => absurd rfl h⟩

theorem Holds.see (h : Holds b s) (rawCursor : String) : Holds b (s.see rawCursor) :=
  ⟨h.yielded, h.batch, h.batchBytes, h.batchCursor⟩

theorem Holds.full_iff (h : Holds b s) :
    s.full limits x.size ↔ b.current ≠ [] ∧ overflows limits b.current x = true := by
  rw [JournalReader.full, h.batch, h.batchBytes, overflows, decide_eq_true_iff, List.length_map,
    ne_eq, List.map_eq_nil_iff]

theorem Holds.append (h : Holds b s) :
    Holds ⟨b.closed, b.current ++ [x]⟩ (s.append x.record x.size x.cursor) where
  yielded := h.yielded
  batch := by
    show s.batch ++ [x.record] = List.map SelectedLine.record (b.current ++ [x])
    rw [h.batch, List.map_append, List.map_singleton]
  batchBytes := by
    show s.batchBytes + x.size = (List.map SelectedLine.size (b.current ++ [x])).sum
    rw [h.batchBytes, List.map_append, List.sum_append, List.map_singleton, List.sum_singleton]
  batchCursor := by
    intro _
    show some x.cursor = (b.current ++ [x]).getLast?.map SelectedLine.cursor
    rw [List.getLast?_concat]
    rfl

theorem Holds.yielded_flush (h : Holds b s) (hne : b.current ≠ []) :
    s.flush.yielded = (b.closed ++ [b.current]).map toBatch := by
  show s.yielded ++ [⟨s.batch, s.batchCursor⟩] = _
  rw [h.yielded, h.batch, h.batchCursor hne, List.map_append]
  rfl

theorem Holds.reset (h : Holds b s) (hne : b.current ≠ []) :
    Holds ⟨b.closed ++ [b.current], [x]⟩
      ((s.flush.reset cursor).append x.record x.size x.cursor) := by
  have hempty : Holds ⟨b.closed ++ [b.current], []⟩ (s.flush.reset cursor) :=
    ⟨h.yielded_flush hne, rfl, rfl, fun h => absurd rfl h⟩
  exact hempty.append

/-- The reader stops with its last batch where the lines come to more batches than it may yield,
and it goes through the lines where they do not. -/
def Reads (limits : JournalLimits) (r : Batches SelectedLine) (stop : ReadEnd)
    (last : Option String) (read : JournalReader × ReadEnd) : Prop :=
  (limits.most ≤ r.closed.length → read.2 = .terminated ∧
    read.1.yielded = (r.closed.take limits.most).map toBatch) ∧
  (r.closed.length < limits.most → read.2 = stop ∧ Holds r read.1 ∧ read.1.lastRawCursor = last)

theorem most_le_iff (n : Nat) : limits.most ≤ n + 1 ↔ limits.maxBatches ≤ (n + 1 : Nat) := by
  rw [JournalLimits.most]
  omega

theorem reads_ended {stop : ReadEnd} (h : Holds b s) (hroom : b.closed.length < limits.most) :
    Reads limits b stop s.lastRawCursor (s, stop) :=
  ⟨fun hle => absurd hle (Nat.not_le.mpr hroom), fun _ => ⟨rfl, h, rfl⟩⟩

/-- A batch is yielded that is the last one. -/
theorem reads_terminated {more : List SelectedLine} {stop : ReadEnd} {last : Option String}
    (h : Holds b s) (hne : b.current ≠ []) (hlast : limits.most = b.closed.length + 1) :
    Reads limits (Batches.addAll (overflows limits) Batches.never more
      ⟨b.closed ++ [b.current], [x]⟩) stop last (s.flush, .terminated) := by
  have hlength : limits.most = (b.closed ++ [b.current]).length := by
    rw [hlast, List.length_append, List.length_singleton]
  rw [Batches.addAll_closed]
  constructor
  · intro _
    refine ⟨rfl, ?_⟩
    rw [hlength, List.take_left, h.yielded_flush hne]
  · intro hlt
    rw [hlength, List.length_append] at hlt
    omega

theorem reads_read (h : Holds b s) (hroom : b.closed.length < limits.most) :
    Reads limits (b.addAll (overflows limits) Batches.never (selected py uid lines))
      (ending py uid lines) (lastCursor py uid lines s.lastRawCursor)
      (JournalReader.read py uid limits cursor lines s) := by
  induction lines generalizing b s with
  | nil => exact reads_ended h hroom
  | cons line lines ih =>
    rw [JournalReader.read, selected, ending, lastCursor]
    cases hline : readLine py uid line with
    | error e =>
      exact reads_ended h hroom
    | ok seen =>
      obtain _ | ⟨rawCursor, _ | record⟩ := seen
      · exact ih h hroom
      · exact ih (h.see rawCursor) hroom
      · let x : SelectedLine := ⟨rawCursor, record, line.text.utf8ByteSize⟩
        have hsee : Holds b (s.see rawCursor) := h.see rawCursor
        have hiff : (s.see rawCursor).full limits x.size ↔
            b.current ≠ [] ∧ overflows limits b.current x = true := hsee.full_iff
        show Reads limits (b.addAll (overflows limits) Batches.never (x :: selected py uid lines))
          _ _ (if (s.see rawCursor).full limits x.size then _ else _)
        rw [Batches.addAll_cons]
        by_cases hfull : b.current ≠ [] ∧ overflows limits b.current x = true
        · rw [if_pos (hiff.mpr hfull), Batches.add_never_of_full hfull.1 hfull.2]
          have hyielded : (s.see rawCursor).flush.yielded.length = b.closed.length + 1 := by
            rw [hsee.yielded_flush hfull.1, List.length_map, List.length_append,
              List.length_singleton]
          show Reads limits _ _ _ (if limits.maxBatches ≤
            ((s.see rawCursor).flush.yielded.length : Int) then _ else _)
          rw [hyielded]
          by_cases hlast : limits.most ≤ b.closed.length + 1
          · rw [if_pos ((most_le_iff _).mp hlast)]
            exact reads_terminated hsee hfull.1 (by omega)
          · rw [if_neg (mt (most_le_iff _).mpr hlast)]
            refine ih (hsee.reset hfull.1) ?_
            rw [List.length_append, List.length_singleton]
            omega
        · rw [if_neg (mt hiff.mp hfull), Batches.add_never_of_fits hfull]
          exact ih hsee.append hroom

/-- The batch of what is left over, which may only carry a cursor. -/
def lastBatch (records : List JournalRecord) (cursor last : Option String) : List JournalBatch :=
  if records ≠ [] ∨ last ≠ cursor then [⟨records, last⟩] else []

theorem most_pos : 0 < limits.most := Nat.lt_of_lt_of_le Nat.zero_lt_one (Nat.le_max_left _ _)

theorem ending_ne_terminated : ending py uid lines ≠ .terminated := by
  induction lines with
  | nil => exact ReadEnd.noConfusion
  | cons line lines ih =>
    rw [ending]
    split
    · exact ReadEnd.noConfusion
    · exact ih

theorem reads_cut (cursor : Option String) : Reads limits (cut py uid limits lines)
    (ending py uid lines) (lastCursor py uid lines cursor)
    (JournalReader.read py uid limits cursor lines (.start cursor)) :=
  reads_read holds_start most_pos

theorem readBatches_of_most (h : limits.most ≤ (cut py uid limits lines).closed.length) :
    readBatches py uid limits cursor lines =
      (((cut py uid limits lines).closed.take limits.most).map toBatch, .terminated) := by
  obtain ⟨hstop, hyielded⟩ := (reads_cut cursor).1 h
  rw [readBatches, hstop, ← hyielded]

theorem readBatches_of_lt (cursor : Option String)
    (h : (cut py uid limits lines).closed.length < limits.most) :
    readBatches py uid limits cursor lines =
      ((cut py uid limits lines).closed.map toBatch ++
        (if ending py uid lines = .ended then
          lastBatch ((cut py uid limits lines).current.map SelectedLine.record) cursor
            (lastCursor py uid lines cursor)
        else []), ending py uid lines) := by
  obtain ⟨hstop, hholds, hlast⟩ := (reads_cut cursor).2 h
  rw [readBatches, hstop, hlast, hholds.batch, hholds.yielded, lastBatch]
  cases hending : ending py uid lines with
  | ended =>
    rw [if_pos rfl]
    show (if _ then _ else _) = _
    by_cases hlast : (cut py uid limits lines).current.map SelectedLine.record ≠ [] ∨
        lastCursor py uid lines cursor ≠ cursor
    · rw [if_pos hlast, if_pos hlast]
    · rw [if_neg hlast, if_neg hlast, List.append_nil]
  | terminated => exact absurd hending ending_ne_terminated
  | raised e =>
    have hne : ReadEnd.raised e ≠ .ended := ReadEnd.noConfusion
    rw [if_neg hne, List.append_nil]

/-! ## Where a batch ends -/

theorem recordsOf_append (xs ys : List JournalLine) :
    recordsOf py uid (xs ++ ys) = recordsOf py uid xs ++ recordsOf py uid ys :=
  List.filterMap_append

theorem recordsOf_cons (line : JournalLine) (lines : List JournalLine) :
    recordsOf py uid (line :: lines) = (recordOf py uid line).toList ++ recordsOf py uid lines := by
  rw [recordsOf, recordsOf, List.filterMap_cons]
  cases recordOf py uid line <;> rfl

/-- All records are selected where the reader does not fail. -/
theorem records_selected (h : ending py uid lines = .ended) :
    (selected py uid lines).map SelectedLine.record = recordsOf py uid lines := by
  induction lines with
  | nil => rfl
  | cons line lines ih =>
    rw [ending] at h
    rw [selected, recordsOf_cons, recordOf]
    cases hline : readLine py uid line with
    | error e =>
      rw [hline] at h
      cases h
    | ok seen =>
      rw [hline] at h
      obtain _ | ⟨rawCursor, _ | record⟩ := seen
      · exact ih h
      · exact ih h
      · exact congrArg (record :: ·) (ih h)

/-- The lines up to one select the records up to `x`, and the lines after it select the rest. -/
def Ends (py : Python) (uid : Nat) (lines : List JournalLine) (taken : List SelectedLine)
    (x : SelectedLine) (rest : List SelectedLine) : Prop :=
  ∃ front line back, lines = front ++ line :: back ∧ cursorOf py uid line = some x.cursor ∧
    recordsOf py uid (front ++ [line]) = (taken ++ [x]).map SelectedLine.record ∧
    selected py uid back = rest ∧ ending py uid back = ending py uid lines ∧
    ∀ cursor, lastCursor py uid lines cursor = lastCursor py uid back (some x.cursor)

variable {taken rest : List SelectedLine}

theorem Ends.cons (h : Ends py uid lines taken x rest) (more : List SelectedLine)
    (hrecord : (recordOf py uid line).toList = more.map SelectedLine.record)
    (hending : ending py uid (line :: lines) = ending py uid lines)
    (hlast : ∀ cursor, ∃ cursor', lastCursor py uid (line :: lines) cursor =
      lastCursor py uid lines cursor') :
    Ends py uid (line :: lines) (more ++ taken) x rest := by
  obtain ⟨front, line', back, hlines, hcursor, hrecords, hrest, hend, hcur⟩ := h
  refine ⟨line :: front, line', back, congrArg (line :: ·) hlines, hcursor, ?_, hrest,
    hend.trans hending.symm, ?_⟩
  · rw [List.cons_append, recordsOf_cons, hrecord, hrecords, ← List.map_append, List.append_assoc]
  · intro cursor
    obtain ⟨cursor', hcursor'⟩ := hlast cursor
    rw [hcursor', hcur]

/-- The line of a record that is selected. -/
theorem selected_split (h : selected py uid lines = taken ++ x :: rest) :
    Ends py uid lines taken x rest := by
  induction lines generalizing taken with
  | nil => exact absurd h.symm (List.append_ne_nil_of_right_ne_nil _ (List.cons_ne_nil _ _))
  | cons line lines ih =>
    rw [selected] at h
    cases hline : readLine py uid line with
    | error e =>
      rw [hline] at h
      exact absurd h.symm (List.append_ne_nil_of_right_ne_nil _ (List.cons_ne_nil _ _))
    | ok seen =>
      rw [hline] at h
      have hending : ending py uid (line :: lines) = ending py uid lines := by
        rw [ending, hline]
      obtain _ | ⟨rawCursor, _ | record⟩ := seen
      · exact (ih h).cons [] (by rw [recordOf, hline]; rfl) hending fun cursor =>
          ⟨cursor, by rw [lastCursor, hline]⟩
      · exact (ih h).cons [] (by rw [recordOf, hline]; rfl) hending fun cursor =>
          ⟨some rawCursor, by rw [lastCursor, hline]⟩
      · have hlast : ∀ cursor, lastCursor py uid (line :: lines) cursor =
            lastCursor py uid lines (some rawCursor) := by
          intro cursor
          rw [lastCursor, hline]
        cases taken with
        | nil =>
          obtain ⟨rfl, hrest⟩ := List.cons.inj h
          refine ⟨[], line, lines, rfl, by rw [cursorOf, hline], ?_, hrest, hending.symm, hlast⟩
          rw [List.nil_append, recordsOf_cons, recordOf, hline]
          rfl
        | cons first taken =>
          obtain ⟨rfl, hrest⟩ := List.cons.inj h
          exact (ih hrest).cons [_] (by rw [recordOf, hline]; rfl) hending fun cursor =>
            ⟨some rawCursor, hlast cursor⟩

/-- Lines without a cursor, such as blank and broken ones. -/
def Silent (py : Python) (uid : Nat) (lines : List JournalLine) : Prop :=
  ∀ line ∈ lines, readLine py uid line = .ok none

theorem silent_cons : Silent py uid (line :: lines) ↔
    readLine py uid line = .ok none ∧ Silent py uid lines := List.forall_mem_cons

theorem Silent.selected (h : Silent py uid lines) : selected py uid lines = [] := by
  induction lines with
  | nil => rfl
  | cons line lines ih =>
    rw [silent_cons] at h
    rw [Journal.selected, h.1]
    exact ih h.2

theorem Silent.ending (h : Silent py uid lines) : ending py uid lines = .ended := by
  induction lines with
  | nil => rfl
  | cons line lines ih =>
    rw [silent_cons] at h
    rw [Journal.ending, h.1]
    exact ih h.2

theorem Silent.lastCursor (h : Silent py uid lines) : lastCursor py uid lines cursor = cursor := by
  induction lines with
  | nil => rfl
  | cons line lines ih =>
    rw [silent_cons] at h
    rw [Journal.lastCursor, h.1]
    exact ih h.2

theorem Silent.cut (h : Silent py uid lines) : cut py uid limits lines = .empty := by
  rw [Journal.cut, h.selected]
  rfl

/-- Nothing is read of silent lines. -/
theorem Silent.readBatches (h : Silent py uid lines) :
    readBatches py uid limits cursor lines = ([], .ended) := by
  have hroom : (Journal.cut py uid limits lines).closed.length < limits.most := by
    rw [h.cut]
    exact most_pos
  rw [readBatches_of_lt cursor hroom, h.cut, h.ending, h.lastCursor, if_pos rfl]
  show (lastBatch [] cursor cursor, ReadEnd.ended) = ([], ReadEnd.ended)
  simp [lastBatch]

/-- The line of the last cursor. -/
theorem lastCursor_split (h : ending py uid lines = .ended) (hloud : ¬Silent py uid lines) :
    ∃ front line back c, lines = front ++ line :: back ∧ cursorOf py uid line = some c ∧
      Silent py uid back ∧ ∀ cursor, lastCursor py uid lines cursor = some c := by
  induction lines with
  | nil => exact absurd (fun line hline => absurd hline List.not_mem_nil) hloud
  | cons line lines ih =>
    rw [ending] at h
    cases hline : readLine py uid line with
    | error e =>
      rw [hline] at h
      cases h
    | ok seen =>
      rw [hline] at h
      by_cases hsilent : Silent py uid lines
      · -- The line itself has the last cursor.
        obtain _ | ⟨rawCursor, record⟩ := seen
        · exact absurd (silent_cons.mpr ⟨hline, hsilent⟩) hloud
        · refine ⟨[], line, lines, rawCursor, rfl, by rw [cursorOf, hline], hsilent, ?_⟩
          intro cursor
          rw [lastCursor, hline]
          exact hsilent.lastCursor
      · obtain ⟨front, line', back, c, hlines, hcursor, hback, hlast⟩ := ih h hsilent
        refine ⟨line :: front, line', back, c, congrArg (line :: ·) hlines, hcursor, hback, ?_⟩
        intro cursor
        rw [lastCursor, hline]
        obtain _ | ⟨rawCursor, record⟩ := seen
        · exact hlast cursor
        · exact hlast _

/-! ## Where a reading can start again -/

theorem items_cut (limits : JournalLimits) :
    (cut py uid limits lines).closed.flatten ++ (cut py uid limits lines).current =
      selected py uid lines :=
  Batches.items_addAll

theorem closed_cut_ne_nil {batch : List SelectedLine}
    (h : batch ∈ (cut py uid limits lines).closed) : batch ≠ [] := by
  have hok : Batches.Ok (fun _ => True) (cut py uid limits lines) :=
    Batches.ok_empty.addAll (fun _ _ => trivial) fun _ _ _ _ _ _ => trivial
  exact (hok.closed batch h).1

theorem records_toBatch (batches : List (List SelectedLine)) :
    (batches.map toBatch).flatMap JournalBatch.records =
      batches.flatten.map SelectedLine.record := by
  rw [List.flatMap_map, List.map_flatten, List.flatMap_def]
  rfl

/-- After a batch that is closed, the lines come to the batches that follow it. -/
theorem closed_split {batch : List SelectedLine} {done later : List (List SelectedLine)}
    (h : (cut py uid limits lines).closed = done ++ batch :: later) :
    ∃ front line back c, lines = front ++ line :: back ∧ cursorOf py uid line = some c ∧
      (toBatch batch).cursor = some c ∧
      (done.map toBatch ++ [toBatch batch]).flatMap JournalBatch.records =
        recordsOf py uid (front ++ [line]) ∧
      cut py uid limits back = ⟨later, (cut py uid limits lines).current⟩ ∧
      ending py uid back = ending py uid lines ∧
      ∀ cursor, lastCursor py uid lines cursor = lastCursor py uid back (some c) := by
  obtain ⟨taken, rest, hlines, htaken, hrest⟩ := Batches.addAll_restart h
  have hmem : batch ∈ (cut py uid limits lines).closed := by
    rw [h]
    exact List.mem_append_right _ List.mem_cons_self
  obtain ⟨first, x, rfl⟩ : ∃ first x, batch = first ++ [x] :=
    (List.eq_nil_or_concat' batch).resolve_left (closed_cut_ne_nil hmem)
  rw [List.nil_append] at htaken
  have hselected : selected py uid lines = (done.flatten ++ first) ++ x :: rest := by
    rw [hlines, htaken]
    simp
  obtain ⟨front, line, back, hsplit, hcursor, hrecords, hback, hend, hlast⟩ :=
    selected_split hselected
  refine ⟨front, line, back, x.cursor, hsplit, hcursor, ?_, ?_, ?_, hend, hlast⟩
  · rw [toBatch, List.getLast?_concat]
    rfl
  · rw [hrecords, ← List.map_singleton, ← List.map_append, records_toBatch]
    simp
  · rw [cut, hback]
    exact hrest

/-- Some record is left over, if there is any. -/
theorem current_cut_ne_nil (h : selected py uid lines ≠ []) :
    (cut py uid limits lines).current ≠ [] := by
  obtain ⟨x, rest, hselected⟩ := List.exists_cons_of_ne_nil h
  rw [cut, hselected, Batches.addAll_cons,
    Batches.add_never_of_fits fun hfull => absurd rfl hfull.1]
  exact Batches.current_addAll_ne_nil (List.cons_ne_nil _ _)

theorem lastBatch_of_ne_nil {records : List JournalRecord} (h : records ≠ [])
    (cursor last : Option String) : lastBatch records cursor last = [⟨records, last⟩] :=
  if_pos (Or.inl h)

theorem lastBatch_split {records : List JournalRecord} {last : Option String}
    {batch : JournalBatch} {more later : List JournalBatch}
    (h : lastBatch records cursor last = more ++ batch :: later) :
    more = [] ∧ later = [] ∧ batch = ⟨records, last⟩ := by
  rw [lastBatch] at h
  split at h
  · cases more with
    | nil =>
      obtain ⟨hbatch, hlater⟩ := List.cons.inj h
      exact ⟨rfl, hlater.symm, hbatch.symm⟩
    | cons first more =>
      have hnil : [] = more ++ batch :: later := (List.cons.inj h).2
      exact absurd hnil.symm (List.append_ne_nil_of_right_ne_nil _ (List.cons_ne_nil _ _))
  · exact absurd h.symm (List.append_ne_nil_of_right_ne_nil _ (List.cons_ne_nil _ _))

/-- What is left over ends at the last cursor. -/
theorem last_split {batch : JournalBatch} {more later : List JournalBatch}
    (hend : ending py uid lines = .ended)
    (h : lastBatch ((cut py uid limits lines).current.map SelectedLine.record) cursor
      (lastCursor py uid lines cursor) = more ++ batch :: later) :
    ∃ front line back c, lines = front ++ line :: back ∧ cursorOf py uid line = some c ∧
      batch.cursor = some c ∧
      ((cut py uid limits lines).closed.map toBatch ++ [batch]).flatMap JournalBatch.records =
        recordsOf py uid (front ++ [line]) ∧ Silent py uid back := by
  have hloud : ¬Silent py uid lines := by
    intro hsilent
    rw [hsilent.cut, hsilent.lastCursor] at h
    have hnil : lastBatch [] cursor cursor = [] := by simp [lastBatch]
    exact List.append_ne_nil_of_right_ne_nil _ (List.cons_ne_nil _ _) (h.symm.trans hnil)
  obtain ⟨-, -, rfl⟩ := lastBatch_split h
  obtain ⟨front, line, back, c, hlines, hcursor, hback, hlast⟩ := lastCursor_split hend hloud
  refine ⟨front, line, back, c, hlines, hcursor, hlast cursor, ?_, hback⟩
  have hnone : recordsOf py uid back = [] := by
    rw [← records_selected hback.ending, hback.selected]
    rfl
  calc ((cut py uid limits lines).closed.map toBatch ++
        [(⟨(cut py uid limits lines).current.map SelectedLine.record,
          lastCursor py uid lines cursor⟩ : JournalBatch)]).flatMap JournalBatch.records
      = (selected py uid lines).map SelectedLine.record := by
        rw [List.flatMap_append, records_toBatch, List.flatMap_singleton, ← List.map_append,
          items_cut]
    _ = recordsOf py uid ((front ++ [line]) ++ back) := by
        rw [records_selected hend, hlines, List.append_assoc, List.singleton_append]
    _ = recordsOf py uid (front ++ [line]) := by
        rw [recordsOf_append, hnone, List.append_nil]

/-- The batches that a reading yields are the first ones of all. -/
theorem prefix_readBatches {more later : List (List SelectedLine)}
    (h : (cut py uid limits lines).closed = later ++ more) (hroom : later.length ≤ limits.most) :
    later.map toBatch <+: (readBatches py uid limits cursor lines).1 := by
  by_cases hmost : limits.most ≤ (cut py uid limits lines).closed.length
  · rw [readBatches_of_most hmost]
    refine List.IsPrefix.map toBatch (List.prefix_take_iff.mpr ⟨?_, hroom⟩)
    rw [h]
    exact List.prefix_append later more
  · rw [readBatches_of_lt cursor (Nat.lt_of_not_le hmost), h, List.map_append, List.append_assoc]
    exact List.prefix_append _ _

/-- A batch ends at a line: the batches so far have the records of the lines up to it, and a reading
that starts after it goes on with the batches that follow. -/
def Resumes (py : Python) (uid : Nat) (limits : JournalLimits) (lines : List JournalLine)
    (stop : ReadEnd) (done : List JournalBatch) (batch : JournalBatch)
    (later : List JournalBatch) : Prop :=
  ∃ front line back c, lines = front ++ line :: back ∧ cursorOf py uid line = some c ∧
    batch.cursor = some c ∧
    (done ++ [batch]).flatMap JournalBatch.records = recordsOf py uid (front ++ [line]) ∧
    later <+: (readBatches py uid limits (some c) back).1 ∧
    (stop ≠ .terminated → readBatches py uid limits (some c) back = (later, stop))

theorem resumes_of_most {batch : JournalBatch} {done later : List JournalBatch}
    (hmost : limits.most ≤ (cut py uid limits lines).closed.length)
    (h : ((cut py uid limits lines).closed.take limits.most).map toBatch =
      done ++ batch :: later) : Resumes py uid limits lines .terminated done batch later := by
  obtain ⟨d, t, htake, rfl, ht⟩ := List.map_eq_append_iff.mp h
  obtain ⟨b, l, rfl, rfl, rfl⟩ := List.map_eq_cons_iff.mp ht
  have hclosed : (cut py uid limits lines).closed =
      d ++ b :: (l ++ (cut py uid limits lines).closed.drop limits.most) := by
    calc (cut py uid limits lines).closed
        = (cut py uid limits lines).closed.take limits.most ++
            (cut py uid limits lines).closed.drop limits.most := (List.take_append_drop _ _).symm
      _ = (d ++ b :: l) ++ (cut py uid limits lines).closed.drop limits.most := by rw [htake]
      _ = _ := by rw [List.append_assoc, List.cons_append]
  have hlength : l.length ≤ limits.most := by
    have htaken := congrArg List.length htake
    rw [List.length_take, List.length_append, List.length_cons] at htaken
    omega
  obtain ⟨front, line, back, c, hlines, hcursor, hbatch, hrecords, hback, -, -⟩ :=
    closed_split hclosed
  exact ⟨front, line, back, c, hlines, hcursor, hbatch, hrecords,
    prefix_readBatches (congrArg Batches.closed hback) hlength, fun hne => absurd rfl hne⟩

theorem resumes_last {batch : JournalBatch} {more later : List JournalBatch}
    (hend : ending py uid lines = .ended)
    (h : lastBatch ((cut py uid limits lines).current.map SelectedLine.record) cursor
      (lastCursor py uid lines cursor) = more ++ batch :: later) :
    Resumes py uid limits lines .ended ((cut py uid limits lines).closed.map toBatch ++ more) batch
      later := by
  obtain ⟨rfl, rfl, -⟩ := lastBatch_split h
  obtain ⟨front, line, back, c, hlines, hcursor, hbatch, hrecords, hback⟩ := last_split hend h
  rw [List.append_nil]
  exact ⟨front, line, back, c, hlines, hcursor, hbatch, hrecords, List.nil_prefix,
    fun _ => hback.readBatches⟩

theorem resumes_closed {batch : List SelectedLine} {done later : List (List SelectedLine)}
    (hlt : (cut py uid limits lines).closed.length < limits.most)
    (h : (cut py uid limits lines).closed = done ++ batch :: later) :
    Resumes py uid limits lines (ending py uid lines) (done.map toBatch) (toBatch batch)
      (later.map toBatch ++ (if ending py uid lines = .ended then
        lastBatch ((cut py uid limits lines).current.map SelectedLine.record) cursor
          (lastCursor py uid lines cursor) else [])) := by
  obtain ⟨front, line, back, c, hlines, hcursor, hbatch, hrecords, hback, hending, hlast⟩ :=
    closed_split h
  have hroom : (cut py uid limits back).closed.length < limits.most := by
    rw [h, List.length_append, List.length_cons] at hlt
    rw [hback]
    show later.length < limits.most
    omega
  have hne : batch ≠ [] :=
    closed_cut_ne_nil (h ▸ List.mem_append_right _ List.mem_cons_self)
  have hselected : selected py uid lines ≠ [] := by
    rw [← items_cut limits, h, List.flatten_append, List.flatten_cons]
    simp [hne]
  have hleft : (cut py uid limits lines).current.map SelectedLine.record ≠ [] := by
    rw [ne_eq, List.map_eq_nil_iff]
    exact current_cut_ne_nil hselected
  have hagain := readBatches_of_lt (some c) hroom
  rw [hback, hending, ← hlast cursor] at hagain
  have hsame : readBatches py uid limits (some c) back = (later.map toBatch ++
      (if ending py uid lines = .ended then
        lastBatch ((cut py uid limits lines).current.map SelectedLine.record) cursor
          (lastCursor py uid lines cursor) else []), ending py uid lines) := by
    rw [hagain, lastBatch_of_ne_nil hleft, lastBatch_of_ne_nil hleft]
  refine ⟨front, line, back, c, hlines, hcursor, hbatch, hrecords, ⟨[], ?_⟩, fun _ => hsame⟩
  rw [List.append_nil, hsame]

/-- A batch that is yielded ends at a line, and a reading that starts after that line goes on with
the batches that follow. -/
theorem readBatches_split {batch : JournalBatch} {done later : List JournalBatch}
    (h : (readBatches py uid limits cursor lines).1 = done ++ batch :: later) :
    Resumes py uid limits lines (readBatches py uid limits cursor lines).2 done batch later := by
  by_cases hmost : limits.most ≤ (cut py uid limits lines).closed.length
  · rw [readBatches_of_most hmost] at h ⊢
    exact resumes_of_most hmost h
  · have hlt := Nat.lt_of_not_le hmost
    rw [readBatches_of_lt cursor hlt] at h ⊢
    obtain ⟨more, rfl, hlast⟩ | ⟨more, hclosed, hrest⟩ := List.append_eq_append_iff.mp h
    · -- The batch is what is left over.
      by_cases hend : ending py uid lines = .ended
      · rw [if_pos hend] at hlast
        rw [hend]
        exact resumes_last hend hlast
      · rw [if_neg hend] at hlast
        exact absurd hlast.symm (List.append_ne_nil_of_right_ne_nil _ (List.cons_ne_nil _ _))
    · cases more with
      | nil =>
        rw [List.append_nil] at hclosed
        by_cases hend : ending py uid lines = .ended
        · rw [if_pos hend] at hrest
          rw [hend, ← hclosed, ← List.append_nil (List.map _ _)]
          exact resumes_last hend hrest.symm
        · rw [if_neg hend] at hrest
          exact absurd hrest (List.cons_ne_nil _ _)
      | cons first more =>
        obtain ⟨rfl, rfl⟩ := List.cons.inj hrest
        obtain ⟨d, t, htake, rfl, ht⟩ := List.map_eq_append_iff.mp hclosed
        obtain ⟨b, l, rfl, rfl, rfl⟩ := List.map_eq_cons_iff.mp ht
        exact resumes_closed hlt htake

/-! ## What is read -/

end Reading

end Journal

end Btfind
