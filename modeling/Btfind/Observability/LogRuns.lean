import Btfind.Observability.LogBatches
import Btfind.Observability.Rereading

/-!
# Logs over runs of the exporter

Reading, a call, a file or the process may fail at any point. Wherever the saved cursor stands, the
records from the start of the reading that began without a cursor up to it are delivered.
-/

namespace Btfind

namespace Export

open Journal (readLine cursorOf recordOf recordsOf readBatches Resumes readBatches_split)
open Program (Triple)

variable {site : ExportSite} {config : ExportConfig}

/-! ## Lines of the journal -/

theorem cursorOf_eq_some {py : Python} {uid : Nat} {line : JournalLine} {c : String} :
    cursorOf py uid line = some c ↔ ∃ record, readLine py uid line = .ok (some (c, record)) := by
  rw [cursorOf]
  constructor
  · intro h
    split at h
    · next hline =>
      cases h
      exact ⟨_, hline⟩
    · cases h
  · rintro ⟨record, hline⟩
    rw [hline]

theorem rawCursor_of_cursorOf {py : Python} {uid : Nat} {line : JournalLine} {c : String}
    (h : cursorOf py uid line = some c) : rawCursor py line.text = some c := by
  obtain ⟨record, hline⟩ := cursorOf_eq_some.mp h
  rw [readLine] at hline
  rw [rawCursor]
  split at hline
  · cases hline
  · next hblank =>
    rw [if_neg hblank]
    split at hline
    · cases hline
    · cases hline
    · next raw hloads =>
      rw [hloads]
      dsimp only at hline ⊢
      split at hline
      · cases hline
      · next hne =>
        rw [if_neg hne]
        cases hnormal : Journal.normalise py uid raw line.now with
        | error e =>
          rw [hnormal] at hline
          cases hline
        | ok r =>
          rw [hnormal] at hline
          cases hline
          rfl
    · cases hline

theorem cursorOf_broken {line : JournalLine} (h : isBroken site.py line.text = true) :
    cursorOf site.py site.uid line = none := by
  rw [isBroken] at h
  split at h
  · next hloads =>
    have hline : readLine site.py site.uid line = .ok none := by
      rw [readLine, hloads]
      split
      · rfl
      · rfl
    rw [cursorOf, hline]
  · cases h

theorem text_of_zipWith {first i : Nat} {clocks : List Int} {line : JournalLine}
    (h : (List.zipWith JournalLine.mk (site.journal.drop first) clocks)[i]? = some line) :
    site.journal[first + i]? = some line.text := by
  rw [List.getElem?_zipWith, List.getElem?_drop] at h
  cases htext : site.journal[first + i]? with
  | none =>
    rw [htext] at h
    cases h
  | some text =>
    rw [htext] at h
    cases hclock : clocks[i]? with
    | none =>
      rw [hclock] at h
      cases h
    | some now =>
      rw [hclock] at h
      cases h
      rfl

/-- A line that is printed with a cursor is a line of the journal, and so are those before it. -/
theorem printed_split {first : Nat} {reading : Reading} {front back : List JournalLine}
    {line : JournalLine} {c : String} (h : printed site first reading = front ++ line :: back)
    (hc : cursorOf site.py site.uid line = some c) :
    ∀ i, ∀ line' ∈ (front ++ [line])[i]?, site.journal[first + i]? = some line'.text := by
  have hprefix : front ++ [line] <+:
      List.zipWith JournalLine.mk (site.journal.drop first) reading.printed := by
    rw [printed, List.append_cons front line back] at h
    obtain ⟨more, hfront, hfragment⟩ | ⟨more, hlines, -⟩ := List.append_eq_append_iff.mp h
    · obtain rfl | ⟨more, last, rfl⟩ := List.eq_nil_or_concat' more
      · exact ⟨[], by rw [List.append_nil, hfront, List.append_nil]⟩
      · -- The line would be the part of a line, which has no cursor.
        rw [← List.append_assoc] at hfront
        obtain ⟨-, hlast⟩ := List.append_inj' hfront rfl
        cases hlast
        have hmem : line ∈
            (reading.fragment.filter fun line => isBroken site.py line.text).toList := by
          rw [hfragment]
          exact List.mem_append_left _ (List.mem_append_right _ (List.mem_singleton.mpr rfl))
        have hbroken := (Option.mem_filter_iff.mp (Option.mem_toList.mp hmem)).2
        rw [cursorOf_broken hbroken] at hc
        cases hc
    · exact ⟨more, hlines.symm⟩
  intro i line' hline
  obtain ⟨hlt, rfl⟩ := List.getElem?_eq_some_iff.mp hline
  exact text_of_zipWith (List.prefix_iff_getElem?.mp hprefix i hlt)

/-! ## What is shipped -/

/-- A text that is a selected record is delivered as it was read at some time. -/
def Shipped (site : ExportSite) (w : ExportWorld) (text : String) : Prop :=
  ∀ now c record, readLine site.py site.uid ⟨text, now⟩ = .ok (some (c, some record)) →
    ∃ now' record', readLine site.py site.uid ⟨text, now'⟩ = .ok (some (c, some record')) ∧
      Delivered site w record'

/-- The lines of the journal from one on and before another. -/
def ShippedLines (site : ExportSite) (w : ExportWorld) (first last : Nat) : Prop :=
  ∀ i text, first ≤ i → i < last → site.journal[i]? = some text → Shipped site w text

/-- The cursor is on a line, and the lines up to it are shipped, from where the reading began that
had no cursor. -/
def ShippedTo (site : ExportSite) (w : ExportWorld) (c : String) : Prop :=
  ∃ first last text, w.restart .logs = some first ∧ first ≤ last ∧
    site.journal[last]? = some text ∧ rawCursor site.py text = some c ∧
    ShippedLines site w first (last + 1)

/-- The saved cursor, if there is one. -/
def Kept (site : ExportSite) (w : ExportWorld) : Prop :=
  ∀ c, w.disk.logs.cursor = some c → ShippedTo site w c

/-- Memory and disk have the same cursor. -/
def Steady (site : ExportSite) (w : ExportWorld) : Prop :=
  w.memory.logs.cursor = w.disk.logs.cursor ∧ Kept site w

/-- Only a save that fails leaves another cursor in memory. -/
def Halted (site : ExportSite) (stop : Stop ExportError) (w : ExportWorld) : Prop :=
  Kept site w ∧ ∀ e, stop = .raised e → e ≠ .os → w.memory.logs.cursor = w.disk.logs.cursor

/-- A reading has shipped its first batches. -/
def Progress (site : ExportSite) (first : Nat) (done : List JournalBatch) (w : ExportWorld) :
    Prop :=
  Steady site w ∧ (∃ start, w.restart .logs = some start ∧ start ≤ first ∧
    ShippedLines site w start first) ∧
  ∀ r ∈ done.flatMap JournalBatch.records, Delivered site w r

section Shipped

variable {v w : ExportWorld} {first last : Nat} {stop : Stop ExportError}
  {done : List JournalBatch}

theorem Halted.of_os (h : Kept site w) : Halted site (.raised .os) w :=
  ⟨h, fun _ he hne => absurd (Stop.raised.inj he).symm hne⟩

theorem Halted.of_died (h : Kept site w) : Halted site .died w := ⟨h, nofun⟩

theorem ShippedLines.mono (h : ShippedLines site v first last)
    (hd : ∀ r, Delivered site v r → Delivered site w r) : ShippedLines site w first last := by
  intro i text hfirst hlast hi now c record hline
  obtain ⟨now', record', hline', hdelivered⟩ := h i text hfirst hlast hi now c record hline
  exact ⟨now', record', hline', hd record' hdelivered⟩

theorem ShippedTo.mono {c : String} (h : ShippedTo site v c)
    (hrestart : w.restart .logs = v.restart .logs)
    (hd : ∀ r, Delivered site v r → Delivered site w r) : ShippedTo site w c := by
  obtain ⟨first, last, text, hfirst, hle, htext, hc, hlines⟩ := h
  exact ⟨first, last, text, hrestart.trans hfirst, hle, htext, hc, hlines.mono hd⟩

/-- What neither reads without a cursor nor saves one. -/
theorem Steady.mono (h : Steady site v) (hmemory : w.memory.logs.cursor = v.memory.logs.cursor)
    (hdisk : w.disk.logs.cursor = v.disk.logs.cursor)
    (hrestart : w.restart .logs = v.restart .logs)
    (hd : ∀ r, Delivered site v r → Delivered site w r) : Steady site w := by
  refine ⟨hmemory.trans (h.1.trans hdisk.symm), fun c hc => ?_⟩
  exact (h.2 c (hdisk.symm.trans hc)).mono hrestart hd

theorem Steady.extends (h : Steady site v) (he : Extends v w) : Steady site w :=
  h.mono (congrArg (fun w => w.memory.logs.cursor) he.frame)
    (congrArg (fun w => w.disk.logs.cursor) he.frame)
    (congrArg (fun w => w.restart .logs) he.frame) fun _ hr => hr.mono he

theorem Steady.recordGap {stream : Stream} {gap : Gap} (h : Steady site w) :
    Steady site { w with memory := w.memory.recordGap stream gap } :=
  h.mono (show ((w.memory.recordGap stream gap).stream .logs).cursor = _ from
    CheckpointState.cursor_recordGap) rfl rfl fun _ hr => hr

/-- A save of the same cursor. -/
theorem Steady.saved (h : Steady site w) (commits : List MetricsCommit) :
    Steady site (saved commits w) :=
  ⟨rfl, fun c hc => h.2 c (h.1.symm.trans hc)⟩

/-- A line whose records are delivered is shipped. -/
theorem shipped_of_line {line : JournalLine}
    (h : ∀ r, recordOf site.py site.uid line = some r → Delivered site w r) :
    Shipped site w line.text := by
  intro now c record hline
  have htext : (⟨line.text, now⟩ : JournalLine).text = line.text := rfl
  obtain ⟨e, he, -⟩ | ⟨hn, -⟩ | ⟨c', hn, -⟩ | ⟨c', r, r', hr, hr', -⟩ :=
    Journal.readLine_cases site.py site.uid htext
  · rw [he] at hline
    cases hline
  · rw [hn] at hline
    cases hline
  · rw [hn] at hline
    cases hline
  · rw [hr] at hline
    cases hline
    exact ⟨line.now, r', hr', h r' (by rw [recordOf, hr'])⟩

/-- A batch that is delivered moves the cursor to its last line. -/
theorem Progress.commit {u : ExportWorld} {cursor : Option String} {lookback : Option Int}
    {reading : Reading} {batch : JournalBatch} {rest : List JournalBatch} {now : Int}
    (hu : Progress site (firstLine site (cursor.filter (· ≠ "")) lookback reading.since) done u)
    (hbatches : batchesOf site config cursor lookback reading = done ++ batch :: rest)
    (he : Extends u v) (hd : ∀ r ∈ batch.records, Delivered site v r) :
    Progress site (firstLine site (cursor.filter (· ≠ "")) lookback reading.since)
      (done ++ [batch])
      (saved [] { v with memory := v.memory.advance .logs batch.cursor now }) := by
  obtain ⟨-, ⟨start, hstart, hle, hbefore⟩, hdone⟩ := hu
  obtain ⟨front, line, back, c, hlines, hcursor, hc, hrecords, -, -⟩ := readBatches_split hbatches
  have hprinted := printed_split hlines hcursor
  have hrestart : v.restart .logs = some start :=
    (congrArg (fun w => w.restart .logs) he.frame).trans hstart
  have hall : ∀ r ∈ (done ++ [batch]).flatMap JournalBatch.records, Delivered site v r := by
    intro r hr
    rw [List.flatMap_append, List.flatMap_singleton] at hr
    obtain hr | hr := List.mem_append.mp hr
    · exact (hdone r hr).mono he
    · exact hd r hr
  have hlast : (front ++ [line])[front.length]? = some line := List.getElem?_concat_length
  -- The lines before the reading, and then the lines that are read.
  have hshipped : ShippedLines site v start
      (firstLine site (cursor.filter (· ≠ "")) lookback reading.since + front.length + 1) := by
    intro i text hi hilt htext
    by_cases hbeforei : i < firstLine site (cursor.filter (· ≠ "")) lookback reading.since
    · exact hbefore.mono (fun _ hr => hr.mono he) i text hi hbeforei htext
    · obtain ⟨j, rfl⟩ := Nat.exists_eq_add_of_le (Nat.not_lt.mp hbeforei)
      have hj : j < (front ++ [line]).length := by
        rw [List.length_append, List.length_singleton]
        omega
      have hline := hprinted j _ (List.getElem?_eq_getElem hj)
      rw [hline] at htext
      cases htext
      refine shipped_of_line fun r hr => hall r ?_
      rw [hrecords]
      exact List.mem_filterMap.mpr ⟨_, List.getElem_mem hj, hr⟩
  refine ⟨⟨rfl, fun c' hc' => ?_⟩, ⟨start, hrestart, hle, ?_⟩, hall⟩
  · have hcc : some c = some c' := hc.symm.trans hc'
    cases hcc
    exact ⟨start, _, line.text, hrestart, Nat.le_trans hle (Nat.le_add_right _ _),
      hprinted front.length line hlast, rawCursor_of_cursorOf hcursor, hshipped⟩
  · intro i text hi hilt htext
    exact hshipped i text hi (by omega) htext

end Shipped

/-! ## Log runs -/

section Logs

end Logs

/-! ## Metrics runs leave the logs alone -/

section Metrics

/-- What changes nothing but the state of the metrics in memory. -/
theorem Steady.metrics {w : ExportWorld} {memory : CheckpointState} (h : Steady site w)
    (hlogs : memory.logs = w.memory.logs) : Steady site { w with memory := memory } :=
  h.mono (congrArg StreamState.cursor hlogs) rfl rfl fun _ hr => hr

end Metrics

/-! ## All runs -/

def startedLine : String :=
  "\x7b\"__CURSOR\":\"s=1\",\"__REALTIME_TIMESTAMP\":\"1700000000000000\",\"_UID\":\"1000\"," ++
    "\"SYSLOG_IDENTIFIER\":\"btfind-crawler\",\"MESSAGE\":\"started\"\x7d"

def closedLine : String :=
  "\x7b\"__CURSOR\":\"s=2\",\"_UID\":\"0\"," ++
    "\"SYSLOG_IDENTIFIER\":\"sshd\",\"MESSAGE\":\"closed\"\x7d"

/-- Python on the two lines. -/
def startedPython : Python where
  loads text :=
    if text = startedLine then
      .ok (.obj [("__CURSOR", .str "s=1"), ("__REALTIME_TIMESTAMP", .str "1700000000000000"),
        ("_UID", .str "1000"), ("SYSLOG_IDENTIFIER", .str "btfind-crawler"),
        ("MESSAGE", .str "started")])
    else if text = closedLine then
      .ok (.obj [("__CURSOR", .str "s=2"), ("_UID", .str "0"),
        ("SYSLOG_IDENTIFIER", .str "sshd"), ("MESSAGE", .str "closed")])
    else .error .jsonDecodeError
  dumps _ := "\x7b\"message\":\"started\"\x7d"
  dumpsAscii _ := "\x7b\"message\":\"started\"\x7d"
  parseInt text := if text = "1700000000000000" then .ok 1700000000000000 else .error .valueError
  truncate _ := .error .valueError
  repr _ := "\x7b'message': 'started'\x7d"
  fromTimestamp microseconds := .ok microseconds
  isoformat _ := "2023-11-14T22:13:20+00:00"
  uuid5 _ := "ee30c5d9-cac4-5c75-8a84-28c0a4c492f2"

def startedSite : ExportSite :=
  { py := startedPython
    uid := 1000
    instanceName := "vm-sub01"
    crawlerLogOcid := "ocid1.log.crawler"
    webLogOcid := "ocid1.log.web"
    journal := [startedLine, closedLine] }

end Export

end Btfind
