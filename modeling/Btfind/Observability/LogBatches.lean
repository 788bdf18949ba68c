import Btfind.Observability.ExportRules

/-!
# Shipping a batch of log records

When a batch is shipped, each of its records is in an entry of a call that returned, on the log of
its own service. Whatever happens, nothing else is changed and nothing that was shipped is lost.
-/

namespace Btfind

open Program (Triple)

namespace LogExport

/-! ## Groups -/

/-- An entry stands under its service. -/
def Grouped.Has (grouped : Grouped) (service : Service) (entry : LogEntry) : Prop :=
  ∃ group ∈ grouped, group.1 = service ∧ entry ∈ group.2

theorem Grouped.has_cons {group : Service × List LogEntry} {grouped : Grouped}
    {service : Service} {entry : LogEntry} :
    Has (group :: grouped) service entry ↔
      (group.1 = service ∧ entry ∈ group.2) ∨ grouped.Has service entry := by
  simp only [Has, List.mem_cons, or_and_right, exists_or, exists_eq_left]

theorem Grouped.has_append (grouped : Grouped) (service other : Service)
    (entry entry' : LogEntry) : (grouped.append service entry).Has other entry' ↔
      grouped.Has other entry' ∨ (service = other ∧ entry' = entry) := by
  induction grouped with
  | nil =>
    show Has [(service, [entry])] other entry' ↔ _
    rw [has_cons, List.mem_singleton, or_comm]
  | cons group grouped ih =>
    rw [append, has_cons]
    split
    · rename_i heq
      rw [has_cons, List.mem_append, List.mem_singleton, heq]
      tauto
    · rw [has_cons, ih, or_assoc]

end LogExport

namespace Export

open LogExport

/-! ## What a batch leaves as it is -/

/-- Only the logs and the dead letters have grown. -/
structure Extends (v w : ExportWorld) : Prop where
  frame : w = { v with
    deadLetterFile := w.deadLetterFile
    acknowledged := w.acknowledged
    deadLettered := w.deadLettered }
  acknowledged : v.acknowledged ⊆ w.acknowledged
  deadLettered : v.deadLettered ⊆ w.deadLettered

theorem Extends.refl (w : ExportWorld) : Extends w w :=
  ⟨rfl, List.Subset.refl _, List.Subset.refl _⟩

variable {site : ExportSite} {config : ExportConfig} {v w w' : ExportWorld}
  {record : JournalRecord} {entry : LogEntry}

theorem Extends.trans {u : ExportWorld} (h : Extends v u) (h' : Extends u w) : Extends v w := by
  refine ⟨?_, List.Subset.trans h.acknowledged h'.acknowledged,
    List.Subset.trans h.deadLettered h'.deadLettered⟩
  rw [h'.frame, h.frame]

theorem Extends.acknowledge (h : Extends v w) (call : LogCall) :
    Extends v { w with acknowledged := w.acknowledged ++ [call] } := by
  refine ⟨?_, fun c hc => List.mem_append_left _ (h.acknowledged hc), h.deadLettered⟩
  conv => lhs; rw [h.frame]

theorem Extends.deadLetter (h : Extends v w) (file : DeadLetterFile) (record : JournalRecord) :
    Extends v { w with deadLetterFile := file, deadLettered := w.deadLettered ++ [record] } := by
  refine ⟨?_, h.acknowledged, fun r hr => List.mem_append_left _ (h.deadLettered hr)⟩
  conv => lhs; rw [h.frame]

/-! ## Entries -/

/-- The entry stands for the record: it holds the content, or a diagnostic of a record that is too
long and was written to the dead-letter file. -/
def Reports (py : Python) (w : ExportWorld) (record : JournalRecord) (entry : LogEntry) : Prop :=
  ∃ data, entry = ⟨data, stableEntryId py record, millisecondTimestamp record.timestamp⟩ ∧
    (data = dataOf py record ∨ ∃ maxChars : Int, maxChars < (dataOf py record).length ∧
      data = diagnostic py record maxChars ∧ record ∈ w.deadLettered)

theorem Reports.mono {py : Python} (h : Reports py w record entry)
    (hd : w.deadLettered ⊆ w'.deadLettered) : Reports py w' record entry := by
  obtain ⟨data, hentry, hdata⟩ := h
  refine ⟨data, hentry, hdata.imp_right ?_⟩
  rintro ⟨maxChars, hlong, hdiagnostic, hmem⟩
  exact ⟨maxChars, hlong, hdiagnostic, hd hmem⟩

/-- A call that returned holds an entry of the record, on the log of its own service. -/
def Delivered (site : ExportSite) (w : ExportWorld) (record : JournalRecord) : Prop :=
  ∃ call ∈ w.acknowledged, call.logId = logOcid site record.service ∧
    call.subject = record.service ∧ ∃ entry ∈ call.entries, Reports site.py w record entry

theorem Delivered.mono (h : Delivered site w record) (he : Extends w w') :
    Delivered site w' record := by
  obtain ⟨call, hcall, hlog, hsubject, entry, hentry, hreports⟩ := h
  exact ⟨call, he.acknowledged hcall, hlog, hsubject, entry, hentry,
    hreports.mono he.deadLettered⟩

theorem serialise_reports (record : JournalRecord) :
    Triple (Extends v) (serialise site.py config record)
      (fun data w => Extends v w ∧ Reports site.py w record
        ⟨data, stableEntryId site.py record, millisecondTimestamp record.timestamp⟩)
      (fun _ => Extends v) := by
  rw [serialise]
  split
  · exact Triple.pure fun w h => ⟨h, dataOf site.py record, rfl, Or.inl rfl⟩
  · rename_i hlong
    rw [not_le] at hlong
    refine Triple.bind (Q := fun _ w => Extends v w ∧ record ∈ w.deadLettered) ?_ fun _ => ?_
    · rw [writeDeadLetter]
      split
      · exact Triple.raise fun _ h => h
      · refine Exporter.triple_changeFile ?_ (fun _ h => h) (fun _ h => h) fun _ h => h.1
        intro w h
        exact ⟨h.deadLetter _ record, List.mem_append_right _ (List.mem_singleton.mpr rfl)⟩
    · exact Triple.pure fun w h =>
        ⟨h.1, _, rfl, Or.inr ⟨config.maxDataChars, hlong, rfl, h.2⟩⟩

theorem entriesByService_reports (records : List JournalRecord) :
    Triple (Extends v) (entriesByService site.py config records)
      (fun grouped w => Extends v w ∧ ∀ r ∈ records, ∃ entry,
        grouped.Has r.service entry ∧ Reports site.py w r entry)
      (fun _ => Extends v) := by
  refine (Triple.foldlM (fun done (grouped : Grouped) w => Extends v w ∧ ∀ r ∈ done, ∃ entry,
    grouped.Has r.service entry ∧ Reports site.py w r entry) records ?_).weaken
    fun w h => ⟨h, fun r hr => absurd hr List.not_mem_nil⟩
  intro done record rest grouped _
  refine Triple.of_state fun u hu => ?_
  refine Triple.bind ((serialise_reports (v := u) record).consequence
    (fun w hw => hw ▸ Extends.refl u) (fun _ _ h => h) fun _ w h => hu.1.trans h)
    fun data => ?_
  refine Triple.pure fun w hw => ⟨hu.1.trans hw.1, fun r hr => ?_⟩
  obtain hr | hr := List.mem_append.mp hr
  · obtain ⟨entry, hhas, hreports⟩ := hu.2 r hr
    exact ⟨entry, (grouped.has_append _ _ _ _).mpr (Or.inl hhas),
      hreports.mono hw.1.deadLettered⟩
  · cases List.mem_singleton.mp hr
    exact ⟨_, (grouped.has_append _ _ _ _).mpr (Or.inr ⟨rfl, rfl⟩), hw.2⟩

/-! ## Calls -/

/-- An entry is in a call that returned, on the log of a service, if a call may have entries. -/
def Sent (site : ExportSite) (config : ExportConfig) (service : Service) (w : ExportWorld)
    (entry : LogEntry) : Prop :=
  0 ≤ config.maxEntries → ∃ call ∈ w.acknowledged, call.logId = logOcid site service ∧ call.subject = service ∧
    entry ∈ call.entries

theorem Sent.mono {service : Service} (h : Sent site config service w entry)
    (he : Extends w w') : Sent site config service w' entry := by
  intro hsize
  obtain ⟨call, hcall, hrest⟩ := h hsize
  exact ⟨call, he.acknowledged hcall, hrest⟩

/-- The loop over parts of what is to be sent, each of which sends its own part. -/
theorem forM_sends {β : Type} (service : β → Service) (entries : β → List LogEntry)
    {send : β → Exporter Unit} (parts : List β)
    (hsend : ∀ part u, Triple (Extends u) (send part)
      (fun _ w => Extends u w ∧ ∀ e ∈ entries part, Sent site config (service part) w e)
      (fun _ => Extends u)) :
    Triple (Extends v) (parts.forM send)
      (fun _ w => Extends v w ∧
        ∀ part ∈ parts, ∀ e ∈ entries part, Sent site config (service part) w e)
      (fun _ => Extends v) := by
  refine (Triple.forM (fun done w => Extends v w ∧ ∀ part ∈ done, ∀ e ∈ entries part,
    Sent site config (service part) w e) parts ?_).weaken
    fun w h => ⟨h, fun part hpart => absurd hpart List.not_mem_nil⟩
  intro done part rest _
  refine Triple.of_state fun u hu => ?_
  refine (hsend part u).consequence (fun w hw => hw ▸ Extends.refl u) ?_
    fun _ w h => hu.1.trans h
  intro _ w hw
  refine ⟨hu.1.trans hw.1, fun other hother e he => ?_⟩
  obtain hother | hother := List.mem_append.mp hother
  · exact (hu.2 other hother e he).mono hw.1
  · cases List.mem_singleton.mp hother
    exact hw.2 e he

/-- Entries that are sent chunk by chunk are sent. -/
theorem chunks_send {service : Service} {entries : List LogEntry} {chunks : List (List LogEntry)}
    {send : List LogEntry → Exporter Unit}
    (hchunks : 0 ≤ config.maxEntries → chunks.flatten = entries)
    (hsend : ∀ chunk u, Triple (Extends u) (send chunk)
      (fun _ w => Extends u w ∧ ∀ e ∈ chunk, Sent site config service w e)
      (fun _ => Extends u)) :
    Triple (Extends v) (chunks.forM send)
      (fun _ w => Extends v w ∧ ∀ e ∈ entries, Sent site config service w e)
      (fun _ => Extends v) := by
  refine (forM_sends (fun _ => service) id chunks hsend).strengthen fun _ w hw => ?_
  refine ⟨hw.1, fun e he hsize => ?_⟩
  rw [← hchunks hsize, List.mem_flatten] at he
  obtain ⟨chunk, hchunk, he⟩ := he
  exact hw.2 chunk hchunk e he hsize

theorem putLogs_sends (service : Service) (entries : List LogEntry) :
    Triple (Extends v) (putLogs site config (logOcid site service) service entries)
      (fun _ w => Extends v w ∧ ∀ e ∈ entries, Sent site config service w e)
      (fun _ => Extends v) := by
  refine Triple.bind (Exporter.triple_chunked fun _ _ h => h) fun chunks => ?_
  refine Triple.of_pure fun hchunks => chunks_send hchunks fun chunk u => ?_
  refine Triple.bind (Q := fun _ w => Extends u w ∧ ∀ e ∈ chunk, Sent site config service w e)
    (Exporter.triple_call ?_ fun _ _ h => h) fun _ => Triple.pure fun _ h => h
  intro w h
  exact ⟨h.acknowledge _, fun e he _ => ⟨_, List.mem_append_right _ (List.mem_singleton.mpr rfl),
    rfl, rfl, he⟩⟩

theorem shipService_sends (group : Service × List LogEntry) :
    Triple (Extends v) (shipService site config group)
      (fun _ w => Extends v w ∧ ∀ e ∈ group.2, Sent site config group.1 w e)
      (fun _ => Extends v) := by
  rw [shipService]
  split
  · exact Triple.raise fun _ h => h
  refine Triple.bind (Exporter.triple_chunked fun _ _ h => h) fun chunks => ?_
  refine Triple.of_pure fun hchunks => chunks_send hchunks fun chunk u => ?_
  refine Triple.bind (Exporter.triple_checkBudget fun _ _ h => h) fun _ => ?_
  exact Exporter.triple_withRetry (putLogs_sends group.1 chunk) (fun _ _ h => h) _

/-- A batch that is shipped is delivered, unless the calls take no entries. -/
theorem shipLogBatch_delivers (batch : JournalBatch) :
    Triple (Extends v) (shipLogBatch site config batch)
      (fun _ w => Extends v w ∧
        (0 ≤ config.maxEntries → ∀ r ∈ batch.records, Delivered site w r))
      (fun _ => Extends v) := by
  refine Triple.bind (entriesByService_reports batch.records) fun grouped => ?_
  refine Triple.of_state fun u hu => ?_
  refine (forM_sends (v := u) Prod.fst Prod.snd grouped
    fun group _ => shipService_sends group).consequence (fun w hw => hw ▸ Extends.refl u) ?_
    fun _ w h => hu.1.trans h
  intro _ w hw
  refine ⟨hu.1.trans hw.1, fun hsize r hr => ?_⟩
  obtain ⟨entry, ⟨group, hgroup, hservice, hentry⟩, hreports⟩ := hu.2 r hr
  obtain ⟨call, hcall, hlog, hsubject, hin⟩ := hw.2 group hgroup entry hentry hsize
  rw [hservice] at hlog hsubject
  exact ⟨call, hcall, hlog, hsubject, entry, hin, hreports.mono hw.1.deadLettered⟩

end Export

end Btfind
