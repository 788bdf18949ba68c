import Btfind.Observability.Exporter

/-!
# Log entries

A record becomes an entry of the log of its own service. A record that is too long is written to
the dead-letter file, and a diagnostic takes its place.
-/

namespace Btfind

namespace LogExport

open Program (raise modify)

def stableEntryId (py : Python) (record : JournalRecord) : String :=
  let identity := record.machineId ++ ":" ++ record.bootId ++ ":" ++ record.cursor
  py.uuid5 ("btfind:" ++ identity)

def millisecondTimestamp (timestamp : Int) : Int := timestamp - timestamp % 1000

/-- The text of a record's content. -/
def dataOf (py : Python) (record : JournalRecord) : String := py.dumps (.obj record.content)

/-- The entry of a record that is too long. -/
def diagnostic (py : Python) (record : JournalRecord) (maxChars : Int) : String :=
  py.dumpsAscii (.obj
    [("event", .str "log_entry_oversized"), ("reason", .str "data_limit"),
      ("original_chars", .int (dataOf py record).length), ("max_chars", .int maxChars),
      ("cursor_id", .str (stableEntryId py record))])

def deadLetterLine (py : Python) (record : JournalRecord) (dataChars : Nat) : String :=
  py.dumpsAscii (.obj
    [("cursor", .str record.cursor), ("timestamp", .str (py.isoformat record.timestamp)),
      ("service", .str record.service.name), ("data_chars", .int dataChars),
      ("content", .obj record.content)])

def bytesOf (lines : List String) : Nat := (lines.map fun line => line.utf8ByteSize + 1).sum

/-- The line is appended; a file that would be too long is moved away first. -/
def DeadLetterFile.write (limit : Int) (line : String) (file : DeadLetterFile) : DeadLetterFile :=
  if file.lines ≠ [] ∧ limit < bytesOf file.lines + (line.utf8ByteSize + 1) then
    ⟨[line], file.lines⟩
  else ⟨file.lines ++ [line], file.backup⟩

def writeDeadLetter (py : Python) (config : ExportConfig) (record : JournalRecord)
    (dataChars : Nat) : Exporter Unit :=
  let limit := config.maxDeadLetterBytes
  let line := deadLetterLine py record dataChars
  if limit < line.utf8ByteSize + 1 then raise .deadLetter
  else
    Exporter.changeFile .deadLetter fun w =>
      { w with
        deadLetterFile := DeadLetterFile.write limit line w.deadLetterFile
        deadLettered := w.deadLettered ++ [record] }

def serialise (py : Python) (config : ExportConfig) (record : JournalRecord) :
    Exporter String :=
  let data := dataOf py record
  if data.length ≤ config.maxDataChars then pure data
  else do
    writeDeadLetter py config record data.length
    return diagnostic py record config.maxDataChars

/-- The entries of each service, the services in the order of their first records. -/
abbrev Grouped := List (Service × List LogEntry)

/-- `grouped.setdefault(service, []).append(entry)` -/
def Grouped.append (service : Service) (entry : LogEntry) : Grouped → Grouped
  | [] => [(service, [entry])]
  | (other, entries) :: grouped =>
    if other = service then (other, entries ++ [entry]) :: grouped
    else (other, entries) :: Grouped.append service entry grouped

/-- One turn of the loop of `entries_by_service`. -/
def addEntry (py : Python) (config : ExportConfig) (grouped : Grouped) (record : JournalRecord) :
    Exporter Grouped := do
  let data ← serialise py config record
  return grouped.append record.service
    ⟨data, stableEntryId py record, millisecondTimestamp record.timestamp⟩

def entriesByService (py : Python) (config : ExportConfig) (records : List JournalRecord) :
    Exporter Grouped :=
  records.foldlM (addEntry py config) []

def putLogs (site : ExportSite) (config : ExportConfig) (logId : String) (service : Service)
    (entries : List LogEntry) : Exporter Unit := do
  let chunks ← Exporter.chunked entries config.maxEntries
  chunks.forM fun chunk => do
    let _ ← Exporter.call fun w =>
      { w with
        acknowledged := w.acknowledged ++ [⟨logId, service, site.instanceName, chunk⟩] }

end LogExport

end Btfind
