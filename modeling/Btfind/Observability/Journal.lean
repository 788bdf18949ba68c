import Btfind.Bencode.Text

/-!
# The journal reader

The records that `journalctl` prints, and the batches that the exporter cuts them into. What
Python's own library does with JSON, numbers and times is a parameter.
-/

namespace Btfind

/-- A value of `json.loads`; a float is given by its text. -/
inductive Json
  | null
  | bool (b : Bool)
  | int (n : Int)
  | float (text : String)
  | str (s : String)
  | arr (items : List Json)
  | obj (fields : List (String × Json))

abbrev JsonObject := List (String × Json)

inductive PyError
  | typeError
  | valueError
  | jsonDecodeError
  | overflowError
  | attributeError
  | recursionError
  deriving DecidableEq

/-- `except ValueError`; a `JSONDecodeError` is one. -/
def PyError.isValueError : PyError → Bool
  | .valueError | .jsonDecodeError => true
  | _ => false

/-- What the exporter uses of Python's library. -/
structure Python where
  /-- `json.loads` -/
  loads : String → Except PyError Json
  /-- Compact `json.dumps` with `ensure_ascii=False`. -/
  dumps : Json → String
  /-- Compact `json.dumps`. -/
  dumpsAscii : Json → String
  /-- `int` of a string. -/
  parseInt : String → Except PyError Int
  /-- `int` of a float. -/
  truncate : String → Except PyError Int
  /-- `str` of a float, a list or a dictionary. -/
  repr : Json → String
  /-- `datetime.fromtimestamp` of a number of microseconds, in microseconds. -/
  fromTimestamp : Int → Except PyError Int
  isoformat : Int → String
  /-- `uuid5` in the namespace of URLs. -/
  uuid5 : String → String

namespace Python

def int (py : Python) : Json → Except PyError Int
  | .int n => .ok n
  | .bool b => .ok (if b then 1 else 0)
  | .float text => py.truncate text
  | .str s => py.parseInt s
  | .null | .arr _ | .obj _ => .error .typeError

def str (py : Python) : Json → String
  | .str s => s
  | .int n => toString n
  | .bool b => if b then "True" else "False"
  | .null => "None"
  | value => py.repr value

end Python

/-- `str.isspace` -/
def isSpace (c : Char) : Bool :=
  let n := c.toNat
  (9 ≤ n ∧ n ≤ 13) ∨ (28 ≤ n ∧ n ≤ 32) ∨ n = 0x85 ∨ n = 0xa0 ∨ n = 0x1680 ∨
    (0x2000 ≤ n ∧ n ≤ 0x200a) ∨ n = 0x2028 ∨ n = 0x2029 ∨ n = 0x202f ∨ n = 0x205f ∨ n = 0x3000

inductive Service
  | crawler
  | web
  deriving DecidableEq

def Service.name : Service → String
  | .crawler => "btfind-crawler"
  | .web => "btfind-web"

/-- `UNIT_SERVICES.get` -/
def unitService (unit : String) : Option Service :=
  if unit = "btfind.service" then some .crawler
  else if unit = "btfind-web.service" then some .web
  else none

/-- `IDENTIFIER_SERVICES.get` -/
def identifierService (identifier : String) : Option Service :=
  if identifier = "btfind-crawler" then some .crawler
  else if identifier = "btfind-web" then some .web
  else none

structure JournalRecord where
  cursor : String
  /-- Microseconds since the epoch. -/
  timestamp : Int
  service : Service
  content : JsonObject
  bootId : String
  machineId : String

structure JournalBatch where
  records : List JournalRecord
  cursor : Option String

/-- A line of `journalctl`, and the clock when it is read. -/
structure JournalLine where
  text : String
  now : Int

/-- An element that `bytes` accepts. -/
def Json.byte? : Json → Option UInt8
  | .int n => if 0 ≤ n ∧ n < 256 then some (UInt8.ofNat n.toNat) else none
  | .bool b => some (if b then 1 else 0)
  | _ => none

namespace Journal

/-- `decode_field` -/
def decodeField (py : Python) : Option Json → String
  | none | some .null => ""
  | some (.str s) => s
  | some (.arr items) =>
    match items.mapM Json.byte? with
    | some bytes => fromUtf8Lossy bytes
    | none => py.repr (.arr items)
  | some value => py.str value

/-- `parse_content` -/
def parseContent (py : Python) (message : String) : Except PyError JsonObject :=
  if message = "" then .ok [("message", .str "")]
  else
    match py.loads message with
    | .ok (.obj fields) => .ok fields
    | .ok _ | .error .typeError | .error .jsonDecodeError => .ok [("message", .str message)]
    | .error e => .error e

/-- `parse_timestamp`: text that is no number is replaced by the clock. -/
def parseTimestamp (py : Python) (value : Option Json) (now : Int) : Except PyError Int :=
  match py.parseInt (decodeField py value) with
  | .ok microseconds => py.fromTimestamp microseconds
  | .error e => if e = .typeError ∨ e.isValueError then .ok now else .error e

def serviceFor (py : Python) (raw : JsonObject) (uid : Nat) : Option Service :=
  let rawUid := decodeField py (raw.lookup "_UID")
  if rawUid ≠ "" ∧ rawUid ≠ toString uid then none
  else
    let unit := decodeField py (raw.lookup "_SYSTEMD_USER_UNIT")
    let identifier := decodeField py (raw.lookup "SYSLOG_IDENTIFIER")
    if unit ≠ "" then
      match unitService unit with
      | none => none
      | some service =>
        if identifier ≠ "" ∧ identifierService identifier ≠ some service then none
        else some service
    else identifierService identifier

def normalise (py : Python) (uid : Nat) (raw : JsonObject) (now : Int) :
    Except PyError (Option JournalRecord) :=
  let cursor := decodeField py (raw.lookup "__CURSOR")
  if cursor = "" then .ok none
  else
    match serviceFor py raw uid with
    | none => .ok none
    | some service => do
      let timestamp ← parseTimestamp py (raw.lookup "__REALTIME_TIMESTAMP") now
      let content ← parseContent py (decodeField py (raw.lookup "MESSAGE"))
      return some ⟨cursor, timestamp, service, content,
        decodeField py (raw.lookup "_BOOT_ID"), decodeField py (raw.lookup "_MACHINE_ID")⟩

/-- What the reader takes from a line: the cursor, and the record where it selects one. -/
def readLine (py : Python) (uid : Nat) (line : JournalLine) :
    Except PyError (Option (String × Option JournalRecord)) :=
  if line.text.toList.all isSpace then .ok none
  else
    match py.loads line.text with
    -- A line that is no JSON is skipped; other errors of `json.loads` end the run.
    | .error .jsonDecodeError => .ok none
    | .error e => .error e
    | .ok (.obj raw) =>
      let rawCursor := decodeField py (raw.lookup "__CURSOR")
      if rawCursor = "" then .ok none
      else (normalise py uid raw line.now).map fun record => some (rawCursor, record)
    | .ok _ => .error .attributeError

end Journal

/-! ## Reading batches -/

structure JournalLimits where
  maxBatches : Int
  maxRecords : Int
  maxBytes : Int

/-- The local variables of `read_batches`, with the batches that were yielded. -/
structure JournalReader where
  batch : List JournalRecord
  batchBytes : Int
  batchCursor : Option String
  lastRawCursor : Option String
  yielded : List JournalBatch

/-- How the loop over the lines ends. -/
inductive ReadEnd
  | ended
  | terminated
  | raised (e : PyError)
  deriving DecidableEq

namespace JournalReader

def start (cursor : Option String) : JournalReader := ⟨[], 0, cursor, cursor, []⟩

/-- The cursor of a line that is read. -/
def see (rawCursor : String) (s : JournalReader) : JournalReader :=
  { s with lastRawCursor := some rawCursor }

/-- The record joins the batch. -/
def append (record : JournalRecord) (size : Int) (rawCursor : String) (s : JournalReader) :
    JournalReader :=
  { s with
    batch := s.batch ++ [record]
    batchBytes := s.batchBytes + size
    batchCursor := some rawCursor }

/-- The batch is yielded. -/
def flush (s : JournalReader) : JournalReader :=
  { s with yielded := s.yielded ++ [⟨s.batch, s.batchCursor⟩] }

def reset (cursor : Option String) (s : JournalReader) : JournalReader :=
  { s with batch := [], batchBytes := 0, batchCursor := cursor }

/-- The record does not fit into the batch. -/
def full (limits : JournalLimits) (size : Int) (s : JournalReader) : Prop :=
  s.batch ≠ [] ∧ (limits.maxRecords ≤ s.batch.length ∨ limits.maxBytes < s.batchBytes + size)

instance (limits : JournalLimits) (size : Int) (s : JournalReader) :
    Decidable (s.full limits size) := inferInstanceAs (Decidable (_ ∧ _))

/-- The loop over the lines. The reader stops when it has yielded `max_batches`. -/
def read (py : Python) (uid : Nat) (limits : JournalLimits) (cursor : Option String) :
    List JournalLine → JournalReader → JournalReader × ReadEnd
  | [], s => (s, .ended)
  | line :: lines, s =>
    match Journal.readLine py uid line with
    | .error e => (s, .raised e)
    | .ok none => read py uid limits cursor lines s
    | .ok (some (rawCursor, none)) => read py uid limits cursor lines (s.see rawCursor)
    | .ok (some (rawCursor, some record)) =>
      let s := s.see rawCursor
      let size : Int := line.text.utf8ByteSize
      if s.full limits size then
        let s := s.flush
        if limits.maxBatches ≤ s.yielded.length then (s, .terminated)
        else read py uid limits cursor lines ((s.reset cursor).append record size rawCursor)
      else read py uid limits cursor lines (s.append record size rawCursor)

end JournalReader

namespace Journal

/-- `read_batches` on the lines that `journalctl` prints: the batches it yields, and how the loop
ends. -/
def readBatches (py : Python) (uid : Nat) (limits : JournalLimits) (cursor : Option String)
    (lines : List JournalLine) : List JournalBatch × ReadEnd :=
  let read := JournalReader.read py uid limits cursor lines (.start cursor)
  match read.2 with
  | .ended =>
    -- The last batch takes the cursor along even when it has no records.
    if read.1.batch ≠ [] ∨ read.1.lastRawCursor ≠ cursor then
      (read.1.yielded ++ [⟨read.1.batch, read.1.lastRawCursor⟩], .ended)
    else (read.1.yielded, .ended)
  | stopped => (read.1.yielded, stopped)

end Journal

end Btfind
