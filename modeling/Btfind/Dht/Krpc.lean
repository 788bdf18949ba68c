import Mathlib.Data.String.Basic
import Btfind.Bencode.Codec

/-!
# KRPC messages

The conversions between messages and bencode values, and `to_bytes` and `from_bytes`.
The bencode serializer is a parameter. Maps are lists in the order of their keys.
-/

namespace Btfind

open BencodeValue (keyRank InI64)

inductive KrpcValue
  | bytes (b : Bytes)
  | int (i : Int)
  | list (items : List KrpcValue)
  | dict (entries : List (String × KrpcValue))

abbrev KrpcMap := List (String × KrpcValue)

structure KrpcError where
  code : Int
  description : String

inductive KrpcMessage
  | query (t : Bytes) (y q : String) (a extra : KrpcMap)
  | response (t : Bytes) (y : String) (r extra : KrpcMap)
  | error (t : Bytes) (y : String) (e : KrpcError) (extra : KrpcMap)

/-! ## Values -/

mutual

def krpcToBencode : KrpcValue → BencodeValue
  | .bytes b => .bytes b
  | .int i => .int i
  | .list items => .list (krpcToBencodeItems items)
  | .dict entries => .dict (krpcToBencodeDict [] entries)

def krpcToBencodeItems : List KrpcValue → List BencodeValue
  | [] => []
  | v :: items => krpcToBencode v :: krpcToBencodeItems items

/-- The loop that fills a hash map. -/
def krpcToBencodeDict : BencodeDict → KrpcMap → BencodeDict
  | dict, [] => dict
  | dict, (key, v) :: entries =>
    krpcToBencodeDict (SortedMap.insert keyRank (asBytes key) (krpcToBencode v) dict) entries

end

mutual

def bencodeToKrpc : BencodeValue → KrpcValue
  | .bytes b => .bytes b
  | .int i => .int i
  | .list items => .list (bencodeToKrpcItems items)
  | .dict entries => .dict (bencodeToKrpcMap [] entries)

def bencodeToKrpcItems : List BencodeValue → List KrpcValue
  | [] => []
  | v :: items => bencodeToKrpc v :: bencodeToKrpcItems items

/-- The loop that fills a map; a key that is no text is dropped. -/
def bencodeToKrpcMap : KrpcMap → BencodeDict → KrpcMap
  | map, [] => map
  | map, (key, v) :: entries =>
    match fromUtf8 key with
    | some key => bencodeToKrpcMap (SortedMap.insert id key (bencodeToKrpc v) map) entries
    | none => bencodeToKrpcMap map entries

end

/-! ## Messages -/

/-- `matches!(key, "t" | "y" | "q" | "a" | "r" | "e")` -/
def isReserved (key : String) : Bool :=
  key = "t" || key = "y" || key = "q" || key = "a" || key = "r" || key = "e"

/-- `dict.insert(key.as_bytes().to_vec(), value)` -/
def BencodeDict.put (key : String) (v : BencodeValue) (dict : BencodeDict) : BencodeDict :=
  SortedMap.insert keyRank (asBytes key) v dict

def insertExtra (dict : BencodeDict) (extra : KrpcMap) : BencodeDict :=
  extra.foldl (fun dict e =>
    if isReserved e.1 then dict else dict.put e.1 (krpcToBencode e.2)) dict

/-- The closure of `collect_extra`. -/
def collectEntry (e : Bytes × BencodeValue) : Option (String × KrpcValue) :=
  match fromUtf8 e.1 with
  | some key => if isReserved key then none else some (key, bencodeToKrpc e.2)
  | none => none

def collectExtra (dict : BencodeDict) : KrpcMap :=
  SortedMap.insertAll id [] (dict.filterMap collectEntry)

def getBytes (dict : BencodeDict) (key : String) : Option Bytes :=
  match dict.get key with
  | some (.bytes b) => some b
  | _ => none

def getString (dict : BencodeDict) (key : String) : Option String :=
  (getBytes dict key).map fromUtf8Lossy

def getDict (dict : BencodeDict) (key : String) : Option BencodeDict :=
  match dict.get key with
  | some (.dict d) => some d
  | _ => none

def getList (dict : BencodeDict) (key : String) : Option (List BencodeValue) :=
  match dict.get key with
  | some (.list items) => some items
  | _ => none

namespace KrpcMessage

/-- The dictionary that `to_bytes` serializes. -/
def toDict : KrpcMessage → BencodeDict
  | .query t y q a extra =>
    let dict := BencodeDict.put "t" (.bytes t) []
    let dict := insertExtra dict extra
    let dict := dict.put "y" (.bytes (asBytes y))
    let dict := dict.put "q" (.bytes (asBytes q))
    dict.put "a" (.dict (krpcToBencodeDict [] a))
  | .response t y r extra =>
    let dict := BencodeDict.put "t" (.bytes t) []
    let dict := insertExtra dict extra
    let dict := dict.put "y" (.bytes (asBytes y))
    dict.put "r" (.dict (krpcToBencodeDict [] r))
  | .error t y e extra =>
    let dict := BencodeDict.put "t" (.bytes t) []
    let dict := insertExtra dict extra
    let dict := dict.put "y" (.bytes (asBytes y))
    dict.put "e" (.list [.int e.code, .bytes (asBytes e.description)])

def toBytes (encode : BencodeValue → Bytes) (m : KrpcMessage) : Bytes := encode (.dict m.toDict)

/-- `Option::ok_or` -/
def okOr {α : Type} (o : Option α) (e : String) : Except String α :=
  match o with
  | some a => .ok a
  | none => .error e

/-- The error of an `e` list. -/
def parseError : List BencodeValue → Except String KrpcError
  | .int code :: .bytes b :: _ => .ok ⟨code, fromUtf8Lossy b⟩
  | .int code :: _ => .ok ⟨code, "unknown error"⟩
  | _ => .error "invalid error code"

/-- `from_bytes` after the top-level dictionary is decoded. -/
def fromDict (dict : BencodeDict) : Except String KrpcMessage := do
  let t ← okOr (getBytes dict "t") "missing t"
  let y ← okOr (getString dict "y") "missing y"
  let extra := collectExtra dict
  if y = "q" then
    let q ← okOr (getString dict "q") "missing q"
    return .query t y q (bencodeToKrpcMap [] ((getDict dict "a").getD [])) extra
  else if y = "r" then
    return .response t y (bencodeToKrpcMap [] ((getDict dict "r").getD [])) extra
  else if y = "e" then
    let e ← parseError (← okOr (getList dict "e") "missing e")
    return .error t y e extra
  else .error s!"unknown message type: {y}"

def fromBytes (decode : Bytes → Except String BencodeValue) (data : Bytes) :
    Except String KrpcMessage :=
  match decode data with
  | .error e => .error s!"bencode decode error: {e}"
  | .ok (.dict dict) => fromDict dict
  | .ok _ => .error "top-level value is not a dict"

def y : KrpcMessage → String
  | .query _ y _ _ _ => y
  | .response _ y _ _ => y
  | .error _ y _ _ => y

def extra : KrpcMessage → KrpcMap
  | .query _ _ _ _ extra => extra
  | .response _ _ _ extra => extra
  | .error _ _ _ extra => extra

/-- The tag of the variant. -/
def tag : KrpcMessage → String
  | .query .. => "q"
  | .response .. => "r"
  | .error .. => "e"

end KrpcMessage

end Btfind
