import Mathlib.Data.List.Lex
import Btfind.Bencode.Text
import Btfind.Library.Decimal
import Btfind.Library.SortedMap

/-!
# Bencode values

Decoded values and their canonical encoding. A dictionary is a list of entries; the
dictionary of a value that can exist has its keys in order, each once.
-/

namespace Btfind

open Decimal

inductive BencodeValue
  | bytes (b : Bytes)
  | int (i : Int)
  | list (items : List BencodeValue)
  | dict (entries : List (Bytes × BencodeValue))

abbrev BencodeDict := List (Bytes × BencodeValue)

def BencodeDict.get (dict : BencodeDict) (key : String) : Option BencodeValue :=
  dict.lookup (asBytes key)

namespace BencodeValue

/-- Induction on a value and on what it contains. -/
@[elab_as_elim]
theorem induction {P : BencodeValue → Prop} (bytes : ∀ b, P (.bytes b)) (int : ∀ i, P (.int i))
    (list : ∀ items, (∀ v ∈ items, P v) → P (.list items))
    (dict : ∀ entries, (∀ e ∈ entries, P e.2) → P (.dict entries)) : ∀ v, P v
  | .bytes b => bytes b
  | .int i => int i
  | .list items => list items fun v _ => induction bytes int list dict v
  | .dict entries => dict entries fun e _ => induction bytes int list dict e.2
termination_by v => sizeOf v
decreasing_by
  · have hsize := List.sizeOf_lt_of_mem ‹v ∈ items›
    simp only [BencodeValue.list.sizeOf_spec]
    omega
  · have hsize := List.sizeOf_lt_of_mem ‹e ∈ entries›
    have hpair : sizeOf e.2 < sizeOf e := by
      cases e
      simp only [Prod.mk.sizeOf_spec]
      omega
    simp only [BencodeValue.dict.sizeOf_spec]
    omega

/-- The order of the keys of a dictionary. -/
def keyRank (key : Bytes) : List Nat := key.map UInt8.toNat

theorem keyRank_injective : Function.Injective keyRank :=
  List.map_injective_iff.mpr fun _ _ => UInt8.toNat_inj.mp

def InI64 (i : Int) : Prop := -i64Max - 1 ≤ i ∧ i ≤ i64Max

instance (i : Int) : Decidable (InI64 i) := inferInstanceAs (Decidable (_ ∧ _))

/-- A value that can exist: its numbers are `i64` and its dictionaries are maps. -/
inductive Valid : BencodeValue → Prop
  | bytes (b : Bytes) : Valid (.bytes b)
  | int {i : Int} (h : InI64 i) : Valid (.int i)
  | list {items : List BencodeValue} (h : ∀ v ∈ items, Valid v) : Valid (.list items)
  | dict {entries : List (Bytes × BencodeValue)} (hsorted : SortedMap.Sorted keyRank entries)
      (h : ∀ e ∈ entries, Valid e.2) : Valid (.dict entries)

/-! ## The encoding -/

def encodeBytes (b : Bytes) : Bytes := decimal b.length ++ ':'.toUInt8 :: b

def encodeInt (i : Int) : Bytes :=
  if i < 0 then '-'.toUInt8 :: decimal i.natAbs else decimal i.natAbs

mutual

def encode : BencodeValue → Bytes
  | .bytes b => encodeBytes b
  | .int i => 'i'.toUInt8 :: (encodeInt i ++ ['e'.toUInt8])
  | .list items => 'l'.toUInt8 :: (encodeItems items ++ ['e'.toUInt8])
  | .dict entries => 'd'.toUInt8 :: (encodeEntries entries ++ ['e'.toUInt8])

def encodeItems : List BencodeValue → Bytes
  | [] => []
  | v :: items => encode v ++ encodeItems items

def encodeEntries : List (Bytes × BencodeValue) → Bytes
  | [] => []
  | (key, v) :: entries => encodeBytes key ++ (encode v ++ encodeEntries entries)

end

/-! ## A decoder -/

/-- A text with its length in front, and the bytes after it. -/
def decodeBytes (data : Bytes) : Option (Bytes × Bytes) :=
  let length := value (digits data)
  match data.drop (digits data).length with
  | [] => none
  | c :: rest =>
    if c = ':'.toUInt8 ∧ digits data ≠ [] ∧ length ≤ rest.length then
      some (rest.take length, rest.drop length)
    else none

def decodeDigits (data : Bytes) : Option (Nat × Bytes) :=
  match data.drop (digits data).length with
  | [] => none
  | c :: rest =>
    if c = 'e'.toUInt8 ∧ digits data ≠ [] then some (value (digits data), rest) else none

def decodeInt (data : Bytes) : Option (Int × Bytes) :=
  if data.head? = some '-'.toUInt8 then
    (decodeDigits data.tail).map fun read => (-(read.1 : Int), read.2)
  else (decodeDigits data).map fun read => ((read.1 : Int), read.2)

mutual

def decodeValue : Nat → Bytes → Option (BencodeValue × Bytes)
  | 0, _ => none
  | _ + 1, [] => none
  | fuel + 1, c :: data =>
    if c = 'i'.toUInt8 then
      match decodeInt data with
      | none => none
      | some (i, rest) => if InI64 i then some (.int i, rest) else none
    else if c = 'l'.toUInt8 then
      (decodeItems fuel data).map fun read => (.list read.1, read.2)
    else if c = 'd'.toUInt8 then
      (decodeEntries fuel data).map fun read =>
        (.dict (SortedMap.insertAll keyRank [] read.1), read.2)
    else (decodeBytes (c :: data)).map fun read => (.bytes read.1, read.2)

def decodeItems : Nat → Bytes → Option (List BencodeValue × Bytes)
  | 0, _ => none
  | fuel + 1, data =>
    if data.head? = some 'e'.toUInt8 then some ([], data.tail)
    else
      match decodeValue fuel data with
      | none => none
      | some (v, rest) => (decodeItems fuel rest).map fun read => (v :: read.1, read.2)

def decodeEntries : Nat → Bytes → Option (List (Bytes × BencodeValue) × Bytes)
  | 0, _ => none
  | fuel + 1, data =>
    if data.head? = some 'e'.toUInt8 then some ([], data.tail)
    else
      match decodeBytes data with
      | none => none
      | some (key, rest) =>
        match decodeValue fuel rest with
        | none => none
        | some (v, rest) =>
          (decodeEntries fuel rest).map fun read => ((key, v) :: read.1, read.2)

end

/-- The value at the head of the data. Every turn reads a byte, so their number is
enough fuel. -/
def decode (data : Bytes) : Except String BencodeValue :=
  match decodeValue data.length data with
  | some (v, _) => .ok v
  | none => .error "invalid bencode"

end BencodeValue

end Btfind
