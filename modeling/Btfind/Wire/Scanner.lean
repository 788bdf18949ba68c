import Btfind.Bencode.Codec

/-!
# The bencode scanner

`find_bencode_end` and `parse_metadata_response`. The scanner counts items over the
whole value, and its recursion is bounded by the nesting that is still allowed.
-/

namespace Btfind

open Decimal

def utMetadataData : Int := 1

def utMetadataReject : Int := 2

def maxBencodeDepth : Nat := 32

def maxBencodeItems : Nat := 1024

def maxBencodeString : Nat := 1024 * 1024

def usizeMax : Nat := 2 ^ 64 - 1

/-- The position after the digits at `pos`. -/
def skipDigits (data : Bytes) (pos : Nat) : Nat := pos + (digits (data.drop pos)).length

/-- The position after the string at `pos`. -/
def parseString (data : Bytes) (pos : Nat) : Except String Nat :=
  let stop := skipDigits data pos
  let lengthText := digits (data.drop pos)
  if pos = stop ∨ data[stop]? ≠ some ':'.toUInt8 then .error "invalid bencode string length"
  else if 1 < lengthText.length ∧ lengthText.head? = some '0'.toUInt8 then
    .error "non-canonical bencode string length"
  else
    let length := value lengthText
    if usizeMax < length then .error "bencode string length overflow"
    else if maxBencodeString < length then .error "bencode string exceeds limit"
    else if usizeMax < stop + 1 + length then .error "bencode string end overflow"
    else if data.length < stop + 1 + length then .error "truncated bencode string"
    else .ok (stop + 1 + length)

/-- The position after the number whose marker is before `start`. -/
def parseInteger (data : Bytes) (start : Nat) : Except String Nat :=
  let digitsStart := if data[start]? = some '-'.toUInt8 then start + 1 else start
  let stop := skipDigits data digitsStart
  if digitsStart = stop ∨ data[stop]? ≠ some 'e'.toUInt8 then .error "invalid bencode integer"
  else if data[start]? = some '0'.toUInt8 ∧ 1 < stop - start then
    .error "non-canonical bencode integer"
  else .ok (stop + 1)

/-- A position and the number of items seen. -/
abbrev Scan := Nat × Nat

/-- The loop over the entries of a dictionary. Every turn counts an item, so the turns
run out only after the items do. -/
def scanDict (data : Bytes) (one : Scan → Except String Scan) : Nat → Scan → Except String Scan
  | 0, _ => .error "bencode item count exceeds limit"
  | turns + 1, (pos, items) =>
    match data[pos]? with
    | none => .error "unterminated bencode dictionary"
    | some c =>
      if c = 'e'.toUInt8 then .ok (pos + 1, items)
      else
        match parseString data pos with
        | .error e => .error e
        | .ok valuePos =>
          if valuePos = pos then .error "invalid bencode dictionary key"
          else
            match one (valuePos, items) with
            | .error e => .error e
            | .ok scan => scanDict data one turns scan

/-- The loop over the items of a list. -/
def scanList (data : Bytes) (one : Scan → Except String Scan) : Nat → Scan → Except String Scan
  | 0, _ => .error "bencode item count exceeds limit"
  | turns + 1, (pos, items) =>
    match data[pos]? with
    | none => .error "unterminated bencode list"
    | some c =>
      if c = 'e'.toUInt8 then .ok (pos + 1, items)
      else
        match one (pos, items) with
        | .error e => .error e
        | .ok scan => scanList data one turns scan

/-- `parse_one` at a depth that leaves `levels - 1` levels below it. -/
def parseOne (data : Bytes) : Nat → Scan → Except String Scan
  | 0, _ => .error "bencode nesting exceeds limit"
  | levels + 1, (pos, items) =>
    match data[pos]? with
    | none => .error "truncated bencode value"
    | some c =>
      if usizeMax < items + 1 then .error "bencode item count overflow"
      else if maxBencodeItems < items + 1 then .error "bencode item count exceeds limit"
      else if c = 'd'.toUInt8 then
        scanDict data (parseOne data levels) (maxBencodeItems + 1) (pos + 1, items + 1)
      else if c = 'l'.toUInt8 then
        scanList data (parseOne data levels) (maxBencodeItems + 1) (pos + 1, items + 1)
      else if c = 'i'.toUInt8 then (parseInteger data (pos + 1)).map fun stop => (stop, items + 1)
      else if isDigit c then (parseString data pos).map fun stop => (stop, items + 1)
      else .error "invalid bencode type marker"

def findBencodeEnd (data : Bytes) : Except String Nat :=
  (parseOne data (maxBencodeDepth + 1) (0, 0)).map Prod.fst

/-! ## What a success says -/

section Cases

variable {data : Bytes} {pos items stop levels turns : Nat} {scan scan' : Scan}
  {one : Scan → Except String Scan}

theorem parseString_eq_ok_iff : parseString data pos = .ok stop ↔
    pos ≠ skipDigits data pos ∧ data[skipDigits data pos]? = some ':'.toUInt8 ∧
      ¬(1 < (digits (data.drop pos)).length ∧
        (digits (data.drop pos)).head? = some '0'.toUInt8) ∧
      value (digits (data.drop pos)) ≤ maxBencodeString ∧
      skipDigits data pos + 1 + value (digits (data.drop pos)) = stop ∧
      stop ≤ usizeMax ∧ stop ≤ data.length := by
  have husize : maxBencodeString ≤ usizeMax := by decide
  rw [parseString]
  simp only
  constructor
  · intro h
    split at h
    · cases h
    · next hcolon =>
      rw [not_or, not_ne_iff] at hcolon
      split at h
      · cases h
      · next hcanonical =>
        split at h
        · cases h
        · split at h
          · cases h
          · next hlong =>
            split at h
            · cases h
            · next hend =>
              split at h
              · cases h
              · next hroom =>
                cases h
                exact ⟨hcolon.1, hcolon.2, hcanonical, Nat.not_lt.mp hlong, rfl,
                  Nat.not_lt.mp hend, Nat.not_lt.mp hroom⟩
  · rintro ⟨hdigits, hcolon, hcanonical, hlong, rfl, hend, hroom⟩
    rw [if_neg (not_or.mpr ⟨hdigits, not_ne_iff.mpr hcolon⟩), if_neg hcanonical,
      if_neg (by omega), if_neg (by omega), if_neg (by omega), if_neg (by omega)]

/-- The position of the first digit of an integer. -/
def integerDigits (data : Bytes) (start : Nat) : Nat :=
  if data[start]? = some '-'.toUInt8 then start + 1 else start

theorem parseInteger_eq_ok_iff : parseInteger data pos = .ok stop ↔
    integerDigits data pos ≠ skipDigits data (integerDigits data pos) ∧
      data[skipDigits data (integerDigits data pos)]? = some 'e'.toUInt8 ∧
      ¬(data[pos]? = some '0'.toUInt8 ∧
        1 < skipDigits data (integerDigits data pos) - pos) ∧
      skipDigits data (integerDigits data pos) + 1 = stop := by
  rw [parseInteger, ← integerDigits]
  constructor
  · intro h
    split at h
    · cases h
    · next hend =>
      rw [not_or, not_ne_iff] at hend
      split at h
      · cases h
      · next hcanonical =>
        cases h
        exact ⟨hend.1, hend.2, hcanonical, rfl⟩
  · rintro ⟨hdigits, hend, hcanonical, rfl⟩
    rw [if_neg (not_or.mpr ⟨hdigits, not_ne_iff.mpr hend⟩), if_neg hcanonical]

/-- A turn of the loop over a list ends it or reads one value. -/
theorem scanList_cases (h : scanList data one turns (pos, items) = .ok scan') :
    ∃ left, turns = left + 1 ∧ ∃ c, data[pos]? = some c ∧
      ((c = 'e'.toUInt8 ∧ scan' = (pos + 1, items)) ∨
        c ≠ 'e'.toUInt8 ∧ ∃ next, one (pos, items) = .ok next ∧
          scanList data one left next = .ok scan') := by
  cases turns with
  | zero => cases h
  | succ left =>
    refine ⟨left, rfl, ?_⟩
    rw [scanList] at h
    split at h
    · cases h
    · next c hc =>
      refine ⟨c, hc, ?_⟩
      split at h
      · next hclose =>
        cases h
        exact Or.inl ⟨hclose, rfl⟩
      · next hopen =>
        split at h
        · cases h
        · next next' hnext => exact Or.inr ⟨hopen, next', hnext, h⟩

/-- A turn of the loop over a dictionary ends it or reads a key and one value. -/
theorem scanDict_cases (h : scanDict data one turns (pos, items) = .ok scan') :
    ∃ left, turns = left + 1 ∧ ∃ c, data[pos]? = some c ∧
      ((c = 'e'.toUInt8 ∧ scan' = (pos + 1, items)) ∨
        c ≠ 'e'.toUInt8 ∧ ∃ valuePos next, parseString data pos = .ok valuePos ∧
          valuePos ≠ pos ∧ one (valuePos, items) = .ok next ∧
            scanDict data one left next = .ok scan') := by
  cases turns with
  | zero => cases h
  | succ left =>
    refine ⟨left, rfl, ?_⟩
    rw [scanDict] at h
    split at h
    · cases h
    · next c hc =>
      refine ⟨c, hc, ?_⟩
      split at h
      · next hclose =>
        cases h
        exact Or.inl ⟨hclose, rfl⟩
      · next hopen =>
        split at h
        · cases h
        · next valuePos hkey =>
          split at h
          · cases h
          · next hmoved =>
            split at h
            · cases h
            · next next' hnext => exact Or.inr ⟨hopen, valuePos, next', hkey, hmoved, hnext, h⟩

/-- A value is counted, and is then read by its first byte. -/
theorem parseOne_cases (h : parseOne data levels (pos, items) = .ok scan') :
    ∃ below, levels = below + 1 ∧ items + 1 ≤ maxBencodeItems ∧ ∃ c, data[pos]? = some c ∧
      ((c = 'd'.toUInt8 ∧
          scanDict data (parseOne data below) (maxBencodeItems + 1) (pos + 1, items + 1) =
            .ok scan') ∨
        (c = 'l'.toUInt8 ∧
          scanList data (parseOne data below) (maxBencodeItems + 1) (pos + 1, items + 1) =
            .ok scan') ∨
        (c = 'i'.toUInt8 ∧ ∃ stop, parseInteger data (pos + 1) = .ok stop ∧
          scan' = (stop, items + 1)) ∨
        (isDigit c = true ∧ ∃ stop, parseString data pos = .ok stop ∧
          scan' = (stop, items + 1))) := by
  have hstop : ∀ stop : Except String Nat,
      stop.map (fun stop => (stop, items + 1)) = .ok scan' →
        ∃ n, stop = .ok n ∧ scan' = (n, items + 1) := by
    intro stop hstop
    cases stop with
    | error e => cases hstop
    | ok n =>
      cases hstop
      exact ⟨n, rfl, rfl⟩
  cases levels with
  | zero => cases h
  | succ below =>
    rw [parseOne] at h
    split at h
    · cases h
    · next c hc =>
      -- The two limits come first, then the four kinds by their first byte.
      split at h
      · cases h
      · split at h
        · cases h
        · next hroom =>
          refine ⟨below, rfl, Nat.not_lt.mp hroom, c, hc, ?_⟩
          split at h
          · next hmarker => exact Or.inl ⟨hmarker, h⟩
          · split at h
            · next hmarker => exact Or.inr (Or.inl ⟨hmarker, h⟩)
            · split at h
              · next hmarker => exact Or.inr (Or.inr (Or.inl ⟨hmarker, hstop _ h⟩))
              · split at h
                · next hmarker => exact Or.inr (Or.inr (Or.inr ⟨hmarker, hstop _ h⟩))
                · cases h

end Cases

/-! ## Responses -/

def u32OfInt (i : Int) : Option Nat := if 0 ≤ i ∧ i ≤ u32Max then some i.toNat else none

def getU32 (dict : BencodeDict) (key : String) : Option Nat :=
  match dict.get key with
  | some (.int i) => u32OfInt i
  | _ => none

/-- `Result<(u32, u32, Vec<u8>), ()>`: a piece, the total size and the data. -/
abbrev MetadataResponse := Except Unit (Nat × Nat × Bytes)

def parseMetadataResponse (decode : Bytes → Except String BencodeValue) (data : Bytes) :
    Option MetadataResponse :=
  match findBencodeEnd data with
  | .error _ => none
  | .ok dictEnd =>
    match decode (data.take dictEnd) with
    | .ok (.dict dict) =>
      match BencodeDict.get dict "msg_type" with
      | some (.int msgType) =>
        if msgType < 0 ∨ 255 < msgType then none
        else if msgType = utMetadataReject then some (.error ())
        else if msgType ≠ utMetadataData then none
        else
          match getU32 dict "piece", getU32 dict "total_size" with
          | some piece, some totalSize => some (.ok (piece, totalSize, data.drop dictEnd))
          | _, _ => none
      | _ => none
    | _ => none

end Btfind
