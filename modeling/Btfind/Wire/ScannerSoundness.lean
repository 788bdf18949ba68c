import Btfind.Bencode.Written
import Btfind.Wire.ScannerLimits

/-!
# What the scanner has read

The scanner accepts only the text of one value within its limits, with canonical lengths of
strings and no leading zeros in integers without a sign. It looks for a leading zero before it
has passed the sign, so an integer with a sign may have one.
-/

namespace Btfind

open Decimal BencodeValue

variable {data : Bytes} {pos stop : Nat}

/-! ## Strings and integers -/

theorem drop_skipDigits (data : Bytes) (pos : Nat) :
    digits (data.drop pos) ++ data.drop (skipDigits data pos) = data.drop pos := by
  rw [skipDigits, ← List.drop_drop]
  exact List.prefix_iff_eq_append.mp (List.takeWhile_prefix _)

theorem drop_of_getElem {c : UInt8} (h : data[pos]? = some c) :
    data.drop pos = c :: data.drop (pos + 1) := by
  obtain ⟨hlt, rfl⟩ := List.getElem?_eq_some_iff.mp h
  exact List.drop_eq_getElem_cons hlt

theorem isDigit_of_mem_digits {text : Bytes} {b : UInt8} (h : b ∈ digits text) :
    isDigit b = true := List.mem_takeWhile_imp h

theorem digits_ne_nil (h : pos ≠ skipDigits data pos) : digits (data.drop pos) ≠ [] := by
  intro hnil
  rw [skipDigits, hnil] at h
  exact h rfl

theorem parseString_sound (h : parseString data pos = .ok stop) :
    ∃ b, data.drop pos = encodeBytes b ++ data.drop stop ∧ b.length ≤ maxBencodeString := by
  obtain ⟨hdigits, hcolon, hcanonical, hlong, rfl, -, hroom⟩ := parseString_eq_ok_iff.mp h
  have hne := digits_ne_nil hdigits
  have htext : decimal (value (digits (data.drop pos))) = digits (data.drop pos) := by
    refine decimal_value hne (fun b => isDigit_of_mem_digits) fun hzero => ?_
    have hpos := List.length_pos_iff.mpr hne
    have hle : ¬1 < (digits (data.drop pos)).length := fun hlt => hcanonical ⟨hlt, hzero⟩
    omega
  have hlength : ((data.drop (skipDigits data pos + 1)).take
      (value (digits (data.drop pos)))).length = value (digits (data.drop pos)) := by
    rw [List.length_take, List.length_drop]
    omega
  have hafter : data.drop (skipDigits data pos + 1 + value (digits (data.drop pos))) =
      (data.drop (skipDigits data pos + 1)).drop (value (digits (data.drop pos))) :=
    List.drop_drop.symm
  refine ⟨(data.drop (skipDigits data pos + 1)).take (value (digits (data.drop pos))),
    ?_, by rw [hlength]; exact hlong⟩
  rw [encodeBytes, hlength, htext, List.append_assoc, List.cons_append, hafter,
    List.take_append_drop, ← drop_of_getElem hcolon, drop_skipDigits]

/-- The text of an integer, from the byte after its marker. -/
theorem parseInteger_sound (h : parseInteger data pos = .ok stop) :
    ∃ i : IntText, data.drop pos = i.text ++ 'e'.toUInt8 :: data.drop stop ∧ ¬i.UnsignedZero := by
  obtain ⟨hdigits, hend, hcanonical, rfl⟩ := parseInteger_eq_ok_iff.mp h
  by_cases hsign : data[pos]? = some '-'.toUInt8
  · rw [integerDigits, if_pos hsign] at hdigits hend ⊢
    refine ⟨⟨true, digits (data.drop (pos + 1)), digits_ne_nil hdigits,
      fun b => isDigit_of_mem_digits⟩, ?_, fun hzero => Bool.noConfusion hzero.1⟩
    rw [IntText.text, if_pos rfl, drop_of_getElem hsign, List.cons_append,
      ← drop_of_getElem hend, drop_skipDigits]
  · rw [integerDigits, if_neg hsign] at hdigits hend hcanonical ⊢
    refine ⟨⟨false, digits (data.drop pos), digits_ne_nil hdigits,
      fun b => isDigit_of_mem_digits⟩, ?_, ?_⟩
    · rw [IntText.text, if_neg Bool.false_ne_true, ← drop_of_getElem hend, drop_skipDigits]
    · rintro ⟨-, hzero, hlong⟩
      -- Without a sign the checked byte is the first digit.
      refine hcanonical ⟨?_, ?_⟩
      · rw [← List.head?_drop, ← drop_skipDigits, List.head?_append]
        simp only at hzero
        rw [hzero]
        rfl
      · rw [skipDigits]
        simp only at hlong
        omega

/-! ## Values -/

/-- What one call of the scanner has read. -/
structure Reads (data : Bytes) (levels : Nat) (scan scan' : Scan) (t : Written) : Prop where
  text : data.drop scan.1 = t.write ++ data.drop scan'.1
  items : scan'.2 = scan.2 + t.value.itemCount
  depth : t.value.depth < levels
  strings : t.value.longest ≤ maxBencodeString
  ints : ∀ i ∈ t.ints, ¬i.UnsignedZero

def Sound (data : Bytes) (levels : Nat) (one : Scan → Except String Scan) : Prop :=
  ∀ scan scan', one scan = .ok scan' → ∃ t, Reads data levels scan scan' t

theorem scanList_sound {levels turns : Nat} {one : Scan → Except String Scan}
    (hone : Sound data levels one) {scan scan' : Scan}
    (h : scanList data one turns scan = .ok scan') :
    ∃ ts, data.drop scan.1 = Written.writeItems ts ++ 'e'.toUInt8 :: data.drop scan'.1 ∧
      scan'.2 = scan.2 + countItems (Written.itemValues ts) ∧
      depthItems (Written.itemValues ts) ≤ levels ∧
      longestItem (Written.itemValues ts) ≤ maxBencodeString ∧
      ∀ i ∈ Written.itemInts ts, ¬i.UnsignedZero := by
  induction turns generalizing scan with
  | zero => cases h
  | succ turns ih =>
    obtain ⟨left, hleft, c, hc, ⟨hclose, rfl⟩ | ⟨-, next, hnext, hrest⟩⟩ := scanList_cases h
    · refine ⟨[], ?_, rfl, Nat.zero_le _, Nat.zero_le _, List.forall_mem_nil _⟩
      rw [drop_of_getElem hc, hclose]
      rfl
    · cases hleft
      -- One value, then what the turns that are left read after it.
      obtain ⟨t, ht⟩ := hone _ _ hnext
      obtain ⟨ts, htext, hitems, hdepth, hstrings, hints⟩ := ih hrest
      refine ⟨t :: ts, ?_, ?_, max_le ht.depth hdepth, max_le ht.strings hstrings,
        List.forall_mem_append.mpr ⟨ht.ints, hints⟩⟩
      · rw [ht.text, htext, Written.writeItems, List.append_assoc]
      · rw [hitems, ht.items, Written.itemValues, countItems, Nat.add_assoc]

theorem scanDict_sound {levels turns : Nat} {one : Scan → Except String Scan}
    (hone : Sound data levels one) {scan scan' : Scan}
    (h : scanDict data one turns scan = .ok scan') :
    ∃ es, data.drop scan.1 = Written.writeEntries es ++ 'e'.toUInt8 :: data.drop scan'.1 ∧
      scan'.2 = scan.2 + countEntries (Written.entryValues es) ∧
      depthEntries (Written.entryValues es) ≤ levels ∧
      longestEntry (Written.entryValues es) ≤ maxBencodeString ∧
      ∀ i ∈ Written.entryInts es, ¬i.UnsignedZero := by
  induction turns generalizing scan with
  | zero => cases h
  | succ turns ih =>
    obtain ⟨left, hleft, c, hc, ⟨hclose, rfl⟩ | ⟨-, valuePos, next, hkey, -, hnext, hrest⟩⟩ :=
      scanDict_cases h
    · refine ⟨[], ?_, rfl, Nat.zero_le _, Nat.zero_le _, List.forall_mem_nil _⟩
      rw [drop_of_getElem hc, hclose]
      rfl
    · cases hleft
      obtain ⟨key, hkeyText, hkeyLength⟩ := parseString_sound hkey
      obtain ⟨t, ht⟩ := hone _ _ hnext
      obtain ⟨es, htext, hitems, hdepth, hstrings, hints⟩ := ih hrest
      refine ⟨(key, t) :: es, ?_, ?_, max_le ht.depth hdepth,
        max_le (max_le hkeyLength ht.strings) hstrings,
        List.forall_mem_append.mpr ⟨ht.ints, hints⟩⟩
      · rw [hkeyText, ht.text, htext, Written.writeEntries, List.append_assoc,
          List.append_assoc]
      · rw [hitems, ht.items, Written.entryValues, countEntries, Nat.add_assoc]

theorem parseOne_sound (data : Bytes) (levels : Nat) :
    Sound data levels (parseOne data levels) := by
  induction levels with
  | zero =>
    intro scan scan' h
    cases h
  | succ levels ih =>
    rintro ⟨pos, items⟩ scan' h
    obtain ⟨below, hbelow, -, c, hc, ⟨hmarker, hdict⟩ | ⟨hmarker, hlist⟩ |
      ⟨hmarker, stop, hint, rfl⟩ | ⟨-, stop, hstring, rfl⟩⟩ := parseOne_cases h
    · cases hbelow
      obtain ⟨es, hes, hitems, hdepth, hstrings, hints⟩ := scanDict_sound ih hdict
      refine ⟨.dict es, ?_, ?_, Nat.lt_succ_of_le hdepth, hstrings, hints⟩
      · rw [drop_of_getElem hc, hes, hmarker, Written.write, List.cons_append, List.append_assoc]
        rfl
      · rw [hitems, Written.value, itemCount, Nat.add_assoc]
    · cases hbelow
      obtain ⟨ts, hts, hitems, hdepth, hstrings, hints⟩ := scanList_sound ih hlist
      refine ⟨.list ts, ?_, ?_, Nat.lt_succ_of_le hdepth, hstrings, hints⟩
      · rw [drop_of_getElem hc, hts, hmarker, Written.write, List.cons_append, List.append_assoc]
        rfl
      · rw [hitems, Written.value, itemCount, Nat.add_assoc]
    · obtain ⟨i, hi, hcanonical⟩ := parseInteger_sound hint
      refine ⟨.int i, ?_, rfl, Nat.succ_pos _, Nat.zero_le _, ?_⟩
      · rw [drop_of_getElem hc, hi, hmarker, Written.write, List.cons_append, List.append_assoc]
        rfl
      · intro j hj
        rw [List.mem_singleton.mp hj]
        exact hcanonical
    · obtain ⟨b, hb, hlength⟩ := parseString_sound hstring
      exact ⟨.bytes b, hb, rfl, Nat.succ_pos _, hlength, List.forall_mem_nil _⟩

/-- What is accepted is the text of one value within the limits, in which no integer without a
sign has a leading zero. -/
theorem findBencodeEnd_sound {n : Nat} (h : findBencodeEnd data = .ok n) :
    ∃ t : Written, data.take n = t.write ∧ t.value.WithinLimits ∧
      ∀ i ∈ t.ints, ¬i.UnsignedZero := by
  cases hscan : parseOne data (maxBencodeDepth + 1) (0, 0) with
  | error e =>
    rw [findBencodeEnd, hscan] at h
    cases h
  | ok scan =>
    rw [findBencodeEnd, hscan] at h
    cases h
    obtain ⟨t, ht⟩ := parseOne_sound _ _ _ _ hscan
    have hitems := ht.items
    rw [Nat.zero_add] at hitems
    refine ⟨t, ?_, ⟨Nat.le_of_lt_succ ht.depth, ?_, ht.strings⟩, ht.ints⟩
    · have htext : data = t.write ++ data.drop scan.1 := ht.text
      have hsplit : data.take scan.1 ++ data.drop scan.1 = t.write ++ data.drop scan.1 := by
        rw [List.take_append_drop]
        exact htext
      exact List.append_cancel_right hsplit
    · rw [← hitems]
      exact (parseOne_counts _ _ _ _ hscan).2

/-- What is accepted is canonical exactly when the value at the start of the data has no integer
with a zero after a minus sign. -/
theorem scanner_canonical_iff {n : Nat} (h : findBencodeEnd data = .ok n) :
    (∃ v : BencodeValue, data.take n = v.encode ∧ v.WithinLimits) ↔
      ∃ t : Written, t.write <+: data ∧ ∀ i ∈ t.ints, ¬i.SignedZero := by
  constructor
  · rintro ⟨v, hv, -⟩
    obtain ⟨hwrite, hints⟩ := Written.ofValue_spec v
    refine ⟨.ofValue v, ?_, hints⟩
    rw [hwrite, ← hv]
    exact List.take_prefix _ _
  · rintro ⟨t, hprefix, hsigned⟩
    obtain ⟨read, hread, hlimits, hunsigned⟩ := findBencodeEnd_sound h
    -- The scanner has read that value, since there is no other at the start of the data.
    have heq : read = t := by
      refine Written.eq_of_prefix ?_ hprefix
      rw [← hread]
      exact List.take_prefix _ _
    subst heq
    refine ⟨read.value, ?_, hlimits⟩
    rw [hread]
    exact read.write_eq_encode fun i hi => ⟨hsigned i hi, hunsigned i hi⟩

def signedZero : Bytes := asBytes "i-0e"

theorem findBencodeEnd_signedZero : findBencodeEnd signedZero = .ok 4 := by
  rfl

theorem scanner_accepts_signed_zero :
    ¬ ∀ data n, findBencodeEnd data = .ok n →
      ∃ v : BencodeValue, data.take n = v.encode ∧ v.WithinLimits := by
  intro hclaim
  obtain ⟨v, hv, -⟩ := hclaim signedZero 4 findBencodeEnd_signedZero
  obtain ⟨hwrite, hints⟩ := Written.ofValue_spec v
  have hzero : ∀ b ∈ ['0'.toUInt8], isDigit b = true := List.forall_mem_singleton.mpr rfl
  -- The same bytes are the text of minus zero, which is not the text of any number.
  have hread : (Written.ofValue v).write <+: signedZero := by
    rw [hwrite, ← hv]
    exact List.take_prefix _ _
  have heq : Written.ofValue v = .int ⟨true, ['0'.toUInt8], by decide, hzero⟩ :=
    Written.eq_of_prefix hread ⟨[], rfl⟩
  rw [heq] at hints
  exact hints _ List.mem_cons_self ⟨rfl, rfl⟩

theorem scanner_canonical_iff_signed_zero :
    (∃ v : BencodeValue, signedZero.take 4 = v.encode ∧ v.WithinLimits) ↔
      ∃ t : Written, t.write <+: signedZero ∧ ∀ i ∈ t.ints, ¬i.SignedZero :=
  scanner_canonical_iff findBencodeEnd_signedZero

end Btfind
