import Btfind.Wire.Scanner

/-!
# What the scanner accepts

The scanner stops exactly at the end of every encoded value that is within its limits,
whatever follows the value.
-/

namespace Btfind

open Decimal

namespace BencodeValue

/-! ## Limits -/

mutual

/-- The nesting below a value. -/
def depth : BencodeValue → Nat
  | .bytes _ => 0
  | .int _ => 0
  | .list items => depthItems items
  | .dict entries => depthEntries entries

def depthItems : List BencodeValue → Nat
  | [] => 0
  | v :: items => max (depth v + 1) (depthItems items)

def depthEntries : List (Bytes × BencodeValue) → Nat
  | [] => 0
  | (_, v) :: entries => max (depth v + 1) (depthEntries entries)

end

mutual

/-- The number of values in a value, itself included. -/
def itemCount : BencodeValue → Nat
  | .bytes _ => 1
  | .int _ => 1
  | .list items => 1 + countItems items
  | .dict entries => 1 + countEntries entries

def countItems : List BencodeValue → Nat
  | [] => 0
  | v :: items => itemCount v + countItems items

def countEntries : List (Bytes × BencodeValue) → Nat
  | [] => 0
  | (_, v) :: entries => itemCount v + countEntries entries

end

mutual

/-- The length of the longest string in a value, the keys included. -/
def longest : BencodeValue → Nat
  | .bytes b => b.length
  | .int _ => 0
  | .list items => longestItem items
  | .dict entries => longestEntry entries

def longestItem : List BencodeValue → Nat
  | [] => 0
  | v :: items => max (longest v) (longestItem items)

def longestEntry : List (Bytes × BencodeValue) → Nat
  | [] => 0
  | (key, v) :: entries => max (max key.length (longest v)) (longestEntry entries)

end

/-- Within `MAX_BENCODE_DEPTH`, `MAX_BENCODE_ITEMS` and `MAX_BENCODE_STRING`. -/
structure WithinLimits (v : BencodeValue) : Prop where
  depth : v.depth ≤ maxBencodeDepth
  items : v.itemCount ≤ maxBencodeItems
  strings : v.longest ≤ maxBencodeString

theorem itemCount_pos (v : BencodeValue) : 0 < v.itemCount := by
  cases v <;> rw [itemCount] <;> omega

/-! ## The size of an encoding -/

/-- A bound on the length of an encoded string. -/
def stringBound : Nat := maxBencodeString + 8

theorem encodeBytes_length (b : Bytes) :
    (encodeBytes b).length = (decimal b.length).length + 1 + b.length := by
  rw [encodeBytes, List.length_append, List.length_cons]
  omega

theorem encodeBytes_length_le {b : Bytes} (h : b.length ≤ maxBencodeString) :
    (encodeBytes b).length ≤ stringBound := by
  unfold maxBencodeString at h
  have hdecimal := length_decimal_le (n := b.length) (k := 7) (by decide) (by omega)
  rw [encodeBytes_length]
  unfold stringBound maxBencodeString
  omega

theorem encodeInt_length_le {i : Int} (h : InI64 i) : (encodeInt i).length ≤ 20 := by
  obtain ⟨hlo, hhi⟩ := h
  unfold i64Max at hlo hhi
  have hdecimal := length_decimal_le (n := i.natAbs) (k := 19) (by decide) (by omega)
  rw [encodeInt]
  split
  · rw [List.length_cons]
    omega
  · omega

theorem longest_le_of_mem {items : List BencodeValue} {v : BencodeValue} (h : v ∈ items) :
    v.longest ≤ longestItem items := by
  induction items with
  | nil => cases h
  | cons w items ih =>
    rw [longestItem]
    obtain rfl | h := List.mem_cons.mp h
    · exact le_max_left _ _
    · exact (ih h).trans (le_max_right _ _)

theorem longest_le_of_mem_entries {entries : BencodeDict} {e : Bytes × BencodeValue}
    (h : e ∈ entries) : max e.1.length e.2.longest ≤ longestEntry entries := by
  induction entries with
  | nil => cases h
  | cons w entries ih =>
    rw [longestEntry]
    obtain rfl | h := List.mem_cons.mp h
    · exact le_max_left _ _
    · exact (ih h).trans (le_max_right _ _)

/-- Every item takes two strings at most: its own and the key before it. -/
def Short (v : BencodeValue) : Prop :=
  (encode v).length + stringBound ≤ v.itemCount * (2 * stringBound)

theorem encodeItems_length_le {items : List BencodeValue} (h : ∀ v ∈ items, Short v) :
    (encodeItems items).length ≤ countItems items * (2 * stringBound) := by
  induction items with
  | nil => exact Nat.zero_le _
  | cons v items ih =>
    have hv := h v List.mem_cons_self
    have hitems := ih fun v hv => h v (List.mem_cons_of_mem _ hv)
    rw [encodeItems, countItems, List.length_append, Nat.add_mul]
    unfold Short at hv
    omega

theorem encodeEntries_length_le {entries : BencodeDict} (h : ∀ e ∈ entries, Short e.2)
    (hkeys : ∀ e ∈ entries, e.1.length ≤ maxBencodeString) :
    (encodeEntries entries).length ≤ countEntries entries * (2 * stringBound) := by
  induction entries with
  | nil => exact Nat.zero_le _
  | cons e entries ih =>
    have hv := h e List.mem_cons_self
    have hkey := encodeBytes_length_le (hkeys e List.mem_cons_self)
    have hentries := ih (fun e he => h e (List.mem_cons_of_mem _ he))
      fun e he => hkeys e (List.mem_cons_of_mem _ he)
    rw [encodeEntries, countEntries, List.length_append, List.length_append, Nat.add_mul]
    unfold Short at hv
    omega

theorem short_of_valid {v : BencodeValue} (hv : v.Valid) (h : v.longest ≤ maxBencodeString) :
    Short v := by
  have hbound : 22 ≤ stringBound := by decide
  induction v using BencodeValue.induction with
  | bytes b =>
    have hlen := encodeBytes_length_le h
    rw [Short, encode, itemCount]
    omega
  | int i =>
    cases hv with
    | int hi =>
      have hlen := encodeInt_length_le hi
      rw [Short, encode, itemCount, List.length_cons, List.length_append, List.length_singleton]
      omega
  | list items ih =>
    cases hv with
    | list hitems =>
      have hlen := encodeItems_length_le fun v hv =>
        ih v hv (hitems v hv) ((longest_le_of_mem hv).trans h)
      rw [Short, encode, itemCount, List.length_cons, List.length_append, List.length_singleton,
        Nat.add_mul]
      omega
  | dict entries ih =>
    cases hv with
    | dict _ hentries =>
      have hlongest : ∀ e ∈ entries, max e.1.length e.2.longest ≤ maxBencodeString :=
        fun e he => (longest_le_of_mem_entries he).trans h
      have hlen := encodeEntries_length_le
        (fun e he => ih e he (hentries e he) ((le_max_right _ _).trans (hlongest e he)))
        fun e he => (le_max_left _ _).trans (hlongest e he)
      rw [Short, encode, itemCount, List.length_cons, List.length_append, List.length_singleton,
        Nat.add_mul]
      omega

/-- A value within the limits is far shorter than the largest `usize`. -/
theorem WithinLimits.encode_length_le {v : BencodeValue} (h : v.WithinLimits) (hv : v.Valid) :
    (encode v).length ≤ usizeMax := by
  have hshort := short_of_valid hv h.strings
  have hitems := Nat.mul_le_mul_right (2 * stringBound) h.items
  have hmax : maxBencodeItems * (2 * stringBound) ≤ usizeMax := by decide
  unfold Short at hshort
  omega

end BencodeValue

/-! ## Positions -/

section Positions

variable {data enc rest : Bytes} {pos : Nat} {c : UInt8}

theorem getElem_of_drop (h : data.drop pos = c :: rest) : data[pos]? = some c := by
  rw [← List.head?_drop, h, List.head?_cons]

theorem drop_of_drop (h : data.drop pos = enc ++ rest) : data.drop (pos + enc.length) = rest := by
  rw [← List.drop_drop, h, List.drop_left]

theorem drop_succ (h : data.drop pos = c :: rest) : data.drop (pos + 1) = rest := by
  rw [← List.drop_drop, h, List.drop_one, List.tail_cons]

theorem length_of_drop (h : data.drop pos = enc ++ rest) (henc : enc ≠ []) :
    pos + enc.length + rest.length = data.length := by
  have hlen := congrArg List.length h
  have hpos := List.length_pos_of_ne_nil henc
  rw [List.length_drop, List.length_append] at hlen
  omega

end Positions

/-! ## Strings and numbers -/

open BencodeValue

variable {data rest : Bytes} {pos : Nat}

/-- The scanner reads the digits of a number, and the byte after them. -/
theorem skipDigits_decimal {n : Nat} {c : UInt8} (hc : isDigit c = false)
    (h : data.drop pos = decimal n ++ c :: rest) :
    digits (data.drop pos) = decimal n ∧ skipDigits data pos = pos + (decimal n).length ∧
      data[pos + (decimal n).length]? = some c := by
  have hdigits : digits (data.drop pos) = decimal n := by
    rw [h]
    exact digits_decimal n hc rest
  refine ⟨hdigits, by rw [skipDigits, hdigits], ?_⟩
  exact getElem_of_drop (drop_of_drop h)

theorem decimal_length_pos (n : Nat) : 0 < (decimal n).length :=
  List.length_pos_of_ne_nil (decimal_ne_nil n)

/-- A number has no leading zero. -/
theorem decimal_canonical (n : Nat) :
    ¬(1 < (decimal n).length ∧ (decimal n).head? = some '0'.toUInt8) := by
  rintro ⟨hlen, hhead⟩
  rw [head_decimal hhead, decimal_zero] at hlen
  exact absurd hlen (by decide)

theorem parseString_encode {b : Bytes} (h : data.drop pos = encodeBytes b ++ rest)
    (hb : b.length ≤ maxBencodeString) (hpos : pos + (encodeBytes b).length ≤ usizeMax) :
    parseString data pos = .ok (pos + (encodeBytes b).length) := by
  have hlen := encodeBytes_length b
  have hdata := length_of_drop h (by simp [encodeBytes])
  have hn := decimal_length_pos b.length
  rw [encodeBytes, List.append_assoc, List.cons_append] at h
  obtain ⟨hdigits, hstop, hcolon⟩ := skipDigits_decimal (by decide) h
  rw [parseString]
  simp only [hdigits, hstop, hcolon, value_decimal]
  rw [if_neg (by simp only [ne_eq, not_true_eq_false, or_false]; omega),
    if_neg (decimal_canonical _), if_neg (by omega), if_neg (by omega), if_neg (by omega),
    if_neg (by omega), hlen]
  congr 1
  omega

theorem parseInteger_encode {i : Int} (h : data.drop pos = encodeInt i ++ 'e'.toUInt8 :: rest) :
    parseInteger data pos = .ok (pos + (encodeInt i).length + 1) := by
  have hn := decimal_length_pos i.natAbs
  by_cases hneg : i < 0
  · rw [encodeInt, if_pos hneg] at h ⊢
    rw [List.cons_append] at h
    have hsign := getElem_of_drop h
    rw [← List.singleton_append] at h
    obtain ⟨_, hstop, he⟩ := skipDigits_decimal (by decide) (drop_of_drop h)
    rw [List.length_singleton] at hstop he
    rw [parseInteger]
    simp only [hsign, if_true, hstop, he]
    rw [if_neg (by simp only [ne_eq, not_true_eq_false, or_false]; omega),
      if_neg (fun hzero => absurd hzero.1 (by decide)), List.length_cons]
    congr 1
    omega
  · rw [encodeInt, if_neg hneg] at h ⊢
    obtain ⟨hdigits, hstop, he⟩ := skipDigits_decimal (by decide) h
    obtain ⟨c, tail, hdecimal⟩ := List.exists_cons_of_ne_nil (decimal_ne_nil i.natAbs)
    have hhead : data[pos]? = some c := by
      rw [hdecimal] at h
      exact getElem_of_drop h
    -- The number starts with a digit, which is not taken for a sign.
    have hdigit : isDigit c = true := isDigit_of_mem (n := i.natAbs) (by rw [hdecimal]; simp)
    have hsign : data[pos]? ≠ some '-'.toUInt8 := by
      rw [hhead]
      rintro ⟨⟩
      revert hdigit
      decide
    have hcanonical := decimal_canonical i.natAbs
    rw [hdecimal, List.head?_cons, ← hdecimal] at hcanonical
    rw [parseInteger]
    simp only [if_neg hsign, hstop, he]
    rw [hhead, if_neg (by simp only [ne_eq, not_true_eq_false, or_false]; omega), if_neg]
    rintro ⟨hzero, hlen⟩
    exact hcanonical ⟨by omega, hzero⟩

/-! ## Items -/

/-- Whatever succeeds counts an item, and no more items than are allowed. -/
def Counts (one : Scan → Except String Scan) : Prop :=
  ∀ scan scan', one scan = .ok scan' → scan.2 < scan'.2 ∧ scan'.2 ≤ maxBencodeItems

theorem scanList_counts {one : Scan → Except String Scan} (hone : Counts one) {turns : Nat}
    {scan scan' : Scan} (h : scanList data one turns scan = .ok scan')
    (hitems : scan.2 ≤ maxBencodeItems) : scan.2 ≤ scan'.2 ∧ scan'.2 ≤ maxBencodeItems := by
  induction turns generalizing scan with
  | zero => cases h
  | succ turns ih =>
    obtain ⟨left, hleft, c, -, ⟨-, rfl⟩ | ⟨-, next, hnext, hrest⟩⟩ := scanList_cases h
    · exact ⟨le_refl _, hitems⟩
    · cases hleft
      obtain ⟨hlt, hle⟩ := hone _ _ hnext
      obtain ⟨hlt', hle'⟩ := ih hrest hle
      exact ⟨by omega, hle'⟩

theorem scanDict_counts {one : Scan → Except String Scan} (hone : Counts one) {turns : Nat}
    {scan scan' : Scan} (h : scanDict data one turns scan = .ok scan')
    (hitems : scan.2 ≤ maxBencodeItems) : scan.2 ≤ scan'.2 ∧ scan'.2 ≤ maxBencodeItems := by
  induction turns generalizing scan with
  | zero => cases h
  | succ turns ih =>
    obtain ⟨left, hleft, c, -, ⟨-, rfl⟩ | ⟨-, valuePos, next, -, -, hnext, hrest⟩⟩ :=
      scanDict_cases h
    · exact ⟨le_refl _, hitems⟩
    · cases hleft
      obtain ⟨hlt, hle⟩ := hone _ _ hnext
      obtain ⟨hlt', hle'⟩ := ih hrest hle
      exact ⟨by simp only at hlt; omega, hle'⟩

theorem parseOne_counts (data : Bytes) (levels : Nat) : Counts (parseOne data levels) := by
  induction levels with
  | zero =>
    intro _ _ h
    cases h
  | succ levels ih =>
    rintro ⟨pos, items⟩ scan' h
    -- The value itself is counted before its parts are read.
    obtain ⟨below, hbelow, hitems, c, -, ⟨-, hdict⟩ | ⟨-, hlist⟩ | ⟨-, stop, -, rfl⟩ |
      ⟨-, stop, -, rfl⟩⟩ := parseOne_cases h
    · cases hbelow
      exact scanDict_counts ih hdict hitems
    · cases hbelow
      exact scanList_counts ih hlist hitems
    · exact ⟨Nat.lt_succ_self _, hitems⟩
    · exact ⟨Nat.lt_succ_self _, hitems⟩

/-! ## Values -/

/-- The scanner passes over a value, wherever it is and whatever follows. -/
def Scans (data : Bytes) (v : BencodeValue) : Prop :=
  ∀ levels pos items rest, data.drop pos = encode v ++ rest → v.depth < levels →
    v.longest ≤ maxBencodeString → items + v.itemCount ≤ maxBencodeItems →
    pos + (encode v).length ≤ usizeMax →
    parseOne data levels (pos, items) = .ok (pos + (encode v).length, items + v.itemCount)

theorem scanList_encode {vs : List BencodeValue} (h : ∀ v ∈ vs, Scans data v) (levels turns : Nat)
    (pos items : Nat) (hdata : data.drop pos = encodeItems vs ++ 'e'.toUInt8 :: rest)
    (hdepth : depthItems vs ≤ levels) (hlongest : longestItem vs ≤ maxBencodeString)
    (hitems : items + countItems vs ≤ maxBencodeItems) (hturns : countItems vs < turns)
    (hpos : pos + (encodeItems vs).length ≤ usizeMax) :
    scanList data (parseOne data levels) turns (pos, items) =
      .ok (pos + (encodeItems vs).length + 1, items + countItems vs) := by
  induction vs generalizing turns pos items with
  | nil =>
    cases turns with
    | zero => cases hturns
    | succ turns =>
      rw [scanList, getElem_of_drop hdata]
      rfl
  | cons v vs ih =>
    rw [encodeItems, List.append_assoc] at hdata
    rw [encodeItems, List.length_append] at hpos ⊢
    rw [depthItems] at hdepth
    rw [longestItem] at hlongest
    rw [countItems] at hitems hturns ⊢
    have hcount := v.itemCount_pos
    obtain ⟨c, tail, hv, hc⟩ := encode_head v
    have hhead : data[pos]? = some c := by
      rw [hv] at hdata
      exact getElem_of_drop hdata
    have hone := h v List.mem_cons_self levels pos items _ hdata (by omega) (by omega) (by omega)
      (by omega)
    cases turns with
    | zero => omega
    | succ turns =>
      have hrest := ih (fun v hv => h v (List.mem_cons_of_mem _ hv)) turns
        (pos + (encode v).length) (items + v.itemCount) (drop_of_drop hdata) (by omega)
        (by omega) (by omega) (by omega) (by omega)
      rw [scanList, hhead]
      simp only [if_neg hc, hone, hrest]
      rw [Nat.add_assoc pos, Nat.add_assoc items]

theorem scanDict_encode {entries : BencodeDict} (h : ∀ e ∈ entries, Scans data e.2)
    (levels turns : Nat) (pos items : Nat)
    (hdata : data.drop pos = encodeEntries entries ++ 'e'.toUInt8 :: rest)
    (hdepth : depthEntries entries ≤ levels) (hlongest : longestEntry entries ≤ maxBencodeString)
    (hitems : items + countEntries entries ≤ maxBencodeItems)
    (hturns : countEntries entries < turns)
    (hpos : pos + (encodeEntries entries).length ≤ usizeMax) :
    scanDict data (parseOne data levels) turns (pos, items) =
      .ok (pos + (encodeEntries entries).length + 1, items + countEntries entries) := by
  induction entries generalizing turns pos items with
  | nil =>
    cases turns with
    | zero => cases hturns
    | succ turns =>
      rw [scanDict, getElem_of_drop hdata]
      rfl
  | cons e entries ih =>
    obtain ⟨key, v⟩ := e
    rw [encodeEntries, List.append_assoc, List.append_assoc] at hdata
    rw [encodeEntries, List.length_append, List.length_append] at hpos ⊢
    rw [depthEntries] at hdepth
    rw [longestEntry] at hlongest
    rw [countEntries] at hitems hturns ⊢
    have hcount := v.itemCount_pos
    have hkeylen := encodeBytes_length key
    obtain ⟨c, tail, hkey, hc⟩ := encodeBytes_head key
      (encode v ++ (encodeEntries entries ++ 'e'.toUInt8 :: rest))
    have hhead : data[pos]? = some c := by
      rw [hkey] at hdata
      exact getElem_of_drop hdata
    -- A key starts with a digit, so it does not end the dictionary.
    have hne : c ≠ 'e'.toUInt8 := by
      rintro rfl
      revert hc
      decide
    have hstring := parseString_encode hdata (by omega) (by omega)
    have hvalue := drop_of_drop hdata
    have hone := h (key, v) List.mem_cons_self levels (pos + (encodeBytes key).length) items _
      hvalue (by simp only; omega) (by simp only; omega) (by simp only; omega)
      (by simp only; omega)
    cases turns with
    | zero => omega
    | succ turns =>
      have hrest := ih (fun e he => h e (List.mem_cons_of_mem _ he)) turns
        (pos + (encodeBytes key).length + (encode v).length) (items + v.itemCount)
        (drop_of_drop hvalue) (by omega) (by omega) (by omega) (by omega) (by omega)
      rw [scanDict, hhead]
      simp only [if_neg hne, hstring, hone, hrest]
      rw [if_neg (by omega), Nat.add_assoc items]
      congr 2
      omega

/-- One value, when an item is left for it. -/
theorem parseOne_at {c : UInt8} {items : Nat} (hhead : data[pos]? = some c)
    (hitems : items + 1 ≤ maxBencodeItems) (levels : Nat) :
    parseOne data (levels + 1) (pos, items) =
      if c = 'd'.toUInt8 then
        scanDict data (parseOne data levels) (maxBencodeItems + 1) (pos + 1, items + 1)
      else if c = 'l'.toUInt8 then
        scanList data (parseOne data levels) (maxBencodeItems + 1) (pos + 1, items + 1)
      else if c = 'i'.toUInt8 then (parseInteger data (pos + 1)).map fun stop => (stop, items + 1)
      else if isDigit c then (parseString data pos).map fun stop => (stop, items + 1)
      else .error "invalid bencode type marker" := by
  have husize : maxBencodeItems ≤ usizeMax := by decide
  rw [parseOne, hhead]
  simp only
  rw [if_neg (by omega), if_neg (by omega)]

theorem scans (data : Bytes) (v : BencodeValue) : Scans data v := by
  induction v using BencodeValue.induction with
  | bytes b =>
    intro levels pos items rest hdata hdepth hlongest hitems hpos
    rw [encode] at hdata hpos ⊢
    rw [itemCount] at hitems ⊢
    obtain ⟨c, tail, hb, hc⟩ := encodeBytes_head b rest
    have hhead : data[pos]? = some c := by
      rw [hb] at hdata
      exact getElem_of_drop hdata
    -- The first byte is a digit, so none of the other markers matches.
    have hne : ∀ d : UInt8, isDigit d = false → c ≠ d := by
      rintro d hd rfl
      rw [hd] at hc
      cases hc
    cases levels with
    | zero => cases hdepth
    | succ levels =>
      rw [parseOne_at hhead hitems, if_neg (hne _ (by decide)), if_neg (hne _ (by decide)),
        if_neg (hne _ (by decide)), if_pos hc, parseString_encode hdata hlongest hpos]
      rfl
  | int i =>
    intro levels pos items rest hdata hdepth hlongest hitems hpos
    rw [encode, List.cons_append, List.append_assoc, List.singleton_append] at hdata
    rw [encode, List.length_cons, List.length_append, List.length_singleton]
    rw [itemCount] at hitems ⊢
    cases levels with
    | zero => cases hdepth
    | succ levels =>
      rw [parseOne_at (getElem_of_drop hdata) hitems, if_neg (by decide), if_neg (by decide),
        if_pos rfl, parseInteger_encode (drop_succ hdata), Except.map]
      congr 2
      omega
  | list vs ih =>
    intro levels pos items rest hdata hdepth hlongest hitems hpos
    rw [encode, List.cons_append, List.append_assoc, List.singleton_append] at hdata
    rw [encode, List.length_cons, List.length_append, List.length_singleton] at hpos ⊢
    rw [depth] at hdepth
    rw [longest] at hlongest
    rw [itemCount] at hitems ⊢
    cases levels with
    | zero => cases hdepth
    | succ levels =>
      have hscan := scanList_encode ih levels (maxBencodeItems + 1) (pos + 1) (items + 1)
        (drop_succ hdata) (by omega) hlongest (by omega) (by omega) (by omega)
      rw [parseOne_at (getElem_of_drop hdata) (by omega), if_neg (by decide), if_pos rfl, hscan]
      congr 2 <;> omega
  | dict entries ih =>
    intro levels pos items rest hdata hdepth hlongest hitems hpos
    rw [encode, List.cons_append, List.append_assoc, List.singleton_append] at hdata
    rw [encode, List.length_cons, List.length_append, List.length_singleton] at hpos ⊢
    rw [depth] at hdepth
    rw [longest] at hlongest
    rw [itemCount] at hitems ⊢
    cases levels with
    | zero => cases hdepth
    | succ levels =>
      have hscan := scanDict_encode ih levels (maxBencodeItems + 1) (pos + 1) (items + 1)
        (drop_succ hdata) (by omega) hlongest (by omega) (by omega) (by omega)
      rw [parseOne_at (getElem_of_drop hdata) (by omega), if_pos rfl, hscan]
      congr 2 <;> omega

/-- The scanner stops at the end of a value within the limits, whatever follows it. -/
theorem findBencodeEnd_encode {v : BencodeValue} (hv : v.Valid) (h : v.WithinLimits)
    (x : Bytes) : findBencodeEnd (encode v ++ x) = .ok (encode v).length := by
  have hdepth : v.depth < maxBencodeDepth + 1 := Nat.lt_succ_of_le h.depth
  have hsize := h.encode_length_le hv
  have hscan := scans (encode v ++ x) v (maxBencodeDepth + 1) 0 0 x rfl hdepth h.strings
    (by rw [Nat.zero_add]; exact h.items) (by omega)
  rw [findBencodeEnd, hscan, Except.map, Nat.zero_add]

/-- A message is its header and whatever follows it. -/
theorem parseMetadataResponse_encode {decode : Bytes → Except String BencodeValue}
    {dict : BencodeDict} {piece totalSize : Nat} (hv : (BencodeValue.dict dict).Valid)
    (h : (BencodeValue.dict dict).WithinLimits) (hpiece : piece < 2 ^ 32)
    (htotal : totalSize < 2 ^ 32) (hmsg : dict.get "msg_type" = some (.int 1))
    (hgetPiece : dict.get "piece" = some (.int piece))
    (hgetTotal : dict.get "total_size" = some (.int totalSize))
    (hdecode : decode (encode (.dict dict)) = .ok (.dict dict)) (x : Bytes) :
    parseMetadataResponse decode (encode (.dict dict) ++ x) = some (.ok (piece, totalSize, x)) := by
  have hu32 : ∀ n : Nat, n < 2 ^ 32 → u32OfInt n = some n := by
    intro n hn
    rw [u32OfInt, if_pos ⟨Int.natCast_nonneg n, by unfold u32Max; omega⟩, Int.toNat_natCast]
  have hp : getU32 dict "piece" = some piece := by
    rw [getU32, hgetPiece]
    exact hu32 piece hpiece
  have ht : getU32 dict "total_size" = some totalSize := by
    rw [getU32, hgetTotal]
    exact hu32 totalSize htotal
  rw [parseMetadataResponse, findBencodeEnd_encode hv h]
  simp only [List.take_left, hdecode, hmsg, hp, ht, List.drop_left]
  rfl

/-- The data of a message is split off right after its dictionary: the scanner finds
the end of every value within its limits, and so the header of every message is read
and the bytes after it are the data. -/
theorem metadata_response_split (decode : Bytes → Except String BencodeValue) :
    (∀ v : BencodeValue, v.Valid → v.WithinLimits → ∀ x,
        findBencodeEnd (encode v ++ x) = .ok (encode v).length) ∧
      ∀ (dict : BencodeDict) (piece totalSize : Nat), (BencodeValue.dict dict).Valid →
        (BencodeValue.dict dict).WithinLimits → piece < 2 ^ 32 → totalSize < 2 ^ 32 →
        dict.get "msg_type" = some (.int 1) → dict.get "piece" = some (.int piece) →
        dict.get "total_size" = some (.int totalSize) →
        decode (encode (.dict dict)) = .ok (.dict dict) → ∀ x,
          parseMetadataResponse decode (encode (.dict dict) ++ x) =
            some (.ok (piece, totalSize, x)) := by
  refine ⟨fun v hv h x => findBencodeEnd_encode hv h x, ?_⟩
  intro dict piece totalSize hv h hpiece htotal hmsg hgetPiece hgetTotal hdecode x
  exact parseMetadataResponse_encode hv h hpiece htotal hmsg hgetPiece hgetTotal hdecode x

/-- A header as a peer sends it, with data that looks like bencode. -/
theorem metadata_response_split_piece :
    parseMetadataResponse decode
        (encode (.dict [(asBytes "msg_type", .int 1), (asBytes "piece", .int 0),
          (asBytes "total_size", .int 5)]) ++ asBytes "d1:ae") =
      some (.ok (0, 5, asBytes "d1:ae")) := by
  have hvalid : (BencodeValue.dict [(asBytes "msg_type", .int 1), (asBytes "piece", .int 0),
      (asBytes "total_size", .int 5)]).Valid := by
    refine .dict (by decide) ?_
    simp only [List.forall_mem_cons]
    exact ⟨.int (by decide), .int (by decide), .int (by decide), nofun⟩
  exact (metadata_response_split decode).2 _ 0 5 hvalid
    ⟨by decide, by decide, by decide⟩ (by decide) (by decide) rfl rfl rfl (decode_encode hvalid) _

end Btfind
