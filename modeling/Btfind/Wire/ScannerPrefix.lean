import Btfind.Wire.ScannerSoundness

/-!
# The prefix that the scanner consumes

A success of the scanner ends after it began and within the text, and it depends only on the
bytes before its end. So the text that was consumed is accepted whatever follows it, and no
shorter text is.
-/

namespace Btfind

open Decimal

variable {data data' : Bytes} {n pos stop : Nat}

/-! ## Progress -/

theorem le_skipDigits (data : Bytes) (pos : Nat) : pos ≤ skipDigits data pos := Nat.le_add_right _ _

theorem le_integerDigits (data : Bytes) (pos : Nat) : pos ≤ integerDigits data pos := by
  rw [integerDigits]
  split <;> omega

theorem lt_length {c : UInt8} (h : data[pos]? = some c) : pos < data.length :=
  (List.getElem?_eq_some_iff.mp h).1

theorem parseString_advances (h : parseString data pos = .ok stop) :
    pos < stop ∧ stop ≤ data.length := by
  obtain ⟨-, -, -, -, hstop, -, hroom⟩ := parseString_eq_ok_iff.mp h
  have hskip := le_skipDigits data pos
  exact ⟨by omega, hroom⟩

theorem parseInteger_advances (h : parseInteger data pos = .ok stop) :
    pos < stop ∧ stop ≤ data.length := by
  obtain ⟨-, hend, -, rfl⟩ := parseInteger_eq_ok_iff.mp h
  have hdigits := le_integerDigits data pos
  have hskip := le_skipDigits data (integerDigits data pos)
  have hlt := lt_length hend
  exact ⟨by omega, hlt⟩

/-- Whatever succeeds moves on, and stays within the text. -/
def Advances (data : Bytes) (one : Scan → Except String Scan) : Prop :=
  ∀ scan scan', one scan = .ok scan' → scan.1 < scan'.1 ∧ scan'.1 ≤ data.length

theorem scanList_advances {one : Scan → Except String Scan} (hone : Advances data one)
    {turns : Nat} {scan scan' : Scan} (h : scanList data one turns scan = .ok scan') :
    scan.1 < scan'.1 ∧ scan'.1 ≤ data.length := by
  induction turns generalizing scan with
  | zero => cases h
  | succ turns ih =>
    obtain ⟨left, hleft, c, hc, ⟨-, rfl⟩ | ⟨-, next, hnext, hrest⟩⟩ := scanList_cases h
    · exact ⟨Nat.lt_succ_self _, lt_length hc⟩
    · cases hleft
      obtain ⟨hlt, -⟩ := hone _ _ hnext
      obtain ⟨hlt', hle⟩ := ih hrest
      exact ⟨hlt.trans hlt', hle⟩

theorem scanDict_advances {one : Scan → Except String Scan} (hone : Advances data one)
    {turns : Nat} {scan scan' : Scan} (h : scanDict data one turns scan = .ok scan') :
    scan.1 < scan'.1 ∧ scan'.1 ≤ data.length := by
  induction turns generalizing scan with
  | zero => cases h
  | succ turns ih =>
    obtain ⟨left, hleft, c, hc, ⟨-, rfl⟩ | ⟨-, valuePos, next, hkey, -, hnext, hrest⟩⟩ :=
      scanDict_cases h
    · exact ⟨Nat.lt_succ_self _, lt_length hc⟩
    · cases hleft
      obtain ⟨hkey, -⟩ := parseString_advances hkey
      obtain ⟨hlt, -⟩ := hone _ _ hnext
      obtain ⟨hlt', hle⟩ := ih hrest
      exact ⟨hkey.trans (hlt.trans hlt'), hle⟩

theorem parseOne_advances (data : Bytes) (levels : Nat) :
    Advances data (parseOne data levels) := by
  induction levels with
  | zero =>
    intro _ _ h
    cases h
  | succ levels ih =>
    rintro ⟨pos, items⟩ scan' h
    obtain ⟨below, hbelow, -, c, -, ⟨-, hdict⟩ | ⟨-, hlist⟩ | ⟨-, stop, hint, rfl⟩ |
      ⟨-, stop, hstring, rfl⟩⟩ := parseOne_cases h
    · cases hbelow
      obtain ⟨hlt, hle⟩ := scanDict_advances ih hdict
      exact ⟨Nat.lt_of_succ_lt hlt, hle⟩
    · cases hbelow
      obtain ⟨hlt, hle⟩ := scanList_advances ih hlist
      exact ⟨Nat.lt_of_succ_lt hlt, hle⟩
    · obtain ⟨hlt, hle⟩ := parseInteger_advances hint
      exact ⟨Nat.lt_of_succ_lt hlt, hle⟩
    · exact parseString_advances hstring

/-! ## Texts that agree -/

/-- Two texts with the same first `n` bytes. -/
structure Agree (n : Nat) (data data' : Bytes) : Prop where
  bytes : data.take n = data'.take n
  length : n ≤ data'.length

theorem Agree.getElem (h : Agree n data data') (hpos : pos < n) : data'[pos]? = data[pos]? := by
  rw [← List.getElem?_take_of_lt hpos, ← h.bytes, List.getElem?_take_of_lt hpos]

theorem Agree.take_drop (h : Agree n data data') {k : Nat} (hk : pos + k ≤ n) :
    (data'.drop pos).take k = (data.drop pos).take k := by
  have hwindow : ∀ d : Bytes, (d.drop pos).take k = ((d.take n).take (pos + k)).drop pos := by
    intro d
    rw [List.take_take, Nat.min_eq_left hk, List.drop_take, Nat.add_sub_cancel_left]
  rw [hwindow, hwindow, h.bytes]

/-- The digits of a number are the same when the byte that ends them is. -/
theorem Agree.digits_drop (h : Agree n data data') {c : UInt8}
    (hc : data[skipDigits data pos]? = some c) (hdigit : isDigit c = false)
    (hn : skipDigits data pos < n) : digits (data'.drop pos) = digits (data.drop pos) := by
  have htext : digits (data.drop pos) ++ [c] <+: data.drop pos := by
    refine ⟨data.drop (skipDigits data pos + 1), ?_⟩
    rw [List.append_assoc, List.singleton_append, ← drop_of_getElem hc, drop_skipDigits]
  have hend : pos + (digits (data.drop pos) ++ [c]).length ≤ n := by
    rw [skipDigits] at hn
    rw [List.length_append, List.length_singleton]
    omega
  have hprefix : (data'.drop pos).take (digits (data.drop pos) ++ [c]).length =
      digits (data.drop pos) ++ [c] := by
    rw [h.take_drop hend]
    exact (List.prefix_iff_eq_take.mp htext).symm
  rw [← List.take_append_drop (digits (data.drop pos) ++ [c]).length (data'.drop pos), hprefix,
    List.append_assoc, List.singleton_append, digits,
    List.takeWhile_append_of_pos fun _ => isDigit_of_mem_digits,
    List.takeWhile_cons_of_neg (by rw [hdigit]; exact Bool.false_ne_true), List.append_nil]

theorem Agree.skipDigits_eq (h : Agree n data data') {c : UInt8}
    (hc : data[skipDigits data pos]? = some c) (hdigit : isDigit c = false)
    (hn : skipDigits data pos < n) : skipDigits data' pos = skipDigits data pos := by
  rw [skipDigits, h.digits_drop hc hdigit hn, skipDigits]

/-! ## Stability -/

theorem Agree.parseString (h : Agree n data data') (hok : parseString data pos = .ok stop)
    (hn : stop ≤ n) : parseString data' pos = .ok stop := by
  obtain ⟨hdigits, hcolon, hcanonical, hlong, hstop, hend, -⟩ := parseString_eq_ok_iff.mp hok
  have hskip : skipDigits data pos < n := by omega
  have heq := h.digits_drop hcolon (by decide) hskip
  have hpos := h.skipDigits_eq hcolon (by decide) hskip
  rw [parseString_eq_ok_iff, hpos, heq, h.getElem hskip]
  exact ⟨hdigits, hcolon, hcanonical, hlong, hstop, hend, hn.trans h.length⟩

theorem Agree.parseInteger (h : Agree n data data') (hok : parseInteger data pos = .ok stop)
    (hn : stop ≤ n) : parseInteger data' pos = .ok stop := by
  obtain ⟨hdigits, hend, hcanonical, hstop⟩ := parseInteger_eq_ok_iff.mp hok
  have hle := le_skipDigits data (integerDigits data pos)
  have hle' := le_integerDigits data pos
  have hskip : skipDigits data (integerDigits data pos) < n := by omega
  have hfirst : data'[pos]? = data[pos]? := h.getElem (by omega)
  have hsign : integerDigits data' pos = integerDigits data pos := by
    rw [integerDigits, hfirst, integerDigits]
  have hpos := h.skipDigits_eq hend (by decide) hskip
  rw [parseInteger_eq_ok_iff, hsign, hpos, h.getElem hskip, hfirst]
  exact ⟨hdigits, hend, hcanonical, hstop⟩

/-- A success that ends within the first `n` bytes is a success on the other text. -/
def Stable (n : Nat) (one one' : Scan → Except String Scan) : Prop :=
  ∀ scan scan', one scan = .ok scan' → scan'.1 ≤ n → one' scan = .ok scan'

theorem Agree.scanList (h : Agree n data data') {one one' : Scan → Except String Scan}
    (hone : Stable n one one') (hadvances : Advances data one) (turns : Nat) :
    Stable n (scanList data one turns) (scanList data' one' turns) := by
  intro scan scan' hok hn
  induction turns generalizing scan with
  | zero => cases hok
  | succ turns ih =>
    -- What the loop reads lies before its end, so it is the same in both texts.
    obtain ⟨hlt, -⟩ := scanList_advances hadvances hok
    have hfirst : data'[scan.1]? = data[scan.1]? := h.getElem (by omega)
    obtain ⟨left, hleft, c, hc, ⟨hclose, rfl⟩ | ⟨hopen, next, hnext, hrest⟩⟩ := scanList_cases hok
    · rw [Btfind.scanList, hfirst, hc]
      simp only [if_pos hclose]
    · cases hleft
      obtain ⟨hlt', -⟩ := scanList_advances hadvances hrest
      rw [Btfind.scanList, hfirst, hc]
      simp only [if_neg hopen, hone _ _ hnext (by omega)]
      exact ih _ hrest

theorem Agree.scanDict (h : Agree n data data') {one one' : Scan → Except String Scan}
    (hone : Stable n one one') (hadvances : Advances data one) (turns : Nat) :
    Stable n (scanDict data one turns) (scanDict data' one' turns) := by
  intro scan scan' hok hn
  induction turns generalizing scan with
  | zero => cases hok
  | succ turns ih =>
    obtain ⟨hlt, -⟩ := scanDict_advances hadvances hok
    have hfirst : data'[scan.1]? = data[scan.1]? := h.getElem (by omega)
    obtain ⟨left, hleft, c, hc, ⟨hclose, rfl⟩ | ⟨hopen, valuePos, next, hkey, hmoved, hnext,
      hrest⟩⟩ := scanDict_cases hok
    · rw [Btfind.scanDict, hfirst, hc]
      simp only [if_pos hclose]
    · cases hleft
      obtain ⟨hnext', -⟩ := hadvances _ _ hnext
      obtain ⟨hlt', -⟩ := scanDict_advances hadvances hrest
      simp only at hnext'
      rw [Btfind.scanDict, hfirst, hc]
      simp only [if_neg hopen, h.parseString hkey (by omega), if_neg hmoved,
        hone _ _ hnext (by omega)]
      exact ih _ hrest

theorem Agree.parseOne (h : Agree n data data') (levels : Nat) :
    Stable n (parseOne data levels) (parseOne data' levels) := by
  induction levels with
  | zero =>
    intro _ _ hok
    cases hok
  | succ levels ih =>
    rintro ⟨pos, items⟩ scan' hok hn
    obtain ⟨hlt, -⟩ := parseOne_advances data _ _ _ hok
    have hfirst : data'[pos]? = data[pos]? := h.getElem (by simp only at hlt; omega)
    obtain ⟨below, hbelow, hitems, c, hc, -⟩ := parseOne_cases hok
    rw [hc] at hfirst
    cases hbelow
    have hmap : ∀ stop stop' : Except String Nat, (∀ m, stop = .ok m → m ≤ n → stop' = .ok m) →
        stop.map (fun stop => (stop, items + 1)) = .ok scan' →
          stop'.map (fun stop => (stop, items + 1)) = .ok scan' := by
      intro stop stop' hstable hstop
      cases stop with
      | error e => cases hstop
      | ok m =>
        cases hstop
        rw [hstable m rfl hn]
        rfl
    -- The marker of the value decides which of the four readers goes on.
    rw [parseOne_at hc hitems] at hok
    rw [parseOne_at hfirst hitems]
    by_cases hdict : c = 'd'.toUInt8
    · rw [if_pos hdict] at hok ⊢
      exact h.scanDict ih (parseOne_advances data levels) _ _ _ hok hn
    rw [if_neg hdict] at hok ⊢
    by_cases hlist : c = 'l'.toUInt8
    · rw [if_pos hlist] at hok ⊢
      exact h.scanList ih (parseOne_advances data levels) _ _ _ hok hn
    rw [if_neg hlist] at hok ⊢
    by_cases hint : c = 'i'.toUInt8
    · rw [if_pos hint] at hok ⊢
      exact hmap _ _ (fun _ => h.parseInteger) hok
    rw [if_neg hint] at hok ⊢
    by_cases hstring : isDigit c = true
    · rw [if_pos hstring] at hok ⊢
      exact hmap _ _ (fun _ => h.parseString) hok
    · rw [if_neg hstring] at hok
      cases hok

/-! ## The whole text -/

theorem findBencodeEnd_eq_ok_iff : findBencodeEnd data = .ok n ↔
    ∃ items, parseOne data (maxBencodeDepth + 1) (0, 0) = .ok (n, items) := by
  rw [findBencodeEnd]
  cases hscan : parseOne data (maxBencodeDepth + 1) (0, 0) with
  | error e =>
    constructor
    · intro h
      cases h
    · rintro ⟨items, h⟩
      cases h
  | ok scan =>
    constructor
    · intro h
      cases h
      exact ⟨scan.2, rfl⟩
    · rintro ⟨items, h⟩
      cases h
      rfl

theorem findBencodeEnd_bounds (h : findBencodeEnd data = .ok n) : 0 < n ∧ n ≤ data.length := by
  obtain ⟨items, hscan⟩ := findBencodeEnd_eq_ok_iff.mp h
  exact parseOne_advances data _ _ _ hscan

/-- The answer depends on the consumed prefix alone. -/
theorem findBencodeEnd_take_append (h : findBencodeEnd data = .ok n) (x : Bytes) :
    findBencodeEnd (data.take n ++ x) = .ok n := by
  obtain ⟨items, hscan⟩ := findBencodeEnd_eq_ok_iff.mp h
  have hlength := List.length_take_of_le (findBencodeEnd_bounds h).2
  have hagree : Agree n data (data.take n ++ x) := by
    refine ⟨(List.take_left' hlength).symm, ?_⟩
    rw [List.length_append, hlength]
    exact Nat.le_add_right n _
  exact findBencodeEnd_eq_ok_iff.mpr ⟨items, hagree.parseOne _ _ _ hscan (le_refl n)⟩

/-- No proper prefix of the consumed one is accepted. -/
theorem findBencodeEnd_prefix (h : findBencodeEnd data = .ok n) {p : Bytes}
    (hp : p <+: data.take n) (hne : p ≠ data.take n) (m : Nat) : findBencodeEnd p ≠ .ok m := by
  intro hm
  -- What is accepted of the prefix is accepted of the whole text too, so it ends at `n`.
  obtain ⟨rest, hrest⟩ := hp.trans (List.take_prefix n data)
  have hwhole := findBencodeEnd_take_append hm (p.drop m ++ rest)
  rw [← List.append_assoc, List.take_append_drop, hrest, h] at hwhole
  cases hwhole
  have hlength := List.length_take_of_le (findBencodeEnd_bounds h).2
  refine hne (hp.eq_of_length_le ?_)
  rw [hlength]
  exact (findBencodeEnd_bounds hm).2

end Btfind
