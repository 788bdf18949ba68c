import Btfind.Library.Logged
import Btfind.Wire.ScannerPrefix

/-!
# The calls of the scanner

`find_bencode_end` step by step: an access outside the text is a fault, nothing but fuel bounds
the recursion and the loops, and every call of `parse_one` is logged with its depth and with what
it did to the position and the item count. With a fixed amount of fuel no run has a fault, and
every run ends as the scanner says.
-/

namespace Btfind

open Decimal Logged

/-- Why a run gives no position: the text is refused, it is read where it is not, or the fuel is
used up. -/
inductive ScanFault
  | refused (message : String)
  | outOfRange
  | outOfFuel
  deriving DecidableEq

/-- A call of `parse_one` that has ended; a call that failed has nothing after it. -/
structure ScanCall where
  depth : Nat
  before : Scan
  after : Option Scan
  deriving DecidableEq

abbrev ScanRun := Logged ScanFault ScanCall

/-! ## The code -/

def refuse {α : Type} (message : String) : Except ScanFault α := .error (.refused message)

/-- `data[pos]` -/
def byteAt (data : Bytes) (pos : Nat) : Except ScanFault UInt8 :=
  match data[pos]? with
  | some c => .ok c
  | none => .error .outOfRange

/-- `&data[start..stop]` -/
def sliceOf (data : Bytes) (start stop : Nat) : Except ScanFault Bytes :=
  if start ≤ stop ∧ stop ≤ data.length then .ok ((data.take stop).drop start)
  else .error .outOfRange

/-- `parse_string` -/
def runString (data : Bytes) (start : Nat) : Except ScanFault Nat :=
  let pos := skipDigits data start
  if start = pos ∨ data[pos]? ≠ some ':'.toUInt8 then refuse "invalid bencode string length"
  else do
    let lengthText ← sliceOf data start pos
    if 1 < lengthText.length ∧ lengthText.head? = some '0'.toUInt8 then
      refuse "non-canonical bencode string length"
    else
      let length := value lengthText
      if usizeMax < length then refuse "bencode string length overflow"
      else if maxBencodeString < length then refuse "bencode string exceeds limit"
      else if usizeMax < pos + 1 + length then refuse "bencode string end overflow"
      -- The position may be past the end here; it is not used again when it is.
      else if data.length < pos + 1 + length then refuse "truncated bencode string"
      else return pos + 1 + length

/-- The branch of `parse_one` for an integer. -/
def runInteger (data : Bytes) (start : Nat) : Except ScanFault Nat :=
  let digitsStart := integerDigits data start
  let pos := skipDigits data digitsStart
  if digitsStart = pos ∨ data[pos]? ≠ some 'e'.toUInt8 then refuse "invalid bencode integer"
  else do
    if (← byteAt data start) = '0'.toUInt8 ∧ 1 < pos - start then
      refuse "non-canonical bencode integer"
    else return pos + 1

/-- The loop of `parse_one` over a dictionary. -/
def runDict (data : Bytes) (one : Scan → ScanRun Scan) : Nat → Scan → ScanRun Scan
  | 0, _ => raise .outOfFuel
  | fuel + 1, (pos, items) =>
    if data.length ≤ pos then lift (refuse "unterminated bencode dictionary")
    else do
      if (← lift (byteAt data pos)) = 'e'.toUInt8 then return (pos + 1, items)
      else
        let valuePos ← lift (runString data pos)
        if valuePos = pos then lift (refuse "invalid bencode dictionary key")
        else runDict data one fuel (← one (valuePos, items))

/-- The loop of `parse_one` over a list. -/
def runList (data : Bytes) (one : Scan → ScanRun Scan) : Nat → Scan → ScanRun Scan
  | 0, _ => raise .outOfFuel
  | fuel + 1, (pos, items) =>
    if data.length ≤ pos then lift (refuse "unterminated bencode list")
    else do
      if (← lift (byteAt data pos)) = 'e'.toUInt8 then return (pos + 1, items)
      else runList data one fuel (← one (pos, items))

/-- The body of `parse_one`. -/
def runBody (data : Bytes) (one : Scan → ScanRun Scan) (fuel depth : Nat) :
    Scan → ScanRun Scan
  | (pos, items) =>
    if maxBencodeDepth < depth then lift (refuse "bencode nesting exceeds limit")
    else if data.length ≤ pos then lift (refuse "truncated bencode value")
    else if usizeMax < items + 1 then lift (refuse "bencode item count overflow")
    else if maxBencodeItems < items + 1 then lift (refuse "bencode item count exceeds limit")
    else do
      let c ← lift (byteAt data pos)
      if c = 'd'.toUInt8 then runDict data one fuel (pos + 1, items + 1)
      else if c = 'l'.toUInt8 then runList data one fuel (pos + 1, items + 1)
      else if c = 'i'.toUInt8 then return (← lift (runInteger data (pos + 1)), items + 1)
      else if isDigit c then return (← lift (runString data pos), items + 1)
      else lift (refuse "invalid bencode type marker")

/-- `parse_one` -/
def runOne (data : Bytes) : Nat → Nat → Scan → ScanRun Scan
  | 0, _, _ => raise .outOfFuel
  | fuel + 1, depth, scan =>
    (runBody data (runOne data fuel (depth + 1)) fuel depth scan).note fun result =>
      ⟨depth, scan, result.toOption⟩

/-- `find_bencode_end` -/
def runFindBencodeEnd (data : Bytes) (fuel : Nat) : ScanRun Nat := do
  let scan ← runOne data fuel 0 (0, 0)
  return scan.1

/-- Enough for the deepest nesting, and below it for a loop over all items. -/
def scanFuel : Nat := (maxBencodeDepth + 2) + (maxBencodeItems + 1)

/-! ## Strings and integers -/

section Accesses

variable {data : Bytes} {pos : Nat} {c : UInt8}

theorem byteAt_eq (h : data[pos]? = some c) : byteAt data pos = .ok c := by
  rw [byteAt, h]

theorem sliceOf_digits (h : data[skipDigits data pos]? = some c) :
    sliceOf data pos (skipDigits data pos) = .ok (digits (data.drop pos)) := by
  have htake : (data.drop pos).take (digits (data.drop pos)).length = digits (data.drop pos) :=
    (List.prefix_iff_eq_take.mp (List.takeWhile_prefix _)).symm
  have hslice : (data.take (skipDigits data pos)).drop pos = digits (data.drop pos) := by
    rw [skipDigits, List.drop_take, Nat.add_sub_cancel_left, htake]
  rw [sliceOf, if_pos ⟨le_skipDigits data pos, (lt_length h).le⟩, hslice]

/-- The length of a string is read where there are digits. -/
theorem runString_eq (data : Bytes) (pos : Nat) :
    runString data pos = (parseString data pos).mapError .refused := by
  rw [runString, parseString]
  by_cases hcolon : pos = skipDigits data pos ∨ data[skipDigits data pos]? ≠ some ':'.toUInt8
  · simp only [if_pos hcolon]
    rfl
  · have hbyte : data[skipDigits data pos]? = some ':'.toUInt8 :=
      not_ne_iff.mp fun h => hcolon (Or.inr h)
    simp only [if_neg hcolon, sliceOf_digits hbyte]
    -- The same questions follow in the same order.
    show (if _ then _ else _) = _
    repeat' split
    all_goals rfl

/-- The first byte of an integer is read where a digit or the end follows. -/
theorem runInteger_eq (data : Bytes) (pos : Nat) :
    runInteger data pos = (parseInteger data pos).mapError .refused := by
  rw [runInteger, parseInteger, ← integerDigits]
  by_cases hend : integerDigits data pos = skipDigits data (integerDigits data pos) ∨
      data[skipDigits data (integerDigits data pos)]? ≠ some 'e'.toUInt8
  · simp only [if_pos hend]
    rfl
  · have hbyte : data[skipDigits data (integerDigits data pos)]? = some 'e'.toUInt8 :=
      not_ne_iff.mp fun h => hend (Or.inr h)
    have hlt := lt_length hbyte
    have hskip := le_skipDigits data (integerDigits data pos)
    have hdigits := le_integerDigits data pos
    obtain ⟨c, hc⟩ : ∃ c, data[pos]? = some c := ⟨_, List.getElem?_eq_getElem (by omega)⟩
    simp only [if_neg hend, byteAt_eq hc, hc, Option.some.injEq]
    show (if _ then _ else _) = _
    split <;> rfl

end Accesses

/-! ## What a run is accounted for -/

/-- The call has counted a value: it is not too deep, the text goes on, and an item is left. -/
def ScanCall.Counted (data : Bytes) (call : ScanCall) : Prop :=
  call.depth ≤ maxBencodeDepth ∧ call.before.1 < data.length ∧ call.before.2 < maxBencodeItems

instance (data : Bytes) : DecidablePred (ScanCall.Counted data) :=
  fun _ => inferInstanceAs (Decidable (_ ∧ _ ∧ _))

/-- A call is at an allowed depth, and when it succeeds it has counted a value, it has moved on
and the item count has grown. -/
structure ScanCall.Sound (data : Bytes) (call : ScanCall) : Prop where
  depth : call.depth ≤ maxBencodeDepth + 1
  succeeded : ∀ scan, call.after = some scan →
    call.Counted data ∧ call.before.1 < scan.1 ∧ call.before.2 < scan.2

/-- A run that starts with `items` ends as the scanner says, its calls are sound, and the values
that they have counted are among the items. -/
structure Accounted (data : Bytes) (items : Nat) (run : ScanRun Scan)
    (answer : Except String Scan) : Prop where
  result : run.result = answer.mapError .refused
  calls : All (ScanCall.Sound data) run
  counted : Metered (fun call => if call.Counted data then 1 else 0) Prod.snd maxBencodeItems
    items run

section Accounts

variable {data : Bytes} {items levels depth turns fuel : Nat} {scan : Scan} {message : String}
  {run : ScanRun Scan} {answer answer' : Except String Scan} {f : Scan → ScanRun Scan}

theorem Accounted.refuse (h : items ≤ maxBencodeItems) :
    Accounted data items (lift (refuse message)) (.error message) where
  result := rfl
  calls := All.of_empty rfl
  counted := Metered.of_error rfl rfl h

theorem Accounted.pure (h : items ≤ scan.2) (hlimit : scan.2 ≤ maxBencodeItems) :
    Accounted data items (pure scan) (.ok scan) where
  result := rfl
  calls := All.of_empty rfl
  counted := Metered.pure h hlimit

theorem Accounted.answer_ok (h : Accounted data items run answer)
    (hrun : run.result = .ok scan) : answer = .ok scan := by
  rw [h.result] at hrun
  cases answer with
  | error e => cases hrun
  | ok next =>
    cases hrun
    rfl

/-- The first answer is passed on when it is an error; otherwise the rest answers. -/
theorem Accounted.bind (h : Accounted data items run answer)
    (herror : ∀ e, answer = .error e → answer' = .error e)
    (hf : ∀ scan, answer = .ok scan → scan.2 ≤ maxBencodeItems →
      Accounted data scan.2 (f scan) answer') :
    Accounted data items (run >>= f) answer' where
  result := by
    have hrun := h.result
    cases hanswer : answer with
    | error e =>
      rw [hanswer] at hrun
      rw [bind_of_error hrun, herror e hanswer]
      rfl
    | ok scan =>
      rw [hanswer] at hrun
      rw [bind_of_ok hrun]
      exact (hf scan hanswer (h.counted.paid scan hrun).2).result
  calls := by
    refine h.calls.bind ?_
    intro scan hrun
    exact (hf scan (h.answer_ok hrun) (h.counted.paid scan hrun).2).calls
  counted := by
    refine h.counted.bind ?_
    intro scan hrun hlimit
    exact (hf scan (h.answer_ok hrun) hlimit).counted

/-- A value that is a string or an integer ends at a stop. -/
theorem Accounted.stop (stop : Except String Nat) (h : items ≤ maxBencodeItems) :
    Accounted data items
      (lift (stop.mapError .refused) >>= fun stop => Pure.pure (stop, items))
      (stop.map fun stop => (stop, items)) := by
  cases stop with
  | error message => exact Accounted.refuse h
  | ok stop => exact Accounted.pure (le_refl items) h

/-- The note of a call adds the value that the call has counted. -/
theorem Accounted.note (hdepth : depth + levels = maxBencodeDepth + 1)
    (h : Accounted data
      (scan.2 + if (ScanCall.mk depth scan none).Counted data then 1 else 0) run
      (parseOne data levels scan)) :
    Accounted data scan.2 (run.note fun result => ⟨depth, scan, result.toOption⟩)
      (parseOne data levels scan) where
  result := h.result
  calls := by
    refine h.calls.note ⟨Nat.le.intro hdepth, ?_⟩
    intro scan' hafter
    have hscan : parseOne data levels scan = .ok scan' := by
      cases hrun : run.result with
      | error e =>
        rw [hrun] at hafter
        cases hafter
      | ok next =>
        rw [hrun] at hafter
        cases hafter
        exact h.answer_ok hrun
    obtain ⟨below, hbelow, hitems, c, hc, -⟩ := parseOne_cases hscan
    exact ⟨⟨by simp only; omega, lt_length hc, hitems⟩, (parseOne_advances data _ _ _ hscan).1,
      (parseOne_counts data _ _ _ hscan).1⟩
  counted := Metered.note h.counted

/-! ## The loops -/

section Loops

variable {one : Scan → ScanRun Scan} {one' : Scan → Except String Scan} {pos : Nat}

/-- Every turn counts an item, so the items run out before the turns and the fuel do. -/
theorem accounted_runList
    (hone : ∀ scan, scan.2 ≤ maxBencodeItems → Accounted data scan.2 (one scan) (one' scan))
    (hcounts : Counts one') (hitems : items ≤ maxBencodeItems)
    (hturns : maxBencodeItems < turns + items) (hfuel : turns ≤ fuel) :
    Accounted data items (runList data one fuel (pos, items))
      (scanList data one' turns (pos, items)) := by
  induction turns generalizing pos items fuel with
  | zero => omega
  | succ turns ih =>
    obtain ⟨fuel, rfl⟩ := Nat.exists_eq_add_one_of_ne_zero (Nat.ne_zero_of_lt hfuel)
    rw [runList, scanList]
    cases hc : data[pos]? with
    | none =>
      rw [if_pos (List.getElem?_eq_none_iff.mp hc)]
      exact Accounted.refuse hitems
    | some c =>
      rw [if_neg (Nat.not_le.mpr (lt_length hc)), byteAt_eq hc, lift_ok_bind]
      simp only
      split
      · exact Accounted.pure (le_refl _) hitems
      · refine (hone (pos, items) hitems).bind (fun e he => by rw [he]) ?_
        rintro ⟨next, items'⟩ hnext hlimit
        rw [hnext]
        have hlt := (hcounts _ _ hnext).1
        exact ih hlimit (by simp only at hlt; omega) (by omega)

theorem accounted_runDict
    (hone : ∀ scan, scan.2 ≤ maxBencodeItems → Accounted data scan.2 (one scan) (one' scan))
    (hcounts : Counts one') (hitems : items ≤ maxBencodeItems)
    (hturns : maxBencodeItems < turns + items) (hfuel : turns ≤ fuel) :
    Accounted data items (runDict data one fuel (pos, items))
      (scanDict data one' turns (pos, items)) := by
  induction turns generalizing pos items fuel with
  | zero => omega
  | succ turns ih =>
    obtain ⟨fuel, rfl⟩ := Nat.exists_eq_add_one_of_ne_zero (Nat.ne_zero_of_lt hfuel)
    rw [runDict, scanDict]
    cases hc : data[pos]? with
    | none =>
      rw [if_pos (List.getElem?_eq_none_iff.mp hc)]
      exact Accounted.refuse hitems
    | some c =>
      rw [if_neg (Nat.not_le.mpr (lt_length hc)), byteAt_eq hc, lift_ok_bind, runString_eq]
      simp only
      split
      · exact Accounted.pure (le_refl _) hitems
      · cases parseString data pos with
        | error message => exact Accounted.refuse hitems
        | ok valuePos =>
          rw [Except.mapError, lift_ok_bind]
          simp only
          split
          · exact Accounted.refuse hitems
          · refine (hone (valuePos, items) hitems).bind (fun e he => by rw [he]) ?_
            rintro ⟨next, items'⟩ hnext hlimit
            rw [hnext]
            have hlt := (hcounts _ _ hnext).1
            exact ih hlimit (by simp only at hlt; omega) (by omega)

end Loops

/-! ## Values -/

/-- A call that counts no value is refused. -/
theorem accounted_runBody_refused {one : Scan → ScanRun Scan}
    (hdepth : depth + levels = maxBencodeDepth + 1) (hitems : scan.2 ≤ maxBencodeItems)
    (h : ¬(ScanCall.mk depth scan none).Counted data) :
    Accounted data scan.2 (runBody data one fuel depth scan) (parseOne data levels scan) := by
  have husize : maxBencodeItems < usizeMax := by decide
  obtain ⟨pos, items⟩ := scan
  cases levels with
  | zero =>
    rw [runBody, if_pos (by omega)]
    exact Accounted.refuse hitems
  | succ levels =>
    rw [runBody, if_neg (by omega), parseOne]
    cases hc : data[pos]? with
    | none =>
      rw [if_pos (List.getElem?_eq_none_iff.mp hc)]
      exact Accounted.refuse hitems
    | some c =>
      have hpos := lt_length hc
      have hfull : maxBencodeItems < items + 1 := by
        by_contra hroom
        exact h ⟨by simp only; omega, hpos, Nat.not_lt.mp hroom⟩
      simp only at hitems ⊢
      rw [if_neg (Nat.not_le.mpr hpos), if_neg (by omega), if_pos hfull, if_neg (by omega),
        if_pos hfull]
      exact Accounted.refuse hitems

/-- A value is counted before it is read, and its parts are counted after it. -/
theorem accounted_runBody {one : Scan → ScanRun Scan}
    (hone : ∀ scan, scan.2 ≤ maxBencodeItems →
      Accounted data scan.2 (one scan) (parseOne data levels scan))
    (hfuel : maxBencodeItems + 1 ≤ fuel) (h : (ScanCall.mk depth scan none).Counted data) :
    Accounted data (scan.2 + 1) (runBody data one fuel depth scan)
      (parseOne data (levels + 1) scan) := by
  have husize : maxBencodeItems ≤ usizeMax := by decide
  obtain ⟨hdepth, hpos, hitems⟩ := h
  obtain ⟨pos, items⟩ := scan
  simp only at hdepth hpos hitems ⊢
  have hcounts := parseOne_counts data levels
  have hturns : maxBencodeItems < maxBencodeItems + 1 + (items + 1) := by omega
  obtain ⟨c, hc⟩ : ∃ c, data[pos]? = some c := ⟨_, List.getElem?_eq_getElem hpos⟩
  rw [runBody, if_neg (by omega), if_neg (by omega), if_neg (by omega), if_neg (by omega),
    byteAt_eq hc, lift_ok_bind, parseOne_at hc hitems]
  split
  · exact accounted_runDict hone hcounts hitems hturns hfuel
  · split
    · exact accounted_runList hone hcounts hitems hturns hfuel
    · split
      · rw [runInteger_eq]
        exact Accounted.stop _ hitems
      · split
        · rw [runString_eq]
          exact Accounted.stop _ hitems
        · exact Accounted.refuse hitems

/-- Every level takes one unit of fuel and leaves enough for its loop. -/
theorem accounted_runOne (scan : Scan) (hdepth : depth + levels = maxBencodeDepth + 1)
    (hfuel : levels + 1 + (maxBencodeItems + 1) ≤ fuel) (hitems : scan.2 ≤ maxBencodeItems) :
    Accounted data scan.2 (runOne data fuel depth scan) (parseOne data levels scan) := by
  induction levels generalizing depth fuel scan with
  | zero =>
    obtain ⟨fuel, rfl⟩ := Nat.exists_eq_add_one_of_ne_zero (n := fuel) (by omega)
    have hcounted : ¬(ScanCall.mk depth scan none).Counted data := by
      rintro ⟨hallowed, -⟩
      simp only at hallowed
      omega
    refine Accounted.note hdepth ?_
    rw [if_neg hcounted]
    exact accounted_runBody_refused hdepth hitems hcounted
  | succ levels ih =>
    obtain ⟨fuel, rfl⟩ := Nat.exists_eq_add_one_of_ne_zero (n := fuel) (by omega)
    refine Accounted.note hdepth ?_
    split
    · next hcounted =>
      refine accounted_runBody ?_ (by omega) hcounted
      intro scan hitems
      exact ih scan (by omega) (by omega) hitems
    · next hcounted => exact accounted_runBody_refused hdepth hitems hcounted

/-- The run of the scanner: it ends as the scanner says, and its calls are accounted for. -/
theorem accounted_runFindBencodeEnd (data : Bytes) (h : scanFuel ≤ fuel) :
    Accounted data 0 (runOne data fuel 0 (0, 0)) (parseOne data (maxBencodeDepth + 1) (0, 0)) :=
  accounted_runOne (0, 0) (Nat.zero_add _) h (Nat.zero_le _)

end Accounts

/-! ## The whole text -/

section Whole

variable {data : Bytes} {fuel n : Nat}

theorem runFindBencodeEnd_log (data : Bytes) (fuel : Nat) :
    (runFindBencodeEnd data fuel).log = (runOne data fuel 0 (0, 0)).log := by
  rw [runFindBencodeEnd]
  cases hrun : (runOne data fuel 0 (0, 0)).result with
  | error e => rw [bind_of_error hrun]
  | ok scan =>
    rw [bind_of_ok hrun]
    exact List.append_nil _

theorem runFindBencodeEnd_result (data : Bytes) (h : scanFuel ≤ fuel) :
    (runFindBencodeEnd data fuel).result = (findBencodeEnd data).mapError .refused := by
  have hrun := (accounted_runFindBencodeEnd data h).result
  rw [runFindBencodeEnd, findBencodeEnd]
  cases hscan : parseOne data (maxBencodeDepth + 1) (0, 0) with
  | error e =>
    rw [hscan] at hrun
    rw [bind_of_error hrun]
    rfl
  | ok scan =>
    rw [hscan] at hrun
    rw [bind_of_ok hrun]
    rfl

theorem runFindBencodeEnd_eq_ok_iff (h : scanFuel ≤ fuel) :
    (runFindBencodeEnd data fuel).result = .ok n ↔ findBencodeEnd data = .ok n := by
  rw [runFindBencodeEnd_result data h]
  cases findBencodeEnd data with
  | error e =>
    constructor
    · intro hn
      cases hn
    · intro hn
      cases hn
  | ok m =>
    rw [Except.mapError, Except.ok.injEq, Except.ok.injEq]

/-- The only fault of a run is that the text is refused. -/
theorem runFindBencodeEnd_error (h : scanFuel ≤ fuel) {fault : ScanFault}
    (hfault : (runFindBencodeEnd data fuel).result = .error fault) :
    ∃ message, fault = .refused message := by
  rw [runFindBencodeEnd_result data h] at hfault
  cases hend : findBencodeEnd data with
  | error message =>
    rw [hend] at hfault
    cases hfault
    exact ⟨message, rfl⟩
  | ok n =>
    rw [hend] at hfault
    cases hfault

/-- The scanner is safe on any bytes and self-delimiting. It ends, and it reads nothing outside the
text. An answer depends on the consumed prefix alone, and nothing shorter is accepted. Every call
that succeeds moves on and counts a value, so that no more values are counted than are allowed. -/
theorem scanner_self_delimiting (data : Bytes) (h : scanFuel ≤ fuel) :
    let run := runFindBencodeEnd data fuel
    run.result ≠ .error .outOfFuel ∧ run.result ≠ .error .outOfRange ∧
      (∀ n, run.result = .ok n → 0 < n ∧ n ≤ data.length ∧
        (∀ x, (runFindBencodeEnd (data.take n ++ x) fuel).result = .ok n) ∧
        ∀ p, p <+: data.take n → p ≠ data.take n →
          ∀ m, (runFindBencodeEnd p fuel).result ≠ .ok m) ∧
      (∀ call ∈ run.log, call.depth ≤ maxBencodeDepth + 1 ∧
        ∀ scan, call.after = some scan →
          call.Counted data ∧ call.before.1 < scan.1 ∧ call.before.2 + 1 ≤ scan.2) ∧
      run.log.countP (ScanCall.Counted data) ≤ maxBencodeItems := by
  have haccounts := accounted_runFindBencodeEnd data h
  refine ⟨?_, ?_, ?_, ?_, ?_⟩
  · intro hfault
    obtain ⟨message, hmessage⟩ := runFindBencodeEnd_error h hfault
    cases hmessage
  · intro hfault
    obtain ⟨message, hmessage⟩ := runFindBencodeEnd_error h hfault
    cases hmessage
  · intro n hn
    have hend := (runFindBencodeEnd_eq_ok_iff h).mp hn
    obtain ⟨hpos, hlength⟩ := findBencodeEnd_bounds hend
    refine ⟨hpos, hlength, ?_, ?_⟩
    · intro x
      exact (runFindBencodeEnd_eq_ok_iff h).mpr (findBencodeEnd_take_append hend x)
    · intro p hp hne m hm
      exact findBencodeEnd_prefix hend hp hne m ((runFindBencodeEnd_eq_ok_iff h).mp hm)
  · intro call hcall
    rw [runFindBencodeEnd_log] at hcall
    have hsound := haccounts.calls call hcall
    exact ⟨hsound.depth, hsound.succeeded⟩
  · rw [runFindBencodeEnd_log, ← total_ite]
    exact haccounts.counted.within

/-- A dictionary with a list in it, and bytes that are no part of it. -/
def nestedText : Bytes := asBytes "d1:ali1eeetail"

theorem scanner_self_delimiting_nested :
    (∀ x, (runFindBencodeEnd (nestedText.take 10 ++ x) scanFuel).result = .ok 10) ∧
      (runFindBencodeEnd nestedText scanFuel).log.countP (ScanCall.Counted nestedText) ≤
        maxBencodeItems := by
  have hend : findBencodeEnd nestedText = .ok 10 := by rfl
  have hresult := (runFindBencodeEnd_eq_ok_iff (le_refl scanFuel)).mpr hend
  obtain ⟨-, -, haccepts, -, hcounted⟩ := scanner_self_delimiting nestedText (le_refl scanFuel)
  exact ⟨(haccepts 10 hresult).2.2.1, hcounted⟩

end Whole

end Btfind
