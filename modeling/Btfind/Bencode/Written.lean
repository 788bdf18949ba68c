import Btfind.Bencode.Codec

/-!
# Bencode as it is written

A value with the text of each of its integers. The text may have a sign and leading zeros, so one
value can be written in several ways; what is written can be read in one way only.
-/

namespace Btfind

open Decimal

/-- The text of an integer: a sign, and at least one digit. -/
@[ext]
structure IntText where
  negative : Bool
  digits : Bytes
  nonempty : digits ≠ []
  digit : ∀ b ∈ digits, isDigit b = true

namespace IntText

def text (i : IntText) : Bytes := if i.negative then '-'.toUInt8 :: i.digits else i.digits

def value (i : IntText) : Int :=
  if i.negative then -(Decimal.value i.digits : Int) else Decimal.value i.digits

/-- A minus sign before a zero: `-0`, and numbers with a zero after the sign. -/
def SignedZero (i : IntText) : Prop := i.negative = true ∧ i.digits.head? = some '0'.toUInt8

/-- A leading zero without a sign before it. -/
def UnsignedZero (i : IntText) : Prop :=
  i.negative = false ∧ i.digits.head? = some '0'.toUInt8 ∧ 1 < i.digits.length

def ofInt (i : Int) : IntText := ⟨i < 0, decimal i.natAbs, decimal_ne_nil _, fun _ => isDigit_of_mem⟩

theorem text_ofInt (i : Int) : (ofInt i).text = BencodeValue.encodeInt i := by
  rw [text, ofInt, BencodeValue.encodeInt]
  by_cases hneg : i < 0
  · rw [if_pos hneg, if_pos (decide_eq_true hneg)]
  · rw [if_neg hneg, if_neg (by simpa using hneg)]

theorem not_signedZero_ofInt (i : Int) : ¬(ofInt i).SignedZero := by
  rintro ⟨hneg, hhead⟩
  have hlt : i < 0 := of_decide_eq_true hneg
  have hzero := head_decimal hhead
  omega

/-- Only the two kinds of zeros keep a text from being canonical. -/
theorem text_eq_encodeInt {i : IntText} (hsigned : ¬i.SignedZero) (hunsigned : ¬i.UnsignedZero) :
    i.text = BencodeValue.encodeInt i.value := by
  have hdecimal : decimal (Decimal.value i.digits) = i.digits := by
    refine decimal_value i.nonempty i.digit fun hhead => ?_
    have hpos := List.length_pos_iff.mpr i.nonempty
    cases hneg : i.negative with
    | true => exact absurd ⟨hneg, hhead⟩ hsigned
    | false =>
      have hle : ¬1 < i.digits.length := fun hlong => hunsigned ⟨hneg, hhead, hlong⟩
      omega
  rw [text, value, BencodeValue.encodeInt]
  cases hneg : i.negative with
  | false =>
    rw [if_neg Bool.false_ne_true, if_neg Bool.false_ne_true,
      if_neg (Int.not_lt.mpr (Int.natCast_nonneg _)), Int.natAbs_natCast, hdecimal]
  | true =>
    have hpos : Decimal.value i.digits ≠ 0 := by
      intro hzero
      rw [hzero, decimal_zero] at hdecimal
      refine hsigned ⟨hneg, ?_⟩
      rw [← hdecimal]
      rfl
    rw [if_pos rfl, if_pos rfl, if_pos (by omega), Int.natAbs_neg, Int.natAbs_natCast, hdecimal]

/-- The digits end at the `e`, and the sign is not a digit. -/
theorem text_append_inj {i i' : IntText} {x x' : Bytes}
    (h : i.text ++ 'e'.toUInt8 :: x = i'.text ++ 'e'.toUInt8 :: x') : i = i' ∧ x = x' := by
  have hdigits : ∀ (i : IntText) (x : Bytes),
      Decimal.digits (i.digits ++ 'e'.toUInt8 :: x) = i.digits := by
    intro i x
    rw [Decimal.digits, List.takeWhile_append_of_pos i.digit,
      List.takeWhile_cons_of_neg (by decide), List.append_nil]
  have hunsigned : ∀ (i : IntText) (x : Bytes),
      (i.digits ++ 'e'.toUInt8 :: x).head? ≠ some '-'.toUInt8 := by
    intro i x heq
    obtain ⟨c, rest, hcons⟩ := List.exists_cons_of_ne_nil i.nonempty
    have hdigit := i.digit c (by rw [hcons]; exact List.mem_cons_self)
    rw [hcons] at heq
    cases heq
    revert hdigit
    decide
  have hread : i.negative = i'.negative ∧
      i.digits ++ 'e'.toUInt8 :: x = i'.digits ++ 'e'.toUInt8 :: x' := by
    rw [text, text] at h
    cases hneg : i.negative <;> cases hneg' : i'.negative <;>
      rw [hneg, hneg'] at h <;>
      simp only [Bool.false_eq_true, if_true, if_false, List.cons_append, List.cons.injEq,
        true_and] at h
    · exact ⟨rfl, h⟩
    · exact absurd (by rw [h]; rfl) (hunsigned i x)
    · exact absurd (by rw [← h]; rfl) (hunsigned i' x')
    · exact ⟨rfl, h⟩
  obtain ⟨hsign, hrest⟩ := hread
  have htext : i.digits = i'.digits := by
    rw [← hdigits i x, hrest, hdigits]
  rw [htext] at hrest
  have htail := List.append_cancel_left hrest
  exact ⟨IntText.ext hsign htext, List.tail_eq_of_cons_eq htail⟩

end IntText

inductive Written
  | bytes (b : Bytes)
  | int (i : IntText)
  | list (items : List Written)
  | dict (entries : List (Bytes × Written))

namespace Written

mutual

def write : Written → Bytes
  | .bytes b => BencodeValue.encodeBytes b
  | .int i => 'i'.toUInt8 :: (i.text ++ ['e'.toUInt8])
  | .list items => 'l'.toUInt8 :: (writeItems items ++ ['e'.toUInt8])
  | .dict entries => 'd'.toUInt8 :: (writeEntries entries ++ ['e'.toUInt8])

def writeItems : List Written → Bytes
  | [] => []
  | t :: items => write t ++ writeItems items

def writeEntries : List (Bytes × Written) → Bytes
  | [] => []
  | (key, t) :: entries => BencodeValue.encodeBytes key ++ (write t ++ writeEntries entries)

end

mutual

def value : Written → BencodeValue
  | .bytes b => .bytes b
  | .int i => .int i.value
  | .list items => .list (itemValues items)
  | .dict entries => .dict (entryValues entries)

def itemValues : List Written → List BencodeValue
  | [] => []
  | t :: items => value t :: itemValues items

def entryValues : List (Bytes × Written) → BencodeDict
  | [] => []
  | (key, t) :: entries => (key, value t) :: entryValues entries

end

mutual

/-- The integers of a value. -/
def ints : Written → List IntText
  | .bytes _ => []
  | .int i => [i]
  | .list items => itemInts items
  | .dict entries => entryInts entries

def itemInts : List Written → List IntText
  | [] => []
  | t :: items => ints t ++ itemInts items

def entryInts : List (Bytes × Written) → List IntText
  | [] => []
  | (_, t) :: entries => ints t ++ entryInts entries

end

/-- Induction on a value and on what it contains. -/
@[elab_as_elim]
theorem induction {P : Written → Prop} (bytes : ∀ b, P (.bytes b)) (int : ∀ i, P (.int i))
    (list : ∀ items, (∀ t ∈ items, P t) → P (.list items))
    (dict : ∀ entries, (∀ e ∈ entries, P e.2) → P (.dict entries)) : ∀ t, P t
  | .bytes b => bytes b
  | .int i => int i
  | .list items => list items fun t _ => induction bytes int list dict t
  | .dict entries => dict entries fun e _ => induction bytes int list dict e.2
termination_by t => sizeOf t
decreasing_by
  · have hsize := List.sizeOf_lt_of_mem ‹t ∈ items›
    simp only [Written.list.sizeOf_spec]
    omega
  · have hsize := List.sizeOf_lt_of_mem ‹e ∈ entries›
    have hpair : sizeOf e.2 < sizeOf e := by
      cases e
      simp only [Prod.mk.sizeOf_spec]
      omega
    simp only [Written.dict.sizeOf_spec]
    omega

/-! ## Canonical text -/

theorem write_eq_encode (t : Written) (h : ∀ i ∈ t.ints, ¬i.SignedZero ∧ ¬i.UnsignedZero) :
    t.write = t.value.encode := by
  induction t using Written.induction with
  | bytes b => rfl
  | int i =>
    have hi := h i List.mem_cons_self
    rw [write, value, BencodeValue.encode, IntText.text_eq_encodeInt hi.1 hi.2]
  | list items ih =>
    have hitems : writeItems items = BencodeValue.encodeItems (itemValues items) := by
      rw [ints] at h
      induction items with
      | nil => rfl
      | cons t items ihitems =>
        rw [itemInts] at h
        rw [writeItems, itemValues, BencodeValue.encodeItems,
          ih t List.mem_cons_self fun i hi => h i (List.mem_append_left _ hi),
          ihitems (fun u hu => ih u (List.mem_cons_of_mem _ hu))
            fun i hi => h i (List.mem_append_right _ hi)]
    rw [write, value, BencodeValue.encode, hitems]
  | dict entries ih =>
    have hentries : writeEntries entries = BencodeValue.encodeEntries (entryValues entries) := by
      rw [ints] at h
      induction entries with
      | nil => rfl
      | cons e entries ihentries =>
        obtain ⟨key, t⟩ := e
        rw [entryInts] at h
        rw [writeEntries, entryValues, BencodeValue.encodeEntries,
          ih (key, t) List.mem_cons_self fun i hi => h i (List.mem_append_left _ hi),
          ihentries (fun u hu => ih u (List.mem_cons_of_mem _ hu))
            fun i hi => h i (List.mem_append_right _ hi)]
    rw [write, value, BencodeValue.encode, hentries]

mutual

/-- The canonical text of a value. -/
def ofValue : BencodeValue → Written
  | .bytes b => .bytes b
  | .int i => .int (.ofInt i)
  | .list items => .list (ofItems items)
  | .dict entries => .dict (ofEntries entries)

def ofItems : List BencodeValue → List Written
  | [] => []
  | v :: items => ofValue v :: ofItems items

def ofEntries : BencodeDict → List (Bytes × Written)
  | [] => []
  | (key, v) :: entries => (key, ofValue v) :: ofEntries entries

end

/-- What is written for a value is its encoding, and no integer of it has a zero after a sign. -/
theorem ofValue_spec (v : BencodeValue) :
    (ofValue v).write = v.encode ∧ ∀ i ∈ (ofValue v).ints, ¬i.SignedZero := by
  induction v using BencodeValue.induction with
  | bytes b => exact ⟨rfl, List.forall_mem_nil _⟩
  | int i =>
    refine ⟨?_, ?_⟩
    · rw [ofValue, write, BencodeValue.encode, IntText.text_ofInt]
    · intro j hj
      rw [ofValue, ints, List.mem_singleton] at hj
      rw [hj]
      exact IntText.not_signedZero_ofInt i
  | list items ih =>
    have hitems : writeItems (ofItems items) = BencodeValue.encodeItems items ∧
        ∀ i ∈ itemInts (ofItems items), ¬i.SignedZero := by
      induction items with
      | nil => exact ⟨rfl, List.forall_mem_nil _⟩
      | cons v items ihitems =>
        obtain ⟨hv, hints⟩ := ih v List.mem_cons_self
        obtain ⟨hrest, hrestInts⟩ := ihitems fun u hu => ih u (List.mem_cons_of_mem _ hu)
        rw [ofItems, writeItems, itemInts, BencodeValue.encodeItems, hv, hrest]
        exact ⟨rfl, List.forall_mem_append.mpr ⟨hints, hrestInts⟩⟩
    rw [ofValue, write, ints, BencodeValue.encode, hitems.1]
    exact ⟨rfl, hitems.2⟩
  | dict entries ih =>
    have hentries : writeEntries (ofEntries entries) = BencodeValue.encodeEntries entries ∧
        ∀ i ∈ entryInts (ofEntries entries), ¬i.SignedZero := by
      induction entries with
      | nil => exact ⟨rfl, List.forall_mem_nil _⟩
      | cons e entries ihentries =>
        obtain ⟨key, v⟩ := e
        obtain ⟨hv, hints⟩ := ih (key, v) List.mem_cons_self
        obtain ⟨hrest, hrestInts⟩ := ihentries fun u hu => ih u (List.mem_cons_of_mem _ hu)
        rw [ofEntries, writeEntries, entryInts, BencodeValue.encodeEntries, hv, hrest]
        exact ⟨rfl, List.forall_mem_append.mpr ⟨hints, hrestInts⟩⟩
    rw [ofValue, write, ints, BencodeValue.encode, hentries.1]
    exact ⟨rfl, hentries.2⟩

/-! ## One reading -/

inductive Kind
  | bytes
  | int
  | list
  | dict

/-- What the first byte of a value says about it. -/
def kindOf (c : UInt8) : Option Kind :=
  if isDigit c then some .bytes
  else if c = 'i'.toUInt8 then some .int
  else if c = 'l'.toUInt8 then some .list
  else if c = 'd'.toUInt8 then some .dict
  else none

def kind : Written → Kind
  | .bytes _ => .bytes
  | .int _ => .int
  | .list _ => .list
  | .dict _ => .dict

theorem write_head (t : Written) (x : Bytes) :
    ∃ c tail, t.write ++ x = c :: tail ∧ kindOf c = some t.kind ∧ c ≠ 'e'.toUInt8 := by
  cases t with
  | bytes b =>
    obtain ⟨c, tail, hcons, hdigit⟩ := BencodeValue.encodeBytes_head b x
    refine ⟨c, tail, hcons, if_pos hdigit, ?_⟩
    rintro rfl
    revert hdigit
    decide
  | int i => exact ⟨_, _, rfl, rfl, by decide⟩
  | list items => exact ⟨_, _, rfl, rfl, by decide⟩
  | dict entries => exact ⟨_, _, rfl, rfl, by decide⟩

theorem kind_eq {t t' : Written} {x x' : Bytes} (h : t.write ++ x = t'.write ++ x') :
    t.kind = t'.kind := by
  obtain ⟨c, tail, hcons, hkind, -⟩ := write_head t x
  obtain ⟨c', tail', hcons', hkind', -⟩ := write_head t' x'
  rw [hcons, hcons'] at h
  rw [List.head_eq_of_cons_eq h, hkind'] at hkind
  exact (Option.some.inj hkind).symm

/-- What starts with the text of `t` starts with the text of no other value. -/
def Unique (t : Written) : Prop := ∀ t' x x', t.write ++ x = t'.write ++ x' → t = t' ∧ x = x'

theorem encodeBytes_append_inj {b b' x x' : Bytes}
    (h : BencodeValue.encodeBytes b ++ x = BencodeValue.encodeBytes b' ++ x') :
    b = b' ∧ x = x' := by
  have hread := congrArg BencodeValue.decodeBytes h
  rw [BencodeValue.decodeBytes_encodeBytes, BencodeValue.decodeBytes_encodeBytes] at hread
  exact Prod.mk.inj (Option.some.inj hread)

theorem writeItems_append_inj {items : List Written} (h : ∀ t ∈ items, t.Unique)
    {items' : List Written} {x x' : Bytes}
    (heq : writeItems items ++ 'e'.toUInt8 :: x = writeItems items' ++ 'e'.toUInt8 :: x') :
    items = items' ∧ x = x' := by
  induction items generalizing items' with
  | nil =>
    cases items' with
    | nil => exact ⟨rfl, List.tail_eq_of_cons_eq heq⟩
    | cons t' items' =>
      rw [writeItems, writeItems, List.nil_append, List.append_assoc] at heq
      obtain ⟨c, tail, hcons, -, hc⟩ := write_head t' (writeItems items' ++ 'e'.toUInt8 :: x')
      rw [hcons] at heq
      exact absurd (List.head_eq_of_cons_eq heq).symm hc
  | cons t items ih =>
    rw [writeItems, List.append_assoc] at heq
    cases items' with
    | nil =>
      obtain ⟨c, tail, hcons, -, hc⟩ := write_head t (writeItems items ++ 'e'.toUInt8 :: x)
      rw [hcons] at heq
      exact absurd (List.head_eq_of_cons_eq heq) hc
    | cons t' items' =>
      rw [writeItems, List.append_assoc] at heq
      obtain ⟨rfl, hrest⟩ := h t List.mem_cons_self _ _ _ heq
      obtain ⟨rfl, htail⟩ := ih (fun u hu => h u (List.mem_cons_of_mem _ hu)) hrest
      exact ⟨rfl, htail⟩

theorem writeEntries_append_inj {entries : List (Bytes × Written)} (h : ∀ e ∈ entries, e.2.Unique)
    {entries' : List (Bytes × Written)} {x x' : Bytes}
    (heq : writeEntries entries ++ 'e'.toUInt8 :: x = writeEntries entries' ++ 'e'.toUInt8 :: x') :
    entries = entries' ∧ x = x' := by
  have hclosed : ∀ (key rest : Bytes) (x : Bytes),
      'e'.toUInt8 :: x ≠ BencodeValue.encodeBytes key ++ rest := by
    intro key rest x hopen
    obtain ⟨c, tail, hcons, hdigit⟩ := BencodeValue.encodeBytes_head key rest
    rw [hcons] at hopen
    rw [← List.head_eq_of_cons_eq hopen] at hdigit
    revert hdigit
    decide
  induction entries generalizing entries' with
  | nil =>
    cases entries' with
    | nil => exact ⟨rfl, List.tail_eq_of_cons_eq heq⟩
    | cons e' entries' =>
      obtain ⟨key', t'⟩ := e'
      rw [writeEntries, writeEntries, List.nil_append, List.append_assoc] at heq
      exact absurd heq (hclosed _ _ _)
  | cons e entries ih =>
    obtain ⟨key, t⟩ := e
    rw [writeEntries, List.append_assoc, List.append_assoc] at heq
    cases entries' with
    | nil => exact absurd heq.symm (hclosed _ _ _)
    | cons e' entries' =>
      obtain ⟨key', t'⟩ := e'
      rw [writeEntries, List.append_assoc, List.append_assoc] at heq
      obtain ⟨rfl, hvalue⟩ := encodeBytes_append_inj heq
      obtain ⟨rfl, hrest⟩ := h (key, t) List.mem_cons_self _ _ _ hvalue
      obtain ⟨rfl, htail⟩ := ih (fun u hu => h u (List.mem_cons_of_mem _ hu)) hrest
      exact ⟨rfl, htail⟩

theorem unique (t : Written) : t.Unique := by
  -- The first byte tells the kind, so the other text is one of the same kind.
  induction t using Written.induction with
  | bytes b =>
    intro t' x x' heq
    have hkind := kind_eq heq
    cases t' with
    | bytes b' =>
      obtain ⟨rfl, htail⟩ := encodeBytes_append_inj heq
      exact ⟨rfl, htail⟩
    | int | list | dict => cases hkind
  | int i =>
    intro t' x x' heq
    have hkind := kind_eq heq
    cases t' with
    | int i' =>
      rw [write, write, List.cons_append, List.cons_append, List.append_assoc,
        List.append_assoc] at heq
      obtain ⟨rfl, htail⟩ := IntText.text_append_inj (List.tail_eq_of_cons_eq heq)
      exact ⟨rfl, htail⟩
    | bytes | list | dict => cases hkind
  | list items ih =>
    intro t' x x' heq
    have hkind := kind_eq heq
    cases t' with
    | list items' =>
      rw [write, write, List.cons_append, List.cons_append, List.append_assoc,
        List.append_assoc] at heq
      obtain ⟨rfl, htail⟩ := writeItems_append_inj ih (List.tail_eq_of_cons_eq heq)
      exact ⟨rfl, htail⟩
    | bytes | int | dict => cases hkind
  | dict entries ih =>
    intro t' x x' heq
    have hkind := kind_eq heq
    cases t' with
    | dict entries' =>
      rw [write, write, List.cons_append, List.cons_append, List.append_assoc,
        List.append_assoc] at heq
      obtain ⟨rfl, htail⟩ := writeEntries_append_inj ih (List.tail_eq_of_cons_eq heq)
      exact ⟨rfl, htail⟩
    | bytes | int | list => cases hkind

/-- Bytes start with the text of one value at most. -/
theorem eq_of_prefix {t t' : Written} {data : Bytes} (h : t.write <+: data)
    (h' : t'.write <+: data) : t = t' := by
  obtain ⟨x, hx⟩ := h
  obtain ⟨x', hx'⟩ := h'
  exact (unique t t' x x' (hx.trans hx'.symm)).1

end Written

end Btfind
