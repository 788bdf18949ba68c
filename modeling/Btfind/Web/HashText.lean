import Btfind.Library.Positional
import Btfind.Store.Schema
import Btfind.Wire.Codec
import Mathlib.Tactic.IntervalCases

/-!
# Hashes as text

A hash in a request is forty hexadecimal digits of either case. The check, the decoder and the
database each read the text on their own; they agree on the hash that it stands for.
-/

namespace Btfind

/-- The value of a hexadecimal digit of either case. -/
def hexValue (c : Char) : Option Nat :=
  if 48 ≤ c.toNat ∧ c.toNat ≤ 57 then some (c.toNat - 48)
  else if 97 ≤ c.toNat ∧ c.toNat ≤ 102 then some (c.toNat - 87)
  else if 65 ≤ c.toNat ∧ c.toNat ≤ 70 then some (c.toNat - 55)
  else none

/-- `char::is_ascii_hexdigit` -/
def isAsciiHexdigit (c : Char) : Bool := (hexValue c).isSome

/-- `str::to_ascii_lowercase` -/
def toAsciiLowercase (s : String) : String := String.ofList (s.toList.map Char.toLower)

/-- The check of `validate_info_hash_hex`. -/
def isInfoHashHex (text : String) : Bool :=
  !(text.utf8ByteSize != 40 || !text.toList.all isAsciiHexdigit)

/-! ## Digits -/

section Digits

variable {c : Char} {n : Nat}

theorem hexValue_hexDigit (h : n < 16) : hexValue (hexDigit n) = some n := by
  interval_cases n <;> decide

theorem hexValue_lt (h : hexValue c = some n) : n < 16 := by
  rw [hexValue] at h
  split_ifs at h <;> cases h <;> omega

/-- A digit in lower case is the digit of its value. -/
theorem toLower_of_hexValue (h : hexValue c = some n) : c.toLower = hexDigit n := by
  have hc : c = Char.ofNat c.toNat := (Char.ofNat_toNat c).symm
  rw [hexValue] at h
  split_ifs at h with hdigit hlower hupper
  · obtain ⟨hlo, hhi⟩ := hdigit
    cases h
    rw [hc]
    generalize c.toNat = k at *
    interval_cases k <;> decide
  · obtain ⟨hlo, hhi⟩ := hlower
    cases h
    rw [hc]
    generalize c.toNat = k at *
    interval_cases k <;> decide
  · obtain ⟨hlo, hhi⟩ := hupper
    cases h
    rw [hc]
    generalize c.toNat = k at *
    interval_cases k <;> decide

theorem utf8Size_of_hexValue (h : hexValue c = some n) : c.utf8Size = 1 := by
  have hbound : c.toNat ≤ 127 := by
    rw [hexValue] at h
    split_ifs at h <;> omega
  exact Char.utf8Size_eq_one_iff.mpr hbound

theorem isUpper_iff : c.isUpper = true ↔ 65 ≤ c.toNat ∧ c.toNat ≤ 90 := decide_eq_true_iff

/-- What holds of the capital letters and of the characters that are their own lower case. -/
theorem toLower_induction {P : Char → Char → Prop}
    (hupper : ∀ k < 91, 65 ≤ k → P (Char.ofNat k) (Char.ofNat k).toLower)
    (hother : ∀ c : Char, c.toLower = c → P c c) (c : Char) : P c c.toLower := by
  by_cases h : c.isUpper = true
  · obtain ⟨hlo, hhi⟩ := isUpper_iff.mp h
    have hc := hupper c.toNat (by omega) hlo
    rwa [Char.ofNat_toNat] at hc
  · have hsame : c.toLower = c := dif_neg fun hc => h (decide_eq_true hc)
    rw [hsame]
    exact hother c hsame

theorem toLower_toLower (c : Char) : c.toLower.toLower = c.toLower :=
  toLower_induction (P := fun _ lower => lower.toLower = lower) (by decide) (fun _ h => h) c

theorem utf8Size_toLower (c : Char) : c.toLower.utf8Size = c.utf8Size :=
  toLower_induction (P := fun c lower => lower.utf8Size = c.utf8Size) (by decide)
    (fun _ _ => rfl) c

/-- Whatever is a digit in lower case is one as it stands. -/
theorem hexValue_of_toLower (hn : n < 16) (h : c.toLower = hexDigit n) : hexValue c = some n := by
  refine toLower_induction
    (P := fun c lower => ∀ n < 16, lower = hexDigit n → hexValue c = some n) (by decide) ?_ c n hn h
  rintro c - n hn rfl
  exact hexValue_hexDigit hn

/-- The two readings of a text: digits in lower case, and digits with values. -/
theorem map_hexValue_iff {cs : List Char} {ds : List Nat} (hlt : ∀ n ∈ ds, n < 16) :
    cs.map hexValue = ds.map some ↔ cs.map Char.toLower = ds.map hexDigit := by
  induction cs generalizing ds with
  | nil => cases ds <;> simp
  | cons c cs ih =>
    cases ds with
    | nil => simp
    | cons n ds =>
      have hn := hlt n List.mem_cons_self
      rw [List.map_cons, List.map_cons, List.map_cons, List.map_cons, List.cons.injEq,
        List.cons.injEq, ih fun m hm => hlt m (List.mem_cons_of_mem _ hm)]
      exact and_congr_left fun _ => ⟨toLower_of_hexValue, hexValue_of_toLower hn⟩

end Digits

/-! ## The hash of a text -/

/-- The text is that of the hash, up to the case of its digits. -/
def Denotes (text : String) (hash : InfoHash) : Prop := toAsciiLowercase text = hexEncode hash

/-- The digits of a hash. -/
def hashDigits (hash : InfoHash) : List Nat := Positional.digits 16 40 hash.toNat

section Denotes

variable {text : String} {hash other : InfoHash}

theorem hashDigits_lt (hash : InfoHash) : ∀ n ∈ hashDigits hash, n < 16 :=
  fun _ => Positional.digit_lt (by decide)

theorem length_hashDigits (hash : InfoHash) : (hashDigits hash).length = 40 :=
  Positional.length_digits

theorem toList_hexEncode (hash : InfoHash) :
    (hexEncode hash).toList = (hashDigits hash).map hexDigit := by
  rw [hexEncode, String.toList_ofList, hashDigits, Positional.digits, List.map_map]
  rfl

theorem value_hashDigits (hash : InfoHash) : Positional.value 16 (hashDigits hash) = hash.toNat := by
  have hlt : hash.toNat < 16 ^ 40 := lt_of_lt_of_eq hash.isLt (by norm_num)
  rw [hashDigits, Positional.value_digits, Nat.mod_eq_of_lt hlt]

theorem hashDigits_injective : Function.Injective hashDigits := by
  intro hash other h
  apply BitVec.eq_of_toNat_eq
  rw [← value_hashDigits, h, value_hashDigits]

/-- Forty digits are those of a hash. -/
theorem exists_hashDigits {ds : List Nat} (hlength : ds.length = 40) (hlt : ∀ n ∈ ds, n < 16) :
    ∃ hash, hashDigits hash = ds := by
  have hvalue : Positional.value 16 ds < 2 ^ 160 :=
    lt_of_lt_of_eq (Positional.value_lt hlt) (by rw [hlength]; norm_num)
  refine ⟨BitVec.ofNat 160 (Positional.value 16 ds), ?_⟩
  rw [hashDigits, BitVec.toNat_ofNat, Nat.mod_eq_of_lt hvalue, ← hlength,
    Positional.digits_value hlt]

theorem denotes_iff : Denotes text hash ↔ text.toList.map hexValue = (hashDigits hash).map some := by
  rw [map_hexValue_iff (hashDigits_lt hash), ← toList_hexEncode, Denotes, ← String.toList_inj,
    toAsciiLowercase, String.toList_ofList]

/-- The text of a hash is in lower case already. -/
theorem denotes_hexEncode (hash : InfoHash) : Denotes (hexEncode hash) hash := by
  rw [denotes_iff, toList_hexEncode, List.map_map]
  exact List.map_congr_left fun n hn => hexValue_hexDigit (hashDigits_lt hash n hn)

theorem Denotes.unique (h : Denotes text hash) (h' : Denotes text other) : hash = other := by
  apply hashDigits_injective
  apply List.map_injective_iff.mpr (Option.some_injective _)
  rw [← denotes_iff.mp h, denotes_iff.mp h']

theorem hexEncode_injective : Function.Injective hexEncode := fun hash _ h =>
  (denotes_hexEncode hash).unique (h ▸ denotes_hexEncode _)

theorem utf8ByteSize_ofList {cs : List Char} (h : ∀ c ∈ cs, c.utf8Size = 1) :
    (String.ofList cs).utf8ByteSize = cs.length := by
  rw [String.utf8ByteSize_ofList]
  induction cs with
  | nil => rfl
  | cons c cs ih =>
    rw [String.utf8Len_cons, ih fun d hd => h d (List.mem_cons_of_mem _ hd), h c List.mem_cons_self,
      List.length_cons]

theorem isInfoHashHex_eq_true :
    isInfoHashHex text = true ↔
      text.utf8ByteSize = 40 ∧ text.toList.all isAsciiHexdigit = true := by
  rw [isInfoHashHex, Bool.not_eq_true', Bool.or_eq_false_iff, bne_eq_false_iff_eq,
    Bool.not_eq_false']

/-- The check accepts the texts of hashes. -/
theorem isInfoHashHex_iff : isInfoHashHex text = true ↔ ∃ hash, Denotes text hash := by
  have hsizes : (∀ c ∈ text.toList, ∃ n, hexValue c = some n) →
      text.utf8ByteSize = text.toList.length := by
    intro hall
    rw [← utf8ByteSize_ofList, String.ofList_toList]
    intro c hc
    obtain ⟨n, hn⟩ := hall c hc
    exact utf8Size_of_hexValue hn
  rw [isInfoHashHex_eq_true]
  constructor
  · rintro ⟨hsize, hall⟩
    have hvalues : ∀ c ∈ text.toList, ∃ n, hexValue c = some n := fun c hc =>
      Option.isSome_iff_exists.mp (List.all_eq_true.mp hall c hc)
    have hds : text.toList.map hexValue =
        (text.toList.map fun c => (hexValue c).getD 0).map some := by
      rw [List.map_map]
      refine List.map_congr_left fun c hc => ?_
      obtain ⟨n, hn⟩ := hvalues c hc
      simp [hn]
    have hlt : ∀ n ∈ text.toList.map fun c => (hexValue c).getD 0, n < 16 := by
      intro n hn
      obtain ⟨c, hc, rfl⟩ := List.mem_map.mp hn
      obtain ⟨n, hn⟩ := hvalues c hc
      rw [hn]
      exact hexValue_lt hn
    obtain ⟨hash, hhash⟩ := exists_hashDigits
      (by rw [List.length_map, ← hsizes hvalues, hsize]) hlt
    exact ⟨hash, denotes_iff.mpr (by rw [hhash, ← hds])⟩
  · rintro ⟨hash, h⟩
    rw [denotes_iff] at h
    have hvalues : ∀ c ∈ text.toList, ∃ n, hexValue c = some n := by
      intro c hc
      have hmem := List.mem_map_of_mem (f := hexValue) hc
      rw [h] at hmem
      obtain ⟨n, -, hn⟩ := List.mem_map.mp hmem
      exact ⟨n, hn.symm⟩
    have hlength := congrArg List.length h
    rw [List.length_map, List.length_map, length_hashDigits] at hlength
    refine ⟨by rw [hsizes hvalues, hlength], List.all_eq_true.mpr fun c hc => ?_⟩
    exact Option.isSome_iff_exists.mpr (hvalues c hc)

end Denotes

/-! ## The decoder -/

/-- `hex::decode` gives bytes or the text of its error. Of the text of a hash, in either case, it
gives the twenty bytes of the hash. -/
def DecodesHex (decode : String → Except String Bytes) : Prop :=
  ∀ text hash, Denotes text hash → decode text = .ok (idToBytes hash)

/-- A decoder of two digits a byte. -/
def plainHex (text : String) : Except String Bytes :=
  if text.utf8ByteSize % 2 = 1 then .error "Odd number of digits"
  else if !text.toList.all isAsciiHexdigit then .error "Invalid character"
  else
    .ok (toBeBytes (text.utf8ByteSize / 2)
      (Positional.value 16 (text.toList.map fun c => (hexValue c).getD 0)))

theorem plainHex_decodes : DecodesHex plainHex := by
  intro text hash h
  obtain ⟨hsize, hall⟩ := isInfoHashHex_eq_true.mp (isInfoHashHex_iff.mpr ⟨hash, h⟩)
  have hdigits : text.toList.map (fun c => (hexValue c).getD 0) = hashDigits hash := by
    have hvalues := congrArg (List.map (Option.getD · 0)) (denotes_iff.mp h)
    simpa [List.map_map, Function.comp_def] using hvalues
  rw [plainHex, hsize, hall, hdigits, value_hashDigits]
  rfl

end Btfind
