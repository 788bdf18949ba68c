import Mathlib.Data.List.Basic
import Mathlib.Tactic.IntervalCases

/-!
# Percent-encoding

Bytes as text in which every byte outside a set of kept characters is a percent sign and two
hexadecimal digits, and strings of parameters separated by ampersands. A value that is encoded can
hold neither a separator nor a stray percent sign, so the parameters of a string are the ones that
it was written with.
-/

namespace Percent

/-- An upper-case hexadecimal digit. -/
def digit (n : Nat) : Char :=
  if n < 10 then Char.ofNat ('0'.toNat + n) else Char.ofNat ('A'.toNat + (n - 10))

/-- The value of an upper-case hexadecimal digit. -/
def digitValue (c : Char) : Option Nat :=
  if 48 ≤ c.toNat ∧ c.toNat ≤ 57 then some (c.toNat - 48)
  else if 65 ≤ c.toNat ∧ c.toNat ≤ 70 then some (c.toNat - 55)
  else none

def encodeByte (keep : UInt8 → Bool) (b : UInt8) : List Char :=
  if keep b then [Char.ofNat b.toNat] else ['%', digit (b.toNat / 16), digit (b.toNat % 16)]

def encode (keep : UInt8 → Bool) (bytes : List UInt8) : List Char :=
  bytes.flatMap (encodeByte keep)

/-- Read back, with `none` for a percent sign that no two digits follow. -/
def decode : List Char → Option (List UInt8)
  | [] => some []
  | '%' :: hi :: lo :: cs =>
    match digitValue hi, digitValue lo with
    | some h, some l => (decode cs).map (UInt8.ofNat (16 * h + l) :: ·)
    | _, _ => none
  | '%' :: _ => none
  | c :: cs => (decode cs).map (UInt8.ofNat c.toNat :: ·)

/-- The kept bytes are ASCII characters other than the percent sign. -/
def Plain (keep : UInt8 → Bool) : Prop := ∀ b, keep b = true → b.toNat < 128 ∧ b.toNat ≠ 37

section Encode

variable {keep : UInt8 → Bool} {b : UInt8} {bytes : List UInt8} {c : Char} {cs : List Char} {n : Nat}

theorem digitValue_digit (h : n < 16) : digitValue (digit n) = some n := by
  interval_cases n <;> decide

theorem toNat_ofNat_ascii (h : n < 128) : (Char.ofNat n).toNat = n := by
  interval_cases n <;> decide

theorem decode_cons (h : c ≠ '%') : decode (c :: cs) = (decode cs).map (UInt8.ofNat c.toNat :: ·) := by
  rw [decode]
  · exact fun _ _ _ hc _ => h hc
  · exact fun hc => h hc

theorem decode_encodeByte (hkeep : Plain keep) :
    decode (encodeByte keep b ++ cs) = (decode cs).map (b :: ·) := by
  rw [encodeByte]
  split_ifs with h
  · obtain ⟨hascii, hpercent⟩ := hkeep b h
    have hnat := toNat_ofNat_ascii hascii
    have hne : Char.ofNat b.toNat ≠ '%' := by
      intro heq
      rw [heq] at hnat
      exact hpercent hnat.symm
    rw [List.singleton_append, decode_cons hne, hnat, UInt8.ofNat_toNat]
  · have hb : b.toNat < 256 := b.toNat_lt
    have hsum : 16 * (b.toNat / 16) + b.toNat % 16 = b.toNat := Nat.div_add_mod _ _
    have hhi : digitValue (digit (b.toNat / 16)) = some (b.toNat / 16) :=
      digitValue_digit (by omega)
    have hlo : digitValue (digit (b.toNat % 16)) = some (b.toNat % 16) :=
      digitValue_digit (by omega)
    simp only [List.cons_append, List.nil_append, decode, hhi, hlo, hsum, UInt8.ofNat_toNat]

/-- What is encoded is read back. -/
theorem decode_encode (hkeep : Plain keep) : decode (encode keep bytes) = some bytes := by
  induction bytes with
  | nil => rfl
  | cons b bytes ih =>
    rw [encode, List.flatMap_cons, decode_encodeByte hkeep]
    exact congrArg (Option.map _) ih

/-- A character of an encoded text is a kept one, a percent sign or a digit. -/
theorem mem_encode (h : c ∈ encode keep bytes) :
    (∃ b, keep b = true ∧ c = Char.ofNat b.toNat) ∨ c = '%' ∨ ∃ n < 16, c = digit n := by
  obtain ⟨b, -, hc⟩ := List.mem_flatMap.mp h
  have hb : b.toNat < 256 := b.toNat_lt
  rw [encodeByte] at hc
  split_ifs at hc with hkeep
  · exact .inl ⟨b, hkeep, List.mem_singleton.mp hc⟩
  · right
    simp only [List.mem_cons, List.not_mem_nil, or_false] at hc
    obtain hc | hc | hc := hc
    · exact .inl hc
    · exact .inr ⟨_, by omega, hc⟩
    · exact .inr ⟨_, by omega, hc⟩

end Encode

/-! ## Parameters -/

/-- A parameter as its key, an equals sign and its value. -/
def parameter (p : List Char × List Char) : List Char := p.1 ++ '=' :: p.2

/-- The key up to the first equals sign and the value behind it. -/
def readParameter (cs : List Char) : List Char × List Char :=
  (cs.takeWhile (· != '='), (cs.dropWhile (· != '=')).drop 1)

/-- Parameters separated by ampersands. -/
def query (ps : List (List Char × List Char)) : List Char :=
  ['&'].intercalate (ps.map parameter)

def readQuery (cs : List Char) : List (List Char × List Char) :=
  (cs.splitOn '&').map readParameter

/-- A key without separators and a value without ampersands. -/
structure WellFormed (p : List Char × List Char) : Prop where
  key_eq : '=' ∉ p.1
  key_amp : '&' ∉ p.1
  value_amp : '&' ∉ p.2

variable {p : List Char × List Char} {ps : List (List Char × List Char)}

theorem readParameter_parameter (h : WellFormed p) : readParameter (parameter p) = p := by
  have hkey : ∀ c ∈ p.1, (c != '=') = true := by
    intro c hc
    rw [bne_iff_ne]
    rintro rfl
    exact h.key_eq hc
  rw [readParameter, parameter, List.takeWhile_append_of_pos hkey, List.dropWhile_append_of_pos hkey]
  simp

/-- The parameters of a string are the ones that it was written with. -/
theorem readQuery_query (hne : ps ≠ []) (h : ∀ p ∈ ps, WellFormed p) : readQuery (query ps) = ps := by
  have hsplit : (query ps).splitOn '&' = ps.map parameter := by
    apply List.splitOn_intercalate
    · intro cs hcs
      obtain ⟨p, hp, rfl⟩ := List.mem_map.mp hcs
      have hwell := h p hp
      simp [parameter, hwell.key_amp, hwell.value_amp]
    · simpa using hne
  rw [readQuery, hsplit, List.map_map]
  conv_rhs => rw [← List.map_id ps]
  exact List.map_congr_left fun p hp => readParameter_parameter (h p hp)

end Percent
