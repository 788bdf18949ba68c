import Mathlib.Tactic.IntervalCases
import Mathlib.Data.List.Induction
import Mathlib.Data.List.TakeWhile

/-!
# Decimal numbers in bytes

The decimal text of a number, the digits at the head of a text, and their value.
-/

namespace Decimal

def isDigit (b : UInt8) : Bool := '0'.toUInt8 ≤ b && b ≤ '9'.toUInt8

/-- The digits of a number, without leading zeros. -/
def decimal (n : Nat) : List UInt8 := (Nat.toDigits 10 n).map Char.toUInt8

/-- The value of a text of digits. -/
def value (text : List UInt8) : Nat :=
  text.foldl (fun acc b => acc * 10 + (b.toNat - '0'.toNat)) 0

/-- The digits at the head of a text. -/
def digits (text : List UInt8) : List UInt8 := text.takeWhile isDigit

variable {n k : Nat} {b : UInt8} {rest : List UInt8}

theorem decimal_of_lt (h : n < 10) : decimal n = [n.digitChar.toUInt8] := by
  rw [decimal, Nat.toDigits_of_lt_base h, List.map_singleton]

theorem decimal_of_le (h : 10 ≤ n) :
    decimal n = decimal (n / 10) ++ [(n % 10).digitChar.toUInt8] := by
  rw [decimal, Nat.toDigits_of_base_le (by decide) h, List.map_append, List.map_singleton]
  rfl

theorem digitChar_toUInt8 (h : n < 10) :
    isDigit n.digitChar.toUInt8 = true ∧ n.digitChar.toUInt8.toNat - '0'.toNat = n ∧
      (n.digitChar.toUInt8 = '0'.toUInt8 → n = 0) := by
  interval_cases n <;> decide

theorem decimal_ne_nil (n : Nat) : decimal n ≠ [] := by
  simp [decimal]

theorem isDigit_of_mem (h : b ∈ decimal n) : isDigit b = true := by
  induction n using Nat.strongRecOn with
  | _ n ih =>
    obtain hn | hn := Nat.lt_or_ge n 10
    · rw [decimal_of_lt hn, List.mem_singleton] at h
      rw [h]
      exact (digitChar_toUInt8 hn).1
    · rw [decimal_of_le hn, List.mem_append, List.mem_singleton] at h
      obtain h | h := h
      · exact ih (n / 10) (by omega) h
      · rw [h]
        exact (digitChar_toUInt8 (by omega)).1

@[simp] theorem value_decimal (n : Nat) : value (decimal n) = n := by
  induction n using Nat.strongRecOn with
  | _ n ih =>
    obtain hn | hn := Nat.lt_or_ge n 10
    · rw [decimal_of_lt hn, value, List.foldl_cons, List.foldl_nil, (digitChar_toUInt8 hn).2.1]
      omega
    · have hhead := ih (n / 10) (by omega)
      have hlast := (digitChar_toUInt8 (n := n % 10) (by omega)).2.1
      unfold value at hhead ⊢
      rw [decimal_of_le hn, List.foldl_append, hhead, List.foldl_cons, List.foldl_nil, hlast]
      omega

/-- Only zero has a leading zero. -/
theorem head_decimal (h : (decimal n).head? = some '0'.toUInt8) : n = 0 := by
  induction n using Nat.strongRecOn with
  | _ n ih =>
    obtain hn | hn := Nat.lt_or_ge n 10
    · rw [decimal_of_lt hn] at h
      exact (digitChar_toUInt8 hn).2.2 (Option.some.inj h)
    · rw [decimal_of_le hn, List.head?_append] at h
      cases hhead : (decimal (n / 10)).head? with
      | none => exact absurd (List.head?_eq_none_iff.mp hhead) (decimal_ne_nil _)
      | some b =>
        rw [hhead, Option.some_or] at h
        have hzero := ih (n / 10) (by omega) (hhead.trans h)
        omega

@[simp] theorem decimal_zero : decimal 0 = ['0'.toUInt8] := rfl

theorem length_decimal_le (hk : 0 < k) (h : n < 10 ^ k) : (decimal n).length ≤ k := by
  rw [decimal, List.length_map]
  exact (Nat.length_toDigits_le_iff (by decide) hk).mpr h

theorem digitChar_of_isDigit (h : isDigit b = true) :
    b.toNat - '0'.toNat < 10 ∧ (b.toNat - '0'.toNat).digitChar.toUInt8 = b := by
  have hbounds : '0'.toUInt8.toNat ≤ b.toNat ∧ b.toNat ≤ '9'.toUInt8.toNat := by
    simpa [isDigit, UInt8.le_iff_toNat_le] using h
  have hlo : 48 ≤ b.toNat := hbounds.1
  have hhi : b.toNat ≤ 57 := hbounds.2
  have hb : UInt8.ofNat b.toNat = b := UInt8.ofNat_toNat
  generalize b.toNat = v at hlo hhi hb ⊢
  subst hb
  interval_cases v <;> decide

/-- Digits without leading zeros are the text of their value. -/
theorem decimal_value {text : List UInt8} (hne : text ≠ [])
    (hdigits : ∀ b ∈ text, isDigit b = true)
    (hzero : text.head? = some '0'.toUInt8 → text.length = 1) : decimal (value text) = text := by
  induction text using List.reverseRecOn with
  | nil => exact absurd rfl hne
  | append_singleton text b ih =>
    obtain ⟨hlt, hchar⟩ := digitChar_of_isDigit (hdigits b (by simp))
    have hvalue : value (text ++ [b]) = value text * 10 + (b.toNat - '0'.toNat) := by
      rw [value, List.foldl_append]
      rfl
    rw [hvalue]
    by_cases hempty : text = []
    · subst hempty
      rw [value, List.foldl_nil, Nat.zero_mul, Nat.zero_add, decimal_of_lt hlt, hchar]
      rfl
    · -- The first digit is not zero, so neither is the value before the last digit.
      have hhead : text.head? ≠ some '0'.toUInt8 := by
        intro heq
        have hlength := hzero (by rw [List.head?_append, heq]; rfl)
        rw [List.length_append, List.length_singleton] at hlength
        exact hempty (List.length_eq_zero_iff.mp (by omega))
      have hinit := ih hempty (fun c hc => hdigits c (List.mem_append_left _ hc))
        fun heq => absurd heq hhead
      have hpos : value text ≠ 0 := by
        intro heq
        rw [heq, decimal_zero] at hinit
        rw [← hinit] at hhead
        exact hhead rfl
      have hdiv : (value text * 10 + (b.toNat - '0'.toNat)) / 10 = value text := by omega
      have hmod : (value text * 10 + (b.toNat - '0'.toNat)) % 10 = b.toNat - '0'.toNat := by omega
      rw [decimal_of_le (by omega), hdiv, hmod, hinit, hchar]

/-- The digits of a number end at the first byte that is no digit. -/
theorem digits_decimal (n : Nat) (hb : isDigit b = false) (rest : List UInt8) :
    digits (decimal n ++ b :: rest) = decimal n := by
  rw [digits, List.takeWhile_append_of_pos fun _ => isDigit_of_mem, List.takeWhile_cons_of_neg,
    List.append_nil]
  simp [hb]

end Decimal
