import Mathlib.Algebra.Group.Nat.Defs
import Btfind.Types

/-!
# Text in bytes

The conversions between UTF-8 bytes and text: the one that fails, and the lossy one.
-/

namespace Btfind

/-- `str::as_bytes` -/
def asBytes (text : String) : Bytes := text.toUTF8.data.toList

/-- `String::from_utf8` -/
def fromUtf8 (b : Bytes) : Option String := String.fromUTF8? ⟨b.toArray⟩

/-! ## Lossy text -/

def replacementChar : Char := Char.ofNat 0xFFFD

/-- The bounds of the second byte and the number of bytes after the first. -/
def utf8Tail (first : Nat) : Option (Nat × Nat × Nat) :=
  if first < 0xC2 then none
  else if first ≤ 0xDF then some (0x80, 0xBF, 1)
  else if first = 0xE0 then some (0xA0, 0xBF, 2)
  else if first = 0xED then some (0x80, 0x9F, 2)
  else if first ≤ 0xEF then some (0x80, 0xBF, 2)
  else if first = 0xF0 then some (0x90, 0xBF, 3)
  else if first ≤ 0xF3 then some (0x80, 0xBF, 3)
  else if first = 0xF4 then some (0x80, 0x8F, 3)
  else none

/-- Read the remaining bytes of a character. On a byte outside the bounds the bytes
read so far become one replacement character and that byte is read again. -/
def utf8Continue : Nat → Nat → Nat → Nat → Bytes → Char × Bytes
  | 0, _, _, acc, rest => (Char.ofNat acc, rest)
  | _ + 1, _, _, _, [] => (replacementChar, [])
  | n + 1, lo, hi, acc, b :: rest =>
    if lo ≤ b.toNat ∧ b.toNat ≤ hi then
      utf8Continue n 0x80 0xBF (acc * 64 + b.toNat % 64) rest
    else (replacementChar, b :: rest)

def utf8LossyChar (first : UInt8) (rest : Bytes) : Char × Bytes :=
  if first.toNat < 0x80 then (Char.ofNat first.toNat, rest)
  else
    match utf8Tail first.toNat with
    | none => (replacementChar, rest)
    | some (lo, hi, n) => utf8Continue n lo hi (first.toNat % 2 ^ (6 - n)) rest

/-- Every turn reads a byte, so the number of bytes is enough fuel. -/
def utf8LossyChars : Nat → Bytes → List Char
  | 0, _ => []
  | _, [] => []
  | fuel + 1, first :: rest =>
    let read := utf8LossyChar first rest
    read.1 :: utf8LossyChars fuel read.2

/-- `String::from_utf8_lossy` -/
def fromUtf8Lossy (b : Bytes) : String := String.ofList (utf8LossyChars b.length b)

example : fromUtf8Lossy [0x61, 0xC3, 0xA9, 0xE2, 0x82, 0x62] = "aé\uFFFDb" := by decide

/-- Text that is not empty stays so when bytes are replaced. -/
theorem fromUtf8Lossy_ne_empty {b : Bytes} (h : b ≠ []) : fromUtf8Lossy b ≠ "" := by
  intro hempty
  cases b with
  | nil => exact h rfl
  | cons first rest =>
    have hlist := congrArg String.toList hempty
    rw [fromUtf8Lossy, String.toList_ofList, List.length_cons, utf8LossyChars] at hlist
    cases hlist

theorem utf8Continue_cons {n lo hi acc : Nat} {b : UInt8} {rest : Bytes}
    (h : lo ≤ b.toNat ∧ b.toNat ≤ hi) :
    utf8Continue (n + 1) lo hi acc (b :: rest) =
      utf8Continue n 0x80 0xBF (acc * 64 + b.toNat % 64) rest := if_pos h

theorem utf8LossyChar_of_tail {first : UInt8} {lo hi n : Nat} (rest : Bytes)
    (hfirst : 0x80 ≤ first.toNat) (htail : utf8Tail first.toNat = some (lo, hi, n)) :
    utf8LossyChar first rest = utf8Continue n lo hi (first.toNat % 2 ^ (6 - n)) rest := by
  rw [utf8LossyChar, if_neg (by omega), htail]

theorem utf8Tail_two {first : Nat} (h : 0xC2 ≤ first ∧ first ≤ 0xDF) :
    utf8Tail first = some (0x80, 0xBF, 1) := by
  rw [utf8Tail, if_neg (by omega), if_pos (by omega)]

theorem utf8Tail_three {first : Nat} (h : 0xE0 ≤ first ∧ first ≤ 0xEF) :
    utf8Tail first = some (if first = 0xE0 then 0xA0 else 0x80,
      if first = 0xED then 0x9F else 0xBF, 2) := by
  rw [utf8Tail, if_neg (by omega), if_neg (by omega)]
  split
  · next heq => rw [heq]; rfl
  · split
    · rfl
    · rw [if_pos (by omega)]

theorem utf8Tail_four {first : Nat} (h : 0xF0 ≤ first ∧ first ≤ 0xF4) :
    utf8Tail first = some (if first = 0xF0 then 0x90 else 0x80,
      if first = 0xF4 then 0x8F else 0xBF, 3) := by
  rw [utf8Tail, if_neg (by omega), if_neg (by omega), if_neg (by omega), if_neg (by omega),
    if_neg (by omega)]
  split
  · next heq => rw [heq]; rfl
  · split
    · next hle => rw [if_neg (by omega)]
    · rw [if_pos (by omega), if_pos (by omega)]

theorem toNat_ofNat_byte {n : Nat} (h : n < 256) : (UInt8.ofNat n).toNat = n := by
  rw [UInt8.toNat_ofNat']
  exact Nat.mod_eq_of_lt h

/-- A character is read back from its encoding. -/
theorem utf8LossyChar_encode (c : Char) (rest : Bytes) :
    ∃ first tail, String.utf8EncodeChar c = first :: tail ∧
      utf8LossyChar first (tail ++ rest) = (c, rest) := by
  have hc : Char.ofNat c.toNat = c := Char.ofNat_toNat c
  have hvalid : c.toNat < 0xD800 ∨ 0xDFFF < c.toNat ∧ c.toNat < 0x110000 := c.valid
  have hval : c.val.toNat = c.toNat := rfl
  unfold String.utf8EncodeChar
  rw [hval]
  generalize c.toNat = v at hc hvalid ⊢
  simp only
  -- One case for each length of the encoding.
  split
  · next hone =>
    refine ⟨_, _, rfl, ?_⟩
    have hfirst := toNat_ofNat_byte (n := v) (by omega)
    rw [utf8LossyChar, hfirst, if_pos (by omega), hc]
    rfl
  · split
    · next htwo =>
      have hfirst := toNat_ofNat_byte (n := v / 64 % 32 + 192) (by omega)
      have hsecond := toNat_ofNat_byte (n := v % 64 + 128) (by omega)
      refine ⟨_, _, rfl, ?_⟩
      rw [utf8LossyChar_of_tail _ (by omega) (utf8Tail_two (by omega)), List.cons_append,
        List.nil_append, utf8Continue_cons (by omega), utf8Continue, hfirst, hsecond]
      rw [show (v / 64 % 32 + 192) % 2 ^ (6 - 1) * 64 + (v % 64 + 128) % 64 = v by omega, hc]
    · split
      · next hthree =>
        have hfirst := toNat_ofNat_byte (n := v / 4096 % 16 + 224) (by omega)
        have hsecond := toNat_ofNat_byte (n := v / 64 % 64 + 128) (by omega)
        have hthird := toNat_ofNat_byte (n := v % 64 + 128) (by omega)
        refine ⟨_, _, rfl, ?_⟩
        rw [utf8LossyChar_of_tail _ (by omega) (utf8Tail_three (by omega)), List.cons_append,
          List.cons_append, List.nil_append, hfirst, utf8Continue_cons ?_,
          utf8Continue_cons (by omega), utf8Continue, hsecond, hthird]
        · rw [show ((v / 4096 % 16 + 224) % 2 ^ (6 - 2) * 64 + (v / 64 % 64 + 128) % 64) * 64 +
            (v % 64 + 128) % 64 = v by omega, hc]
        · rw [hsecond]
          split <;> split <;> omega
      · next hfour =>
        have hfirst := toNat_ofNat_byte (n := v / 262144 % 8 + 240) (by omega)
        have hsecond := toNat_ofNat_byte (n := v / 4096 % 64 + 128) (by omega)
        have hthird := toNat_ofNat_byte (n := v / 64 % 64 + 128) (by omega)
        have hfourth := toNat_ofNat_byte (n := v % 64 + 128) (by omega)
        refine ⟨_, _, rfl, ?_⟩
        rw [utf8LossyChar_of_tail _ (by omega) (utf8Tail_four (by omega)), List.cons_append,
          List.cons_append, List.cons_append, List.nil_append, hfirst, utf8Continue_cons ?_,
          utf8Continue_cons (by omega), utf8Continue_cons (by omega), utf8Continue, hsecond,
          hthird, hfourth]
        · rw [show (((v / 262144 % 8 + 240) % 2 ^ (6 - 3) * 64 + (v / 4096 % 64 + 128) % 64) * 64 +
            (v / 64 % 64 + 128) % 64) * 64 + (v % 64 + 128) % 64 = v by omega, hc]
        · rw [hsecond]
          split <;> split <;> omega

theorem utf8LossyChars_encode (cs : List Char) (fuel : Nat)
    (hfuel : (cs.flatMap String.utf8EncodeChar).length ≤ fuel) :
    utf8LossyChars fuel (cs.flatMap String.utf8EncodeChar) = cs := by
  induction cs generalizing fuel with
  | nil => cases fuel <;> rfl
  | cons c cs ih =>
    obtain ⟨first, tail, hchar, hread⟩ :=
      utf8LossyChar_encode c (cs.flatMap String.utf8EncodeChar)
    rw [List.flatMap_cons, hchar, List.cons_append] at hfuel ⊢
    cases fuel with
    | zero => simp at hfuel
    | succ fuel =>
      simp only [List.length_cons, List.length_append] at hfuel
      rw [utf8LossyChars, hread, ih fuel (by omega)]

theorem asBytes_eq (text : String) :
    asBytes text = text.toList.flatMap String.utf8EncodeChar := by
  rw [asBytes, String.toUTF8_eq_toByteArray, ← String.utf8Encode_toList, List.utf8Encode]
  simp

@[simp] theorem fromUtf8Lossy_asBytes (text : String) : fromUtf8Lossy (asBytes text) = text := by
  rw [fromUtf8Lossy, asBytes_eq, utf8LossyChars_encode _ _ (le_refl _), String.ofList_toList]

@[simp] theorem fromUtf8_asBytes (text : String) : fromUtf8 (asBytes text) = some text := by
  have hdata : (⟨(asBytes text).toArray⟩ : ByteArray) = text.toByteArray := by simp [asBytes]
  rw [fromUtf8, hdata, String.fromUTF8?, dif_pos text.isValidUTF8]
  rfl

theorem asBytes_of_fromUtf8 {b : Bytes} {text : String} (h : fromUtf8 b = some text) :
    asBytes text = b := by
  rw [fromUtf8, String.fromUTF8?] at h
  split at h
  · cases h
    rfl
  · cases h

theorem asBytes_injective : Function.Injective asBytes := by
  intro a b h
  have hsome := congrArg fromUtf8 h
  rw [fromUtf8_asBytes, fromUtf8_asBytes] at hsome
  exact Option.some.inj hsome

end Btfind
