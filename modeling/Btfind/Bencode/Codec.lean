import Btfind.Bencode.Value

/-!
# The bencode round trip

The decoder reads every encoded value back and leaves the bytes after it.
-/

namespace Btfind.BencodeValue

open Decimal

theorem decimal_head_isDigit (n : Nat) {c : UInt8} (h : (decimal n).head? = some c) :
    isDigit c = true :=
  isDigit_of_mem (List.mem_of_head? h)

theorem digits_encodeBytes (b rest : Bytes) :
    digits (encodeBytes b ++ rest) = decimal b.length := by
  rw [encodeBytes, List.append_assoc, List.cons_append]
  exact digits_decimal b.length (by decide) _

theorem drop_encodeBytes (b rest : Bytes) :
    (encodeBytes b ++ rest).drop (decimal b.length).length = ':'.toUInt8 :: (b ++ rest) := by
  rw [encodeBytes, List.append_assoc, List.cons_append]
  exact List.drop_left

theorem decodeBytes_encodeBytes (b rest : Bytes) :
    decodeBytes (encodeBytes b ++ rest) = some (b, rest) := by
  simp only [decodeBytes, digits_encodeBytes, drop_encodeBytes, value_decimal]
  rw [if_pos ⟨trivial, decimal_ne_nil _, by simp⟩, List.take_left, List.drop_left]

theorem decodeDigits_decimal (n : Nat) (rest : Bytes) :
    decodeDigits (decimal n ++ 'e'.toUInt8 :: rest) = some (n, rest) := by
  have hdigits : digits (decimal n ++ 'e'.toUInt8 :: rest) = decimal n :=
    digits_decimal n (by decide) rest
  have hdrop : (decimal n ++ 'e'.toUInt8 :: rest).drop (decimal n).length =
      'e'.toUInt8 :: rest := List.drop_left
  simp only [decodeDigits, hdigits, hdrop, value_decimal]
  exact if_pos ⟨trivial, decimal_ne_nil n⟩

theorem decodeInt_encodeInt (i : Int) (rest : Bytes) :
    decodeInt (encodeInt i ++ 'e'.toUInt8 :: rest) = some (i, rest) := by
  rw [encodeInt]
  split
  · next hneg =>
    rw [List.cons_append, decodeInt, if_pos (by rfl), List.tail_cons, decodeDigits_decimal,
      Option.map_some]
    have habs : -((i.natAbs : Nat) : Int) = i := by omega
    rw [habs]
  · next hpos =>
    have hhead : (decimal i.natAbs ++ 'e'.toUInt8 :: rest).head? ≠ some '-'.toUInt8 := by
      intro heq
      rw [List.head?_append] at heq
      cases hc : (decimal i.natAbs).head? with
      | none => exact decimal_ne_nil _ (List.head?_eq_none_iff.mp hc)
      | some c =>
        rw [hc, Option.some_or] at heq
        cases heq
        have hdigit := decimal_head_isDigit _ hc
        revert hdigit
        decide
    rw [decodeInt, if_neg hhead, decodeDigits_decimal, Option.map_some]
    have habs : ((i.natAbs : Nat) : Int) = i := by omega
    rw [habs]

/-- The first byte of an encoded value. -/
theorem encode_head (v : BencodeValue) : ∃ c data, encode v = c :: data ∧ c ≠ 'e'.toUInt8 := by
  cases v with
  | bytes b =>
    obtain ⟨c, data, hdecimal⟩ := List.exists_cons_of_ne_nil (decimal_ne_nil b.length)
    refine ⟨c, data ++ ':'.toUInt8 :: b, by rw [encode, encodeBytes, hdecimal]; rfl, ?_⟩
    rintro rfl
    have hdigit := decimal_head_isDigit b.length (c := 'e'.toUInt8) (by rw [hdecimal]; rfl)
    revert hdigit
    decide
  | int i => exact ⟨_, _, by rw [encode], by decide⟩
  | list items => exact ⟨_, _, by rw [encode], by decide⟩
  | dict entries => exact ⟨_, _, by rw [encode], by decide⟩

theorem encodeBytes_head (b rest : Bytes) :
    ∃ c data, encodeBytes b ++ rest = c :: data ∧ isDigit c = true := by
  obtain ⟨c, data, hdecimal⟩ := List.exists_cons_of_ne_nil (decimal_ne_nil b.length)
  refine ⟨c, data ++ ':'.toUInt8 :: b ++ rest, by rw [encodeBytes, hdecimal]; simp, ?_⟩
  exact decimal_head_isDigit b.length (by rw [hdecimal]; rfl)

/-- `v` is read back with enough fuel. -/
def Decodes (v : BencodeValue) : Prop :=
  v.Valid → ∀ fuel rest, (encode v).length ≤ fuel → decodeValue fuel (encode v ++ rest) = some (v, rest)

theorem decodeItems_encode {items : List BencodeValue} (h : ∀ v ∈ items, Decodes v)
    (hvalid : ∀ v ∈ items, v.Valid) (fuel : Nat) (rest : Bytes) (hfuel : (encodeItems items).length < fuel) :
    decodeItems fuel (encodeItems items ++ 'e'.toUInt8 :: rest) = some (items, rest) := by
  induction items generalizing fuel with
  | nil =>
    cases fuel with
    | zero => cases hfuel
    | succ fuel => rw [encodeItems, List.nil_append, decodeItems, if_pos (by rfl), List.tail_cons]
  | cons v items ih =>
    obtain ⟨c, data, hv, hc⟩ := encode_head v
    have hlen : (encode v).length = data.length + 1 := by rw [hv, List.length_cons]
    rw [encodeItems, List.length_append] at hfuel
    cases fuel with
    | zero => cases hfuel
    | succ fuel =>
      have hitem := h v List.mem_cons_self (hvalid v List.mem_cons_self) fuel
        (encodeItems items ++ 'e'.toUInt8 :: rest) (by omega)
      have hrest := ih (fun v hv => h v (List.mem_cons_of_mem _ hv))
        (fun v hv => hvalid v (List.mem_cons_of_mem _ hv)) fuel (by omega)
      have hhead : (encode v ++ (encodeItems items ++ 'e'.toUInt8 :: rest)).head? ≠
          some 'e'.toUInt8 := by
        rw [hv, List.cons_append, List.head?_cons]
        exact fun heq => hc (Option.some.inj heq)
      rw [encodeItems, List.append_assoc, decodeItems, if_neg hhead, hitem]
      simp only [hrest, Option.map_some]

theorem decodeEntries_encode {entries : List (Bytes × BencodeValue)}
    (h : ∀ e ∈ entries, Decodes e.2) (hvalid : ∀ e ∈ entries, e.2.Valid) (fuel : Nat)
    (rest : Bytes)
    (hfuel : (encodeEntries entries).length < fuel) :
    decodeEntries fuel (encodeEntries entries ++ 'e'.toUInt8 :: rest) = some (entries, rest) := by
  induction entries generalizing fuel with
  | nil =>
    cases fuel with
    | zero => cases hfuel
    | succ fuel =>
      rw [encodeEntries, List.nil_append, decodeEntries, if_pos (by rfl), List.tail_cons]
  | cons e entries ih =>
    obtain ⟨key, v⟩ := e
    obtain ⟨c, data, hkey, hc⟩ := encodeBytes_head key []
    have hlen : (encodeBytes key).length = data.length + 1 := by
      rw [← List.append_nil (encodeBytes key), hkey, List.length_cons]
    rw [encodeEntries, List.length_append, List.length_append] at hfuel
    cases fuel with
    | zero => cases hfuel
    | succ fuel =>
      have hvalue := h (key, v) List.mem_cons_self (hvalid (key, v) List.mem_cons_self) fuel
        (encodeEntries entries ++ 'e'.toUInt8 :: rest) (by simp only; omega)
      have hrest := ih (fun e he => h e (List.mem_cons_of_mem _ he))
        (fun e he => hvalid e (List.mem_cons_of_mem _ he)) fuel (by omega)
      have hhead : (encodeBytes key ++
          (encode v ++ (encodeEntries entries ++ 'e'.toUInt8 :: rest))).head? ≠
            some 'e'.toUInt8 := by
        rw [← List.append_nil (encodeBytes key), hkey, List.cons_append, List.head?_cons]
        rintro ⟨⟩
        revert hc
        decide
      rw [encodeEntries, List.append_assoc, List.append_assoc, decodeEntries, if_neg hhead,
        decodeBytes_encodeBytes]
      simp only at hvalue ⊢
      simp only [hvalue, hrest, Option.map_some]

theorem decodes (v : BencodeValue) : Decodes v := by
  induction v using BencodeValue.induction with
  | bytes b =>
    intro _ fuel rest hfuel
    obtain ⟨c, data, hdata, hc⟩ := encodeBytes_head b rest
    have hbytes := decodeBytes_encodeBytes b rest
    rw [encode] at hfuel ⊢
    cases fuel with
    | zero => simp [encodeBytes] at hfuel
    | succ fuel =>
      rw [hdata] at hbytes ⊢
      -- A string starts with a digit, which is none of the markers.
      have hne : ∀ d : UInt8, isDigit d = false → c ≠ d := by
        rintro d hd rfl
        rw [hd] at hc
        cases hc
      rw [decodeValue, if_neg (hne _ (by decide)), if_neg (hne _ (by decide)),
        if_neg (hne _ (by decide)), hbytes]
      rfl
  | int i =>
    rintro ⟨⟩ fuel rest hfuel
    next hi =>
      rw [encode] at hfuel ⊢
      cases fuel with
      | zero => cases hfuel
      | succ fuel =>
        rw [List.cons_append, List.append_assoc, List.singleton_append, decodeValue,
          if_pos rfl, decodeInt_encodeInt]
        exact if_pos hi
  | list items ih =>
    rintro ⟨⟩ fuel rest hfuel
    next hitems =>
      rw [encode] at hfuel ⊢
      cases fuel with
      | zero => cases hfuel
      | succ fuel =>
        simp only [List.length_cons, List.length_append] at hfuel
        rw [List.cons_append, List.append_assoc, List.singleton_append, decodeValue,
          if_neg (by decide), if_pos rfl, decodeItems_encode ih hitems fuel rest (by omega)]
        rfl
  | dict entries ih =>
    rintro ⟨⟩ fuel rest hfuel
    next hsorted hentries =>
      rw [encode] at hfuel ⊢
      cases fuel with
      | zero => cases hfuel
      | succ fuel =>
        simp only [List.length_cons, List.length_append] at hfuel
        rw [List.cons_append, List.append_assoc, List.singleton_append, decodeValue,
          if_neg (by decide), if_neg (by decide), if_pos rfl,
          decodeEntries_encode ih hentries fuel rest (by omega), Option.map_some,
          SortedMap.insertAll_eq hsorted (List.Perm.refl _)]

/-- An encoded value is decoded, whatever follows it. -/
theorem decode_encode_append {v : BencodeValue} (hv : v.Valid) (rest : Bytes) :
    decode (encode v ++ rest) = .ok v := by
  rw [decode, decodes v hv _ rest (by simp)]

theorem decode_encode {v : BencodeValue} (hv : v.Valid) : decode (encode v) = .ok v := by
  rw [← List.append_nil (encode v), decode_encode_append hv]

/-! ## What is decoded -/

theorem decode_valid_aux (fuel : Nat) :
    (∀ data v rest, decodeValue fuel data = some (v, rest) → v.Valid) ∧
      (∀ data items rest, decodeItems fuel data = some (items, rest) → ∀ v ∈ items, v.Valid) ∧
      ∀ data entries rest, decodeEntries fuel data = some (entries, rest) →
        ∀ e ∈ entries, e.2.Valid := by
  induction fuel with
  | zero => exact ⟨nofun, nofun, nofun⟩
  | succ fuel ih =>
    obtain ⟨ihvalue, ihitems, ihentries⟩ := ih
    -- With one more unit of fuel: a value from its parts, a list from its head and its rest.
    refine ⟨?_, ?_, ?_⟩
    · intro data v rest h
      cases data with
      | nil => cases h
      | cons c data =>
        rw [decodeValue] at h
        split at h
        · split at h
          · cases h
          · split at h
            · next hi =>
              cases h
              exact .int hi
            · cases h
        · split at h
          · obtain ⟨read, hread, hv⟩ := Option.map_eq_some_iff.mp h
            cases hv
            exact .list (ihitems _ _ _ hread)
          · split at h
            · obtain ⟨read, hread, hv⟩ := Option.map_eq_some_iff.mp h
              cases hv
              refine .dict (SortedMap.sorted_insertAll .nil) fun e he => ?_
              obtain he | he := SortedMap.mem_insertAll he
              · cases he
              · exact ihentries _ _ _ hread e he
            · obtain ⟨read, hread, hv⟩ := Option.map_eq_some_iff.mp h
              cases hv
              exact .bytes _
    · intro data items rest h v hv
      rw [decodeItems] at h
      split at h
      · cases h
        cases hv
      · split at h
        · cases h
        · next v' rest' hvalue =>
          obtain ⟨read, hread, hitems⟩ := Option.map_eq_some_iff.mp h
          cases hitems
          obtain rfl | hv := List.mem_cons.mp hv
          · exact ihvalue _ _ _ hvalue
          · exact ihitems _ _ _ hread v hv
    · intro data entries rest h e he
      rw [decodeEntries] at h
      split at h
      · cases h
        cases he
      · split at h
        · cases h
        · split at h
          · cases h
          · next v' rest' hvalue =>
            obtain ⟨read, hread, hentries⟩ := Option.map_eq_some_iff.mp h
            cases hentries
            obtain rfl | he := List.mem_cons.mp he
            · exact ihvalue _ _ _ hvalue
            · exact ihentries _ _ _ hread e he

theorem decode_valid {data : Bytes} {v : BencodeValue} (h : decode data = .ok v) : v.Valid := by
  rw [decode] at h
  split at h
  · next hread =>
    cases h
    exact (decode_valid_aux _).1 _ _ _ hread
  · cases h

end Btfind.BencodeValue
