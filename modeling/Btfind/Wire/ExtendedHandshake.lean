import Btfind.Bencode.Codec
import Btfind.Wire.Messages

/-!
# The extended handshake

A handshake is read back from its dictionary. The loop over the extension ids returns early on
one key only, so the order in which a hash map gives its entries does not show.
-/

namespace Btfind

open BencodeValue (keyRank keyRank_injective)

namespace ExtendedHandshake

/-! ## The extension ids -/

/-- An id that fits a byte. -/
def idOfValue : BencodeValue → Option Nat
  | .int i => if 0 ≤ i ∧ i ≤ 255 then some i.toNat else none
  | _ => none

/-- An entry that is kept. -/
def idOfEntry (e : Bytes × BencodeValue) : Option (String × Nat) :=
  (fromUtf8 e.1).bind fun key => (idOfValue e.2).map fun n => (key, n)

/-- An entry that refuses the whole handshake. -/
def refuses (e : Bytes × BencodeValue) : Bool :=
  e.1 = asBytes "ut_metadata" && (idOfValue e.2).isNone

theorem fromUtf8_eq_iff {b : Bytes} {text : String} : fromUtf8 b = some text ↔ b = asBytes text := by
  constructor
  · exact fun h => (asBytes_of_fromUtf8 h).symm
  · rintro rfl
    exact fromUtf8_asBytes text

/-- One turn of the loop. -/
theorem parseIds_cons (m : List (String × Nat)) (e : Bytes × BencodeValue) (entries : BencodeDict) :
    parseIds m (e :: entries) =
      if refuses e = true then none
      else parseIds ((idOfEntry e).elim m fun e => SortedMap.insert id e.1 e.2 m) entries := by
  obtain ⟨key, v⟩ := e
  cases v with
  | int i =>
    rw [parseIds, idOfEntry, refuses, idOfValue]
    cases hkey : fromUtf8 key with
    | none =>
      have hother : key ≠ asBytes "ut_metadata" := by
        rintro rfl
        cases hkey.symm.trans (fromUtf8_asBytes "ut_metadata")
      simp [hother]
    | some text =>
      -- The code compares the text of the key, and `refuses` compares its bytes.
      have hname : text = "ut_metadata" ↔ key = asBytes "ut_metadata" := by
        rw [fromUtf8_eq_iff] at hkey
        rw [hkey]
        exact asBytes_injective.eq_iff.symm
      by_cases hfits : 0 ≤ i ∧ i ≤ 255
      · simp [hfits]
      · by_cases hnamed : text = "ut_metadata"
        · simp [hfits, hnamed, hname.mp hnamed]
        · simp [hfits, hnamed, mt hname.mpr hnamed]
  | bytes _ | list _ | dict _ =>
    rw [parseIds, idOfEntry, refuses, idOfValue]
    · cases fromUtf8 key <;> simp
    · exact nofun
    · exact nofun

/-- The loop either meets an entry that refuses the handshake or keeps all the ids. -/
theorem parseIds_eq (m : List (String × Nat)) (entries : BencodeDict) :
    parseIds m entries =
      if entries.any refuses = true then none
      else some (SortedMap.insertAll id m (entries.filterMap idOfEntry)) := by
  induction entries generalizing m with
  | nil => rfl
  | cons e entries ih =>
    rw [parseIds_cons, List.any_cons]
    by_cases hrefuses : refuses e = true
    · rw [if_pos hrefuses, hrefuses, if_pos (Bool.true_or _)]
    · rw [if_neg hrefuses, ih, Bool.eq_false_iff.mpr hrefuses, Bool.false_or]
      cases hentry : idOfEntry e with
      | none => rw [List.filterMap_cons_none hentry, Option.elim_none]
      | some kept =>
        rw [List.filterMap_cons_some hentry, Option.elim_some]
        rfl

/-- Two keys that are the same text are the same bytes. -/
theorem keys_nodup {entries : BencodeDict} (h : (entries.map Prod.fst).Nodup) :
    ((entries.filterMap idOfEntry).map fun e => id e.1).Nodup := by
  have hkeys : ∀ {e : Bytes × BencodeValue} {kept : String × Nat},
      idOfEntry e = some kept → e.1 = asBytes kept.1 := by
    intro e kept hentry
    obtain ⟨text, htext, hrest⟩ := Option.bind_eq_some_iff.mp hentry
    obtain ⟨n, -, rfl⟩ := Option.map_eq_some_iff.mp hrest
    exact fromUtf8_eq_iff.mp htext
  rw [List.Nodup, List.pairwise_map] at h ⊢
  refine List.pairwise_filterMap.mpr (h.imp fun {e e'} hne kept hkept kept' hkept' heq => hne ?_)
  rw [hkeys hkept, hkeys hkept']
  exact congrArg asBytes heq

theorem parseIds_perm {entries entries' : BencodeDict} (h : (entries.map Prod.fst).Nodup)
    (hperm : entries'.Perm entries) : parseIds [] entries' = parseIds [] entries := by
  have hany : entries'.any refuses = entries.any refuses := by
    rw [Bool.eq_iff_iff, List.any_eq_true, List.any_eq_true]
    exact exists_congr fun e => and_congr_left fun _ => hperm.mem_iff
  rw [parseIds_eq, parseIds_eq, hany,
    SortedMap.insertAll_eq_of_perm (keys_nodup h) (hperm.filterMap idOfEntry)]

/-! ## What is accepted -/

/-- A handshake that a peer may send. -/
structure Valid (h : ExtendedHandshake) : Prop where
  sorted : SortedMap.Sorted id h.m
  ids : ∀ e ∈ h.m, e.2 ≤ 255
  metadataSize : ∀ size, h.metadataSize = some size → 1 ≤ size ∧ size ≤ 64 * 1024 * 1024
  reqq : ∀ n, h.reqq = some n → 1 ≤ n ∧ n ≤ 64

theorem parseIds_ids {entries : BencodeDict} {m : List (String × Nat)}
    (h : parseIds [] entries = some m) : SortedMap.Sorted id m ∧ ∀ e ∈ m, e.2 ≤ 255 := by
  rw [parseIds_eq] at h
  split at h
  · cases h
  · cases h
    refine ⟨SortedMap.sorted_insertAll .nil, fun e he => ?_⟩
    rcases SortedMap.mem_insertAll he with he | he
    · cases he
    · obtain ⟨entry, -, hentry⟩ := List.mem_filterMap.mp he
      obtain ⟨text, -, hrest⟩ := Option.bind_eq_some_iff.mp hentry
      obtain ⟨n, hn, rfl⟩ := Option.map_eq_some_iff.mp hrest
      obtain ⟨key, v⟩ := entry
      cases v with
      | int i =>
        rw [idOfValue] at hn
        split at hn
        · cases hn
          simp only
          omega
        · cases hn
      | _ => cases hn

theorem parseM_ids {order : BencodeDict → BencodeDict} {dict : BencodeDict}
    {m : List (String × Nat)} (h : parseM order dict = some m) :
    SortedMap.Sorted id m ∧ ∀ e ∈ m, e.2 ≤ 255 := by
  rw [parseM] at h
  split at h
  · exact parseIds_ids h
  · cases h
    exact ⟨.nil, nofun⟩
  · cases h

theorem parseMetadataSize_bounds {dict : BencodeDict} {size : Nat}
    (h : parseMetadataSize dict = some (some size)) : 1 ≤ size ∧ size ≤ 64 * 1024 * 1024 := by
  rw [parseMetadataSize] at h
  split at h
  · split at h
    · cases h
    · cases h
      omega
  · cases h
  · cases h

theorem parseReqq_bounds {dict : BencodeDict} {n : Nat} (h : parseReqq dict = some n) :
    1 ≤ n ∧ n ≤ 64 := by
  rw [parseReqq] at h
  split at h
  · split at h
    · cases h
      omega
    · cases h
  · cases h

theorem fromBytes_valid {decode : Bytes → Except String BencodeValue} {data : Bytes}
    {h : ExtendedHandshake} (hread : fromBytes decode data = some h) : h.Valid := by
  rw [fromBytes, fromBytesInOrder] at hread
  split at hread
  · next dict _ =>
    obtain ⟨m, hm, hread⟩ := Option.bind_eq_some_iff.mp hread
    obtain ⟨size, hsize, hread⟩ := Option.bind_eq_some_iff.mp hread
    cases hread
    refine ⟨(parseM_ids hm).1, (parseM_ids hm).2, ?_, fun n hn => parseReqq_bounds hn⟩
    intro n hn
    exact parseMetadataSize_bounds (hsize.trans (congrArg some hn))
  · cases hread

/-- An id of the metadata extension that is no byte refuses the whole handshake. -/
theorem fromBytes_of_refused {decode : Bytes → Except String BencodeValue} {data : Bytes}
    {dict entries : BencodeDict} {v : BencodeValue} (hdecode : decode data = .ok (.dict dict))
    (hm : dict.get "m" = some (.dict entries)) (hentry : (asBytes "ut_metadata", v) ∈ entries)
    (hv : ∀ i : Int, v = .int i → ¬(0 ≤ i ∧ i ≤ 255)) : fromBytes decode data = none := by
  have hnone : idOfValue v = none := by
    cases v with
    | int i => rw [idOfValue, if_neg (hv i rfl)]
    | _ => rfl
  have hany : entries.any refuses = true := by
    refine List.any_eq_true.mpr ⟨_, hentry, ?_⟩
    rw [refuses, hnone]
    rfl
  have hids : parseM id dict = none := by
    rw [parseM, hm]
    show parseIds [] entries = none
    rw [parseIds_eq, if_pos hany]
  rw [fromBytes, fromBytesInOrder, hdecode]
  simp only
  rw [hids]
  rfl

/-! ## The dictionary -/

/-- A field that can be absent. -/
def putField {α : Type} (key : String) (o : Option α) (f : α → BencodeValue) (dict : BencodeDict) :
    BencodeDict :=
  o.elim dict fun a => SortedMap.insert keyRank (asBytes key) (f a) dict

section Fields

variable {α : Type} {dict : BencodeDict} {key key' : String} {f : α → BencodeValue} {o : Option α}

theorem get_putField : BencodeDict.get (putField key o f dict) key' =
    if key' = key then (o.map f).or (dict.get key') else dict.get key' := by
  have hkeys : asBytes key' = asBytes key ↔ key' = key := asBytes_injective.eq_iff
  cases o with
  | none => rw [putField, Option.elim_none, Option.map_none, Option.none_or, ite_self]
  | some a =>
    rw [putField, Option.elim_some, BencodeDict.get,
      SortedMap.lookup_insert keyRank_injective, Option.map_some, Option.some_or]
    simp only [hkeys]
    rfl

theorem valid_putField (hdict : (BencodeValue.dict dict).Valid)
    (hf : ∀ a, o = some a → (f a).Valid) : (BencodeValue.dict (putField key o f dict)).Valid := by
  cases o with
  | none => exact hdict
  | some a =>
    cases hdict with
    | dict hsorted hvalues =>
      refine .dict (SortedMap.sorted_insert hsorted) fun e he => ?_
      rcases SortedMap.mem_insert he with rfl | he
      · exact hf a rfl
      · exact hvalues e he

end Fields

/-- The value of the field `m`. -/
def idsDict (m : List (String × Nat)) : BencodeDict :=
  SortedMap.insertAll keyRank [] (m.map fun e => (asBytes e.1, .int e.2))

theorem toDict_eq (h : ExtendedHandshake) :
    h.toDict =
      putField "reqq" h.reqq (fun n => .int n)
        (putField "yourip" h.yourIp (fun ip => .bytes (asBytes ip))
          (putField "v" h.v (fun v => .bytes (asBytes v))
            (putField "metadata_size" h.metadataSize (fun size => .int size)
              (putField "m" (some (idsDict h.m)) .dict [])))) := by
  have hids : idsDict h.m =
      h.m.foldl (fun dict e => SortedMap.insert keyRank (asBytes e.1) (.int e.2) dict) [] := by
    rw [idsDict, SortedMap.insertAll, List.foldl_map]
  rw [hids]
  rfl

theorem get_toDict (h : ExtendedHandshake) :
    BencodeDict.get h.toDict "m" = some (.dict (idsDict h.m)) ∧
      BencodeDict.get h.toDict "metadata_size" =
        h.metadataSize.map (fun size : Nat => .int size) ∧
      BencodeDict.get h.toDict "v" = h.v.map (fun v => .bytes (asBytes v)) ∧
      BencodeDict.get h.toDict "yourip" = h.yourIp.map (fun ip => .bytes (asBytes ip)) ∧
      BencodeDict.get h.toDict "reqq" = h.reqq.map (fun n : Nat => .int n) := by
  have hempty : ∀ key, BencodeDict.get [] key = none := fun _ => rfl
  refine ⟨?_, ?_, ?_, ?_, ?_⟩ <;> simp [toDict_eq, get_putField, hempty]

theorem idsDict_perm {m : List (String × Nat)} (h : SortedMap.Sorted id m) :
    (idsDict m).Perm (m.map fun e => (asBytes e.1, .int e.2)) := by
  refine SortedMap.insertAll_perm ?_
  rw [List.nil_append, List.map_map]
  have hkeys : (m.map Prod.fst).Nodup := h.nodup
  have hbytes := hkeys.map (keyRank_injective.comp asBytes_injective)
  rw [List.map_map] at hbytes
  exact hbytes

theorem parseIds_idsDict {h : ExtendedHandshake} (hvalid : h.Valid) :
    parseIds [] (idsDict h.m) = some h.m := by
  have hperm := idsDict_perm hvalid.sorted
  have hid : ∀ e ∈ h.m, idOfValue (.int (e.2 : Nat)) = some e.2 := by
    intro e he
    have hle := hvalid.ids e he
    rw [idOfValue, if_pos (by omega), Int.toNat_natCast]
  have hany : ¬(idsDict h.m).any refuses = true := by
    rw [List.any_eq_true]
    rintro ⟨entry, hentry, hrefuses⟩
    obtain ⟨e, he, rfl⟩ := List.mem_map.mp (hperm.mem_iff.mp hentry)
    rw [refuses, hid e he] at hrefuses
    simp at hrefuses
  -- The entries are read back as they were written, whatever their order.
  have hkept :
      (h.m.map fun e => (asBytes e.1, BencodeValue.int e.2)).filterMap idOfEntry = h.m := by
    rw [List.filterMap_map]
    refine (List.filterMap_congr fun e he => ?_).trans List.filterMap_some
    rw [Function.comp_apply, idOfEntry, fromUtf8_asBytes, hid e he]
    rfl
  rw [parseIds_eq, if_neg hany]
  refine congrArg some (SortedMap.insertAll_eq hvalid.sorted ?_)
  have hfiltered := hperm.filterMap idOfEntry
  rwa [hkept] at hfiltered

theorem valid_toDict {h : ExtendedHandshake} (hvalid : h.Valid) :
    (BencodeValue.dict h.toDict).Valid := by
  have hids : (BencodeValue.dict (idsDict h.m)).Valid := by
    refine .dict (SortedMap.sorted_insertAll .nil) fun entry hentry => ?_
    obtain ⟨e, he, rfl⟩ := List.mem_map.mp ((idsDict_perm hvalid.sorted).mem_iff.mp hentry)
    have hle := hvalid.ids e he
    exact .int ⟨by unfold i64Max; omega, by unfold i64Max; omega⟩
  rw [toDict_eq]
  refine valid_putField (valid_putField (valid_putField (valid_putField (valid_putField
    (.dict .nil nofun) ?m) ?metadataSize) ?v) ?yourIp) ?reqq
  case m =>
    rintro dict ⟨⟩
    exact hids
  case metadataSize =>
    intro size hsize
    have hbounds := hvalid.metadataSize size hsize
    exact .int ⟨by unfold i64Max; omega, by unfold i64Max; omega⟩
  case v => exact fun v _ => .bytes _
  case yourIp => exact fun ip _ => .bytes _
  case reqq =>
    intro n hn
    have hbounds := hvalid.reqq n hn
    exact .int ⟨by unfold i64Max; omega, by unfold i64Max; omega⟩

theorem fromBytes_toDict {h : ExtendedHandshake} (hvalid : h.Valid)
    {decode : Bytes → Except String BencodeValue} {data : Bytes}
    (hdecode : decode data = .ok (.dict h.toDict)) : fromBytes decode data = some h := by
  obtain ⟨hm, hsize, hv, hip, hreqq⟩ := h.get_toDict
  have hparseM : parseM id h.toDict = some h.m := by
    rw [parseM, hm]
    exact parseIds_idsDict hvalid
  have hparseSize : parseMetadataSize h.toDict = some h.metadataSize := by
    rw [parseMetadataSize, hsize]
    cases hfield : h.metadataSize with
    | none => rfl
    | some size =>
      have hbounds := hvalid.metadataSize size hfield
      rw [Option.map_some]
      simp only
      rw [if_neg (by omega), Int.toNat_natCast]
  have htext : ∀ (key : String) (o : Option String),
      BencodeDict.get h.toDict key = o.map (fun text => .bytes (asBytes text)) →
      parseText h.toDict key = o := by
    intro key o hget
    rw [parseText, hget]
    cases o with
    | none => rfl
    | some text =>
      rw [Option.map_some]
      simp only [fromUtf8Lossy_asBytes]
  have hparseReqq : parseReqq h.toDict = h.reqq := by
    rw [parseReqq, hreqq]
    cases hfield : h.reqq with
    | none => rfl
    | some n =>
      have hbounds := hvalid.reqq n hfield
      rw [Option.map_some]
      simp only
      rw [if_pos (by omega), Int.toNat_natCast]
  rw [fromBytes, fromBytesInOrder, hdecode]
  simp only [hparseM, hparseSize, htext _ _ hv, htext _ _ hip, hparseReqq]
  rfl

/-! ## The codec -/

/-- The dictionary in a field of a value that can exist has each key once. -/
theorem nodup_of_get {dict entries : BencodeDict} {key : String}
    (hdict : (BencodeValue.dict dict).Valid)
    (hget : BencodeDict.get dict key = some (.dict entries)) : (entries.map Prod.fst).Nodup := by
  obtain ⟨before, after, hsplit, -⟩ := List.lookup_eq_some_iff.mp hget
  cases hdict with
  | dict _ hvalues =>
    have hfield := hvalues (asBytes key, .dict entries) (by rw [hsplit]; simp)
    cases hfield with
    | dict hsorted _ =>
      have hranks : ((entries.map Prod.fst).map keyRank).Nodup := by
        rw [List.map_map]
        exact hsorted.nodup
      exact List.Nodup.of_map keyRank hranks

/-- Only the field `m` is walked through entry by entry. -/
theorem parseM_eq {order : BencodeDict → BencodeDict}
    (horder : ∀ dict, (order dict).Perm dict) {dict : BencodeDict}
    (hdict : (BencodeValue.dict dict).Valid) : parseM order dict = parseM id dict := by
  unfold parseM
  cases hget : BencodeDict.get dict "m" with
  | none => rfl
  | some field =>
    cases field with
    | dict entries => exact parseIds_perm (nodup_of_get hdict hget) (horder entries)
    | _ => rfl

theorem fromBytesInOrder_eq {order : BencodeDict → BencodeDict}
    (horder : ∀ dict, (order dict).Perm dict) {decode : Bytes → Except String BencodeValue}
    (hmaps : ∀ data v, decode data = .ok v → v.Valid) (data : Bytes) :
    fromBytesInOrder order decode data = fromBytes decode data := by
  unfold fromBytes fromBytesInOrder
  cases hdecode : decode data with
  | error e => rfl
  | ok v =>
    cases v with
    | dict dict => simp only [parseM_eq horder (hmaps data _ hdecode)]
    | _ => rfl

/-- A valid handshake is read back, the order of the hash map does not show, and what is read is
valid. The serializer reads back what it has written, and it returns only values that exist. -/
theorem handshake_codec (encode : BencodeValue → Bytes) (decode : Bytes → Except String BencodeValue)
    (hserde : ∀ v : BencodeValue, v.Valid → decode (encode v) = .ok v)
    (hmaps : ∀ data v, decode data = .ok v → v.Valid) :
    (∀ h : ExtendedHandshake, h.Valid → fromBytes decode (encode (.dict h.toDict)) = some h) ∧
    (∀ order : BencodeDict → BencodeDict, (∀ dict, (order dict).Perm dict) →
      ∀ data, fromBytesInOrder order decode data = fromBytes decode data) ∧
    (∀ data h, fromBytes decode data = some h → h.Valid) ∧
    ∀ data (dict entries : BencodeDict) v, decode data = .ok (.dict dict) →
      BencodeDict.get dict "m" = some (.dict entries) →
      (asBytes "ut_metadata", v) ∈ entries →
      (∀ i : Int, v = .int i → ¬(0 ≤ i ∧ i ≤ 255)) → fromBytes decode data = none := by
  refine ⟨?_, ?_, ?_, ?_⟩
  · exact fun h hvalid => fromBytes_toDict hvalid (hserde _ (valid_toDict hvalid))
  · exact fun order horder data => fromBytesInOrder_eq horder hmaps data
  · exact fun data h hread => fromBytes_valid hread
  · intro data dict entries v hdecode hm hentry hv
    exact fromBytes_of_refused hdecode hm hentry hv

/-- A handshake with a size and a queue, and one whose id is no byte. -/
theorem handshake_codec_example :
    fromBytes BencodeValue.decode (BencodeValue.encode
        (.dict (toDict ⟨[("ut_metadata", 1)], some 5, some "btfind 0.1", none, some 64⟩))) =
      some ⟨[("ut_metadata", 1)], some 5, some "btfind 0.1", none, some 64⟩ ∧
    fromBytes BencodeValue.decode (asBytes "d1:md11:ut_metadatai256eee") = none := by
  have hcodec := handshake_codec BencodeValue.encode BencodeValue.decode
    (fun _ => BencodeValue.decode_encode) fun _ _ => BencodeValue.decode_valid
  refine ⟨hcodec.1 _ ⟨by decide, by decide, ?_, ?_⟩, ?_⟩
  · rintro size ⟨⟩
    decide
  · rintro n ⟨⟩
    decide
  · refine hcodec.2.2.2 _ [(asBytes "m", .dict [(asBytes "ut_metadata", .int 256)])]
      [(asBytes "ut_metadata", .int 256)] (.int 256) rfl rfl List.mem_cons_self ?_
    rintro i ⟨⟩
    decide

end ExtendedHandshake

end Btfind
