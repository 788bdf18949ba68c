import Btfind.Dht.Krpc
import Btfind.Library.Transaction

/-!
# The KRPC round trip

A message that is encoded and decoded comes back, and decoding is a normal form: what
was decoded once is not changed by encoding it and decoding it again.
-/

namespace Btfind

open BencodeValue (keyRank keyRank_injective InI64)

namespace KrpcValue

/-- Induction on a value and on what it contains. -/
@[elab_as_elim]
theorem induction {P : KrpcValue → Prop} (bytes : ∀ b, P (.bytes b)) (int : ∀ i, P (.int i))
    (list : ∀ items, (∀ v ∈ items, P v) → P (.list items))
    (dict : ∀ entries, (∀ e ∈ entries, P e.2) → P (.dict entries)) : ∀ v, P v
  | .bytes b => bytes b
  | .int i => int i
  | .list items => list items fun v _ => induction bytes int list dict v
  | .dict entries => dict entries fun e _ => induction bytes int list dict e.2
termination_by v => sizeOf v
decreasing_by
  · have hsize := List.sizeOf_lt_of_mem ‹v ∈ items›
    simp only [KrpcValue.list.sizeOf_spec]
    omega
  · have hsize := List.sizeOf_lt_of_mem ‹e ∈ entries›
    have hpair : sizeOf e.2 < sizeOf e := by
      cases e
      simp only [Prod.mk.sizeOf_spec]
      omega
    simp only [KrpcValue.dict.sizeOf_spec]
    omega

/-- A value that can exist: its numbers are `i64` and its dictionaries are maps. -/
inductive Valid : KrpcValue → Prop
  | bytes (b : Bytes) : Valid (.bytes b)
  | int {i : Int} (h : InI64 i) : Valid (.int i)
  | list {items : List KrpcValue} (h : ∀ v ∈ items, Valid v) : Valid (.list items)
  | dict {entries : KrpcMap} (hsorted : SortedMap.Sorted id entries)
      (h : ∀ e ∈ entries, Valid e.2) : Valid (.dict entries)

end KrpcValue

/-- A map that can exist. -/
structure KrpcMap.Valid (map : KrpcMap) : Prop where
  sorted : SortedMap.Sorted id map
  values : ∀ e ∈ map, e.2.Valid

/-! ## Values -/

/-- An entry as `krpc_to_bencode` writes it. -/
def encodeEntry (e : String × KrpcValue) : Bytes × BencodeValue :=
  (asBytes e.1, krpcToBencode e.2)

/-- An entry as `bencode_to_krpc` reads it, when its key is text. -/
def decodeEntry (e : Bytes × BencodeValue) : Option (String × KrpcValue) :=
  (fromUtf8 e.1).map fun key => (key, bencodeToKrpc e.2)

theorem krpcToBencodeItems_eq (items : List KrpcValue) :
    krpcToBencodeItems items = items.map krpcToBencode := by
  induction items with
  | nil => rfl
  | cons v items ih => rw [krpcToBencodeItems, ih, List.map_cons]

theorem krpcToBencodeDict_eq (dict : BencodeDict) (entries : KrpcMap) :
    krpcToBencodeDict dict entries =
      SortedMap.insertAll keyRank dict (entries.map encodeEntry) := by
  induction entries generalizing dict with
  | nil => rfl
  | cons e entries ih =>
    rw [krpcToBencodeDict, ih]
    rfl

theorem bencodeToKrpcItems_eq (items : List BencodeValue) :
    bencodeToKrpcItems items = items.map bencodeToKrpc := by
  induction items with
  | nil => rfl
  | cons v items ih => rw [bencodeToKrpcItems, ih, List.map_cons]

theorem bencodeToKrpcMap_eq (map : KrpcMap) (entries : BencodeDict) :
    bencodeToKrpcMap map entries =
      SortedMap.insertAll id map (entries.filterMap decodeEntry) := by
  induction entries generalizing map with
  | nil => rfl
  | cons e entries ih =>
    rw [bencodeToKrpcMap, List.filterMap_cons, decodeEntry]
    cases fromUtf8 e.1 with
    | none => exact ih map
    | some key => exact ih _

theorem keys_nodup {entries : KrpcMap} (h : (entries.map Prod.fst).Nodup) :
    ((entries.map encodeEntry).map fun e => keyRank e.1).Nodup := by
  have hmap : (entries.map encodeEntry).map (fun e => keyRank e.1) =
      (entries.map Prod.fst).map fun key => keyRank (asBytes key) := by
    simp [encodeEntry]
  rw [hmap]
  exact h.map (keyRank_injective.comp asBytes_injective)

/-- A map comes back when its values do. -/
theorem map_round_trip {entries : KrpcMap} (hsorted : SortedMap.Sorted id entries)
    (h : ∀ e ∈ entries, bencodeToKrpc (krpcToBencode e.2) = e.2) :
    bencodeToKrpcMap [] (krpcToBencodeDict [] entries) = entries := by
  rw [krpcToBencodeDict_eq, bencodeToKrpcMap_eq]
  refine SortedMap.insertAll_eq hsorted ?_
  have hperm : (SortedMap.insertAll keyRank [] (entries.map encodeEntry)).Perm
      ([] ++ entries.map encodeEntry) := SortedMap.insertAll_perm (keys_nodup hsorted.nodup)
  refine (hperm.filterMap decodeEntry).trans ?_
  rw [List.nil_append, List.filterMap_map]
  have hentries : entries.filterMap (decodeEntry ∘ encodeEntry) = entries := by
    refine (List.filterMap_congr fun e he => ?_).trans List.filterMap_some
    simp only [Function.comp_apply, decodeEntry, encodeEntry, fromUtf8_asBytes, Option.map_some,
      h e he]
  rw [hentries]

theorem bencodeToKrpc_krpcToBencode {v : KrpcValue} (hv : v.Valid) :
    bencodeToKrpc (krpcToBencode v) = v := by
  induction v using KrpcValue.induction with
  | bytes b => rfl
  | int i => rfl
  | list items ih =>
    cases hv with
    | list hitems =>
      rw [krpcToBencode, bencodeToKrpc, krpcToBencodeItems_eq, bencodeToKrpcItems_eq,
        List.map_map]
      congr 1
      refine (List.map_congr_left fun v hv => ?_).trans (List.map_id _)
      exact ih v hv (hitems v hv)
  | dict entries ih =>
    cases hv with
    | dict hsorted hentries =>
      rw [krpcToBencode, bencodeToKrpc, map_round_trip hsorted]
      exact fun e he => ih e he (hentries e he)

theorem KrpcMap.Valid.round_trip {map : KrpcMap} (h : map.Valid) :
    bencodeToKrpcMap [] (krpcToBencodeDict [] map) = map :=
  map_round_trip h.sorted fun e he => bencodeToKrpc_krpcToBencode (h.values e he)

theorem krpcToBencode_valid {v : KrpcValue} (hv : v.Valid) : (krpcToBencode v).Valid := by
  induction v using KrpcValue.induction with
  | bytes b => exact .bytes b
  | int i =>
    cases hv with
    | int hi => exact .int hi
  | list items ih =>
    cases hv with
    | list hitems =>
      rw [krpcToBencode, krpcToBencodeItems_eq]
      refine .list fun v hv => ?_
      obtain ⟨item, hitem, rfl⟩ := List.mem_map.mp hv
      exact ih item hitem (hitems item hitem)
  | dict entries ih =>
    cases hv with
    | dict hsorted hentries =>
      rw [krpcToBencode, krpcToBencodeDict_eq]
      refine .dict (SortedMap.sorted_insertAll .nil) fun e he => ?_
      obtain he | he := SortedMap.mem_insertAll he
      · cases he
      · obtain ⟨entry, hentry, rfl⟩ := List.mem_map.mp he
        exact ih entry hentry (hentries entry hentry)

theorem bencodeToKrpcMap_valid {entries : BencodeDict}
    (h : ∀ e ∈ entries, (bencodeToKrpc e.2).Valid) : (bencodeToKrpcMap [] entries).Valid := by
  rw [bencodeToKrpcMap_eq]
  refine ⟨SortedMap.sorted_insertAll .nil, fun e he => ?_⟩
  obtain he | he := SortedMap.mem_insertAll he
  · cases he
  · obtain ⟨entry, hentry, hdecode⟩ := List.mem_filterMap.mp he
    obtain ⟨key, _, rfl⟩ := Option.map_eq_some_iff.mp hdecode
    exact h entry hentry

theorem bencodeToKrpc_valid {v : BencodeValue} (hv : v.Valid) : (bencodeToKrpc v).Valid := by
  induction v using BencodeValue.induction with
  | bytes b => exact .bytes b
  | int i =>
    cases hv with
    | int hi => exact .int hi
  | list items ih =>
    cases hv with
    | list hitems =>
      rw [bencodeToKrpc, bencodeToKrpcItems_eq]
      refine .list fun v hv => ?_
      obtain ⟨item, hitem, rfl⟩ := List.mem_map.mp hv
      exact ih item hitem (hitems item hitem)
  | dict entries ih =>
    cases hv with
    | dict _ hentries =>
      have hmap := bencodeToKrpcMap_valid fun e he => ih e he (hentries e he)
      exact .dict hmap.sorted hmap.values

/-! ## The dictionary of a message -/

/-- A dictionary with the fields of a message and its extensions. -/
structure Built (dict : BencodeDict) (fields : List (String × BencodeValue)) (extra : KrpcMap) :
    Prop where
  sorted : SortedMap.Sorted keyRank dict
  perm : dict.Perm (fields.map (fun e => (asBytes e.1, e.2)) ++ extra.map encodeEntry)

/-- The extensions that a message may carry. -/
structure Extension (extra : KrpcMap) : Prop where
  valid : extra.Valid
  unreserved : ∀ e ∈ extra, isReserved e.1 = false

theorem insertExtra_eq {extra : KrpcMap} (h : ∀ e ∈ extra, isReserved e.1 = false)
    (dict : BencodeDict) :
    insertExtra dict extra = SortedMap.insertAll keyRank dict (extra.map encodeEntry) := by
  induction extra generalizing dict with
  | nil => rfl
  | cons e extra ih =>
    have hrest := ih fun e he => h e (List.mem_cons_of_mem _ he)
    rw [insertExtra, List.foldl_cons, h e List.mem_cons_self]
    exact hrest _

theorem nodup_keys {fields : List (String × BencodeValue)} {extra : KrpcMap}
    (hextra : Extension extra) (hfields : (fields.map Prod.fst).Nodup)
    (hreserved : ∀ e ∈ fields, isReserved e.1 = true) :
    ((fields.map (fun e => (asBytes e.1, e.2)) ++ extra.map encodeEntry).map
      fun e => keyRank e.1).Nodup := by
  have hmap : (fields.map (fun e => (asBytes e.1, e.2)) ++ extra.map encodeEntry).map
      (fun e => keyRank e.1) =
        (fields.map Prod.fst ++ extra.map Prod.fst).map fun key => keyRank (asBytes key) := by
    rw [List.map_append, List.map_append, List.map_map, List.map_map, List.map_map, List.map_map]
    rfl
  rw [hmap]
  refine List.Nodup.map (keyRank_injective.comp asBytes_injective) ?_
  refine List.nodup_append.mpr ⟨hfields, hextra.valid.sorted.nodup, ?_⟩
  intro a ha b hb heq
  obtain ⟨e, he, rfl⟩ := List.mem_map.mp ha
  obtain ⟨e', he', rfl⟩ := List.mem_map.mp hb
  have htrue := hreserved e he
  rw [heq, hextra.unreserved e' he'] at htrue
  cases htrue

/-- The fields in the order in which `to_bytes` inserts them: `t`, the extensions, and
the rest. -/
theorem built_insertAll {first : String × BencodeValue} {rest : List (String × BencodeValue)}
    {extra : KrpcMap} (hextra : Extension extra) (hfields : ((first :: rest).map Prod.fst).Nodup)
    (hreserved : ∀ e ∈ first :: rest, isReserved e.1 = true) :
    Built (rest.foldl (fun dict e => dict.put e.1 e.2)
      (insertExtra (BencodeDict.put first.1 first.2 []) extra)) (first :: rest) extra := by
  have hput : ∀ (rest : List (String × BencodeValue)) (dict : BencodeDict),
      rest.foldl (fun dict e => dict.put e.1 e.2) dict =
        SortedMap.insertAll keyRank dict (rest.map fun e => (asBytes e.1, e.2)) := by
    intro rest dict
    rw [SortedMap.insertAll, List.foldl_map]
    rfl
  have hall : rest.foldl (fun dict e => dict.put e.1 e.2)
      (insertExtra (BencodeDict.put first.1 first.2 []) extra) =
        SortedMap.insertAll keyRank [] ((asBytes first.1, first.2) ::
          (extra.map encodeEntry ++ rest.map fun e => (asBytes e.1, e.2))) := by
    rw [hput, insertExtra_eq hextra.unreserved, SortedMap.insertAll, SortedMap.insertAll,
      SortedMap.insertAll, List.foldl_cons, List.foldl_append]
    rfl
  have hperm : ((asBytes first.1, first.2) ::
      (extra.map encodeEntry ++ rest.map fun e => (asBytes e.1, e.2))).Perm
        ((first :: rest).map (fun e => (asBytes e.1, e.2)) ++ extra.map encodeEntry) :=
    List.perm_append_comm.cons _
  rw [hall]
  refine ⟨SortedMap.sorted_insertAll .nil, (SortedMap.insertAll_perm ?_).trans hperm⟩
  rw [List.nil_append]
  exact (hperm.map fun e : Bytes × BencodeValue => keyRank e.1).nodup_iff.mpr
    (nodup_keys hextra hfields hreserved)

theorem lookup_of_mem {dict : BencodeDict} {key : Bytes} {v : BencodeValue}
    (hsorted : SortedMap.Sorted keyRank dict) (h : (key, v) ∈ dict) :
    dict.lookup key = some v := by
  induction dict with
  | nil => cases h
  | cons e dict ih =>
    obtain ⟨hhead, htail⟩ := List.pairwise_cons.mp hsorted
    obtain rfl | hmem := List.mem_cons.mp h
    · exact List.lookup_cons_self
    · have hne : (key == e.1) = false := by
        rw [beq_eq_false_iff_ne]
        rintro rfl
        exact absurd (hhead (e.1, v) hmem) (lt_irrefl _)
      rw [List.lookup_cons, hne]
      exact ih htail hmem

section Built

variable {dict : BencodeDict} {fields : List (String × BencodeValue)} {extra : KrpcMap}
  {key text : String} {b : Bytes} {v : BencodeValue}

theorem Built.get (h : Built dict fields extra)
    (hmem : (key, v) ∈ fields) : dict.get key = some v := by
  refine lookup_of_mem h.sorted (h.perm.mem_iff.mpr (List.mem_append_left _ ?_))
  exact List.mem_map_of_mem (f := fun e : String × BencodeValue => (asBytes e.1, e.2)) hmem

theorem Built.getBytes (h : Built dict fields extra) (hmem : (key, .bytes b) ∈ fields) :
    getBytes dict key = some b := by
  rw [Btfind.getBytes, h.get hmem]

theorem Built.getString (h : Built dict fields extra)
    (hmem : (key, .bytes (asBytes text)) ∈ fields) : getString dict key = some text := by
  rw [Btfind.getString, h.getBytes hmem, Option.map_some, fromUtf8Lossy_asBytes]

/-- The extensions are collected from the dictionary, and no field with them. -/
theorem Built.collectExtra (h : Built dict fields extra) (hextra : Extension extra)
    (hreserved : ∀ e ∈ fields, isReserved e.1 = true) : collectExtra dict = extra := by
  refine SortedMap.insertAll_eq hextra.valid.sorted ((h.perm.filterMap _).trans ?_)
  rw [List.filterMap_append, List.filterMap_map, List.filterMap_map]
  have hnone : fields.filterMap (collectEntry ∘ fun e => (asBytes e.1, e.2)) = [] := by
    rw [List.filterMap_eq_nil_iff]
    intro e he
    simp only [Function.comp_apply, collectEntry, fromUtf8_asBytes, hreserved e he, if_true]
  have hextras : extra.filterMap (collectEntry ∘ encodeEntry) = extra := by
    refine (List.filterMap_congr fun e he => ?_).trans List.filterMap_some
    simp only [Function.comp_apply, collectEntry, encodeEntry, fromUtf8_asBytes,
      hextra.unreserved e he, Bool.false_eq_true, if_false,
      bencodeToKrpc_krpcToBencode (hextra.valid.values e he)]
  rw [hnone, hextras, List.nil_append]

end Built

/-! ## Messages -/

namespace KrpcMessage

/-- A message that can exist. -/
def Valid : KrpcMessage → Prop
  | .query _ _ _ a extra => a.Valid ∧ extra.Valid
  | .response _ _ r extra => r.Valid ∧ extra.Valid
  | .error _ _ e extra => InI64 e.code ∧ extra.Valid

def fields : KrpcMessage → List (String × BencodeValue)
  | .query t y q a _ =>
    [("t", .bytes t), ("y", .bytes (asBytes y)), ("q", .bytes (asBytes q)),
      ("a", .dict (krpcToBencodeDict [] a))]
  | .response t y r _ =>
    [("t", .bytes t), ("y", .bytes (asBytes y)), ("r", .dict (krpcToBencodeDict [] r))]
  | .error t y e _ =>
    [("t", .bytes t), ("y", .bytes (asBytes y)),
      ("e", .list [.int e.code, .bytes (asBytes e.description)])]

variable {m : KrpcMessage}

theorem fields_reserved : ∀ e ∈ m.fields, isReserved e.1 = true := by
  cases m <;> simp [fields, isReserved]

theorem extra_valid (h : m.Valid) : m.extra.Valid := by
  cases m <;> exact h.2

theorem toDict_built (h : Extension m.extra) : Built m.toDict m.fields m.extra := by
  have hreserved := fields_reserved (m := m)
  cases m <;> exact built_insertAll h (by simp) hreserved

theorem krpcToBencodeDict_valid {map : KrpcMap} (h : map.Valid) :
    (BencodeValue.dict (krpcToBencodeDict [] map)).Valid :=
  krpcToBencode_valid (.dict h.sorted h.values)

theorem fields_valid (h : m.Valid) : ∀ e ∈ m.fields, e.2.Valid := by
  cases m with
  | query t y q a extra =>
    simp only [fields, List.forall_mem_cons]
    exact ⟨.bytes _, .bytes _, .bytes _, krpcToBencodeDict_valid h.1, nofun⟩
  | response t y r extra =>
    simp only [fields, List.forall_mem_cons]
    exact ⟨.bytes _, .bytes _, krpcToBencodeDict_valid h.1, nofun⟩
  | error t y e extra =>
    simp only [fields, List.forall_mem_cons]
    refine ⟨.bytes _, .bytes _, .list ?_, nofun⟩
    simp only [List.forall_mem_cons]
    exact ⟨.int h.1, .bytes _, nofun⟩

theorem toDict_valid (h : m.Valid) (hextra : Extension m.extra) :
    (BencodeValue.dict m.toDict).Valid := by
  have hbuilt := toDict_built hextra
  refine .dict hbuilt.sorted fun e he => ?_
  obtain he | he := List.mem_append.mp (hbuilt.perm.mem_iff.mp he)
  · obtain ⟨field, hfield, rfl⟩ := List.mem_map.mp he
    exact fields_valid h field hfield
  · obtain ⟨entry, hentry, rfl⟩ := List.mem_map.mp he
    exact krpcToBencode_valid (hextra.valid.values entry hentry)

/-- The fields of a message with the tag of its variant are read back. -/
theorem fromDict_toDict (h : m.Valid) (hextra : Extension m.extra) (htag : m.y = m.tag) :
    fromDict m.toDict = .ok m := by
  have hbuilt := toDict_built hextra
  have hcollect := hbuilt.collectExtra hextra fields_reserved
  cases m with
  | query t y q a extra =>
    have hy : y = "q" := htag
    subst hy
    have ht : getBytes (toDict (.query t "q" q a extra)) "t" = some t :=
      hbuilt.getBytes (by simp [fields])
    have hy : getString (toDict (.query t "q" q a extra)) "y" = some "q" :=
      hbuilt.getString (by simp [fields])
    have hq : getString (toDict (.query t "q" q a extra)) "q" = some q :=
      hbuilt.getString (by simp [fields])
    have ha : (toDict (.query t "q" q a extra)).get "a" =
        some (.dict (krpcToBencodeDict [] a)) := hbuilt.get (by simp [fields])
    rw [fromDict, ht, hy, hcollect, hq, getDict, ha]
    show Except.ok (query t "q" q (bencodeToKrpcMap [] (krpcToBencodeDict [] a)) extra) = _
    rw [h.1.round_trip]
  | response t y r extra =>
    have hy : y = "r" := htag
    subst hy
    have ht : getBytes (toDict (.response t "r" r extra)) "t" = some t :=
      hbuilt.getBytes (by simp [fields])
    have hy : getString (toDict (.response t "r" r extra)) "y" = some "r" :=
      hbuilt.getString (by simp [fields])
    have hr : (toDict (.response t "r" r extra)).get "r" =
        some (.dict (krpcToBencodeDict [] r)) := hbuilt.get (by simp [fields])
    rw [fromDict, ht, hy, hcollect, getDict.eq_def _ "r", hr]
    show Except.ok (response t "r" (bencodeToKrpcMap [] (krpcToBencodeDict [] r)) extra) = _
    rw [h.1.round_trip]
  | error t y e extra =>
    have hy : y = "e" := htag
    subst hy
    have ht : getBytes (toDict (.error t "e" e extra)) "t" = some t :=
      hbuilt.getBytes (by simp [fields])
    have hy : getString (toDict (.error t "e" e extra)) "y" = some "e" :=
      hbuilt.getString (by simp [fields])
    have he : (toDict (.error t "e" e extra)).get "e" =
        some (.list [.int e.code, .bytes (asBytes e.description)]) :=
      hbuilt.get (by simp [fields])
    rw [fromDict, ht, hy, hcollect, getList, he]
    show Except.ok (error t "e" ⟨e.code, fromUtf8Lossy (asBytes e.description)⟩ extra) = _
    rw [fromUtf8Lossy_asBytes]

/-! ## Decoded messages -/

theorem mem_of_get {dict : BencodeDict} {key : String} {v : BencodeValue}
    (h : dict.get key = some v) : ∃ k, (k, v) ∈ dict := by
  obtain ⟨before, after, hdict, _⟩ := List.lookup_eq_some_iff.mp h
  exact ⟨_, hdict ▸ List.mem_append_right _ List.mem_cons_self⟩

theorem collectExtra_extension {dict : BencodeDict} (hdict : ∀ e ∈ dict, e.2.Valid) :
    Extension (collectExtra dict) := by
  have hentry : ∀ e ∈ collectExtra dict, e.2.Valid ∧ isReserved e.1 = false := by
    intro e he
    obtain he | he := SortedMap.mem_insertAll he
    · cases he
    · obtain ⟨entry, hentry, hcollect⟩ := List.mem_filterMap.mp he
      rw [collectEntry] at hcollect
      split at hcollect
      · split at hcollect
        · cases hcollect
        · next hfree =>
          cases hcollect
          exact ⟨bencodeToKrpc_valid (hdict entry hentry), Bool.eq_false_of_not_eq_true hfree⟩
      · cases hcollect
  exact ⟨⟨SortedMap.sorted_insertAll .nil, fun e he => (hentry e he).1⟩,
    fun e he => (hentry e he).2⟩

theorem getDict_valid {dict : BencodeDict} (hdict : ∀ e ∈ dict, e.2.Valid) (key : String) :
    KrpcMap.Valid (bencodeToKrpcMap [] ((getDict dict key).getD [])) := by
  refine bencodeToKrpcMap_valid fun e he => ?_
  rw [getDict] at he
  split at he
  · next d hget =>
    obtain ⟨k, hmem⟩ := mem_of_get hget
    have hvalid := hdict _ hmem
    cases hvalid with
    | dict _ hentries => exact bencodeToKrpc_valid (hentries e he)
  · cases he

theorem parseError_valid {items : List BencodeValue} {e : KrpcError}
    (h : parseError items = .ok e) (hitems : ∀ v ∈ items, v.Valid) : InI64 e.code := by
  unfold parseError at h
  split at h
  · cases h
    cases hitems _ List.mem_cons_self with
    | int hi => exact hi
  · cases h
    cases hitems _ List.mem_cons_self with
    | int hi => exact hi
  · cases h

theorem okOr_ok {α : Type} {o : Option α} {e : String} {a : α} (h : okOr o e = .ok a) :
    o = some a := by
  cases o with
  | none => cases h
  | some b =>
    cases h
    rfl

/-- A decoded message has the tag of its variant and extensions that are no fields. -/
theorem fromDict_ok {dict : BencodeDict} (h : fromDict dict = .ok m)
    (hdict : ∀ e ∈ dict, e.2.Valid) : m.Valid ∧ m.y = m.tag ∧ Extension m.extra := by
  have hextra := collectExtra_extension hdict
  obtain ⟨t, _, h⟩ := Transaction.ok_of_bind h
  obtain ⟨y, _, h⟩ := Transaction.ok_of_bind h
  split at h
  · next hy =>
    obtain ⟨q, _, h⟩ := Transaction.ok_of_bind h
    cases h
    exact ⟨⟨getDict_valid hdict "a", hextra.valid⟩, hy, hextra⟩
  · split at h
    · next hy =>
      cases h
      exact ⟨⟨getDict_valid hdict "r", hextra.valid⟩, hy, hextra⟩
    · split at h
      · next hy =>
        obtain ⟨items, hitems, h⟩ := Transaction.ok_of_bind h
        obtain ⟨e, he, h⟩ := Transaction.ok_of_bind h
        cases h
        refine ⟨⟨parseError_valid he ?_, hextra.valid⟩, hy, hextra⟩
        have hlist := okOr_ok hitems
        rw [getList] at hlist
        split at hlist
        · next items' hget =>
          cases hlist
          obtain ⟨k, hmem⟩ := mem_of_get hget
          cases hdict _ hmem with
          | list hvalid => exact hvalid
        · cases hlist
      · cases h

/-- When the serializer's `from_bytes` inverts its `to_bytes`, every message comes back,
and what is decoded is not changed by encoding and decoding it again. -/
theorem krpc_round_trip (encode : BencodeValue → Bytes) (decode : Bytes → Except String BencodeValue)
    (hdecode : ∀ v : BencodeValue, v.Valid → decode (encode v) = .ok v)
    (hvalue : ∀ data v, decode data = .ok v → v.Valid) :
    (∀ m : KrpcMessage, m.Valid → m.y = m.tag → (∀ e ∈ m.extra, isReserved e.1 = false) →
        fromBytes decode (m.toBytes encode) = .ok m) ∧
      ∀ data (m : KrpcMessage), fromBytes decode data = .ok m →
        fromBytes decode (m.toBytes encode) = .ok m := by
  have hround : ∀ m : KrpcMessage, m.Valid → m.y = m.tag → Extension m.extra →
      fromBytes decode (m.toBytes encode) = .ok m := by
    intro m hm htag hextra
    rw [fromBytes, toBytes, hdecode _ (toDict_valid hm hextra)]
    exact fromDict_toDict hm hextra htag
  constructor
  · intro m hm htag hfree
    exact hround m hm htag ⟨extra_valid hm, hfree⟩
  · intro data m hm
    rw [fromBytes] at hm
    split at hm
    · cases hm
    · next dict hdata =>
      cases hvalue _ _ hdata with
      | dict _ hentries =>
        obtain ⟨hvalid, htag, hextra⟩ := fromDict_ok hm hentries
        exact hround m hvalid htag hextra
    · cases hm

/-- A serializer that does so. -/
theorem krpc_round_trip_bencode :
    (∀ m : KrpcMessage, m.Valid → m.y = m.tag → (∀ e ∈ m.extra, isReserved e.1 = false) →
        fromBytes BencodeValue.decode (m.toBytes BencodeValue.encode) = .ok m) ∧
      ∀ data (m : KrpcMessage), fromBytes BencodeValue.decode data = .ok m →
        fromBytes BencodeValue.decode (m.toBytes BencodeValue.encode) = .ok m :=
  krpc_round_trip BencodeValue.encode BencodeValue.decode (fun _ => BencodeValue.decode_encode)
    fun _ _ => BencodeValue.decode_valid

end KrpcMessage

end Btfind
