import Mathlib.Data.List.Basic
import Mathlib.Data.List.Infix

/-!
# A list in blocks

A list cut into blocks of one size, the last of which can be shorter, and slots that
keep the first arrival for each index. Whatever the order of the arrivals, filled slots
hold the first arrival of each index, and the blocks of a list give the list back.
-/

namespace Blocks

variable {α : Type*}

/-- The block at an index. -/
def block (size : Nat) (m : List α) (i : Nat) : List α := (m.drop (size * i)).take size

/-- The length of the block at an index. -/
theorem length_block (size : Nat) (m : List α) (i : Nat) :
    (block size m i).length = min size (m.length - size * i) := by
  rw [block, List.length_take, List.length_drop]

theorem block_succ (size : Nat) (m : List α) (i : Nat) :
    block size m (i + 1) = block size (m.drop size) i := by
  rw [block, block, List.drop_drop, Nat.mul_add, Nat.mul_one, Nat.add_comm]

/-- The blocks of a list, joined, are the list. -/
theorem flatten_of_blocks {size : Nat} {m : List α} {bs : List (List α)}
    (hlen : m.length ≤ size * bs.length)
    (h : ∀ i, i < bs.length → bs[i]? = some (block size m i)) : bs.flatten = m := by
  induction bs generalizing m with
  | nil =>
    rw [List.length_nil, Nat.mul_zero, Nat.le_zero, List.length_eq_zero_iff] at hlen
    rw [hlen, List.flatten_nil]
  | cons b bs ih =>
    have hhead := h 0 (Nat.succ_pos _)
    rw [List.getElem?_cons_zero, Option.some_inj, block, Nat.mul_zero, List.drop_zero] at hhead
    rw [List.length_cons, Nat.mul_add, Nat.mul_one] at hlen
    have hrest : bs.flatten = m.drop size := by
      refine ih (by rw [List.length_drop]; omega) fun i hi => ?_
      have hnext := h (i + 1) (Nat.succ_lt_succ hi)
      rw [List.getElem?_cons_succ, block_succ] at hnext
      exact hnext
    rw [List.flatten_cons, hrest, hhead, List.take_append_drop]

/-- The blocks of a joined list are the parts, when only the last part is shorter. -/
theorem block_flatten {size : Nat} {bs : List (List α)}
    (hinner : ∀ i b, i + 1 < bs.length → bs[i]? = some b → b.length = size)
    (hlast : ∀ b ∈ bs, b.length ≤ size) {i : Nat} (hi : i < bs.length) :
    bs[i]? = some (block size bs.flatten i) := by
  induction bs generalizing i with
  | nil => cases hi
  | cons b bs ih =>
    cases i with
    | zero =>
      rw [List.getElem?_cons_zero, block, Nat.mul_zero, List.drop_zero, List.flatten_cons]
      cases bs with
      | nil => simp [hlast b List.mem_cons_self]
      | cons c bs =>
        have hb := hinner 0 b (by simp) List.getElem?_cons_zero
        rw [← hb, List.take_left]
    | succ i =>
      have hpos : 1 < (b :: bs).length := by
        rw [List.length_cons] at hi ⊢
        omega
      have hb := hinner 0 b hpos List.getElem?_cons_zero
      rw [List.getElem?_cons_succ, block_succ, List.flatten_cons, ← hb, List.drop_left, hb]
      refine ih (fun j c hj hc => hinner (j + 1) c (Nat.succ_lt_succ hj) ?_)
        (fun c hc => hlast c (List.mem_cons_of_mem _ hc)) (Nat.lt_of_succ_lt_succ hi)
      rw [List.getElem?_cons_succ]
      exact hc

/-! ## Equal blocks -/

/-- The blocks of a list whose length the size divides. -/
def blocks (size : Nat) (m : List α) : List (List α) :=
  (List.range (m.length / size)).map (block size m)

variable {size : Nat} {m : List α} {bs : List (List α)}

theorem length_of_mem_blocks {b : List α} (h : b ∈ blocks size m) : b.length = size := by
  obtain ⟨i, hi, rfl⟩ := List.mem_map.mp h
  have hfits : size * (i + 1) ≤ m.length := by
    calc size * (i + 1) ≤ size * (m.length / size) :=
          Nat.mul_le_mul_left _ (List.mem_range.mp hi)
      _ ≤ m.length := Nat.mul_div_le _ _
  rw [Nat.mul_add, Nat.mul_one] at hfits
  rw [length_block]
  omega

theorem flatten_blocks (h : m.length % size = 0) : (blocks size m).flatten = m := by
  have hlen : (blocks size m).length = m.length / size := by
    rw [blocks, List.length_map, List.length_range]
  have hblocks : ∀ i, i < (blocks size m).length →
      (blocks size m)[i]? = some (block size m i) := by
    intro i hi
    rw [hlen] at hi
    rw [blocks, List.getElem?_map, List.getElem?_range hi, Option.map_some]
  refine flatten_of_blocks ?_ hblocks
  rw [hlen, Nat.mul_div_cancel' (Nat.dvd_of_mod_eq_zero h)]

theorem length_flatten (h : ∀ b ∈ bs, b.length = size) : bs.flatten.length = size * bs.length := by
  induction bs with
  | nil => rfl
  | cons b bs ih =>
    rw [List.flatten_cons, List.length_append, h b List.mem_cons_self,
      ih fun c hc => h c (List.mem_cons_of_mem _ hc), List.length_cons, Nat.mul_succ, Nat.add_comm]

theorem blocks_flatten (hsize : 0 < size) (h : ∀ b ∈ bs, b.length = size) :
    blocks size bs.flatten = bs := by
  have hlen : bs.flatten.length / size = bs.length := by
    rw [length_flatten h, Nat.mul_div_cancel_left _ hsize]
  refine List.ext_getElem? fun i => ?_
  rw [blocks, List.getElem?_map, hlen]
  by_cases hi : i < bs.length
  · rw [List.getElem?_range hi, Option.map_some]
    exact (block_flatten (fun j b _ hb => h b (List.mem_of_getElem? hb)) (fun b hb => (h b hb).le)
      hi).symm
  · rw [List.getElem?_eq_none (by simpa using hi), List.getElem?_eq_none (by omega),
      Option.map_none]

/-- A list that is cut between blocks has the blocks of its parts. -/
theorem blocks_of_parts (hsize : 0 < size) (h : ∀ b ∈ bs, b.length % size = 0) :
    blocks size bs.flatten = bs.flatMap (blocks size) := by
  have hparts : (bs.flatMap (blocks size)).flatten = bs.flatten := by
    rw [List.flatMap_def, List.flatten_flatten, List.map_map]
    refine congrArg List.flatten ?_
    conv_rhs => rw [← List.map_id bs]
    exact List.map_congr_left fun b hb => flatten_blocks (h b hb)
  rw [← hparts]
  refine blocks_flatten hsize fun b hb => ?_
  obtain ⟨part, -, hb⟩ := List.mem_flatMap.mp hb
  exact length_of_mem_blocks hb

/-! ## Records

Records of one size, one after the other; a decoder may drop some of them. -/

section Records

variable {β : Type*} {encode : β → List α} {decode : List α → Option β} {keep : β → Bool}

theorem length_records (hlen : ∀ r, (encode r).length = size) (rs : List β) :
    (rs.flatMap encode).length % size = 0 := by
  have hblocks : ∀ b ∈ rs.map encode, b.length = size := by
    intro b hb
    obtain ⟨r, -, rfl⟩ := List.mem_map.mp hb
    exact hlen r
  rw [List.flatMap_def, length_flatten hblocks]
  exact Nat.mul_mod_right _ _

theorem decode_encode (hsize : 0 < size) (hlen : ∀ r, (encode r).length = size)
    (h : ∀ r, decode (encode r) = if keep r then some r else none) (rs : List β) :
    (blocks size (rs.flatMap encode)).filterMap decode = rs.filter keep := by
  rw [List.flatMap_def, blocks_flatten hsize, List.filterMap_map]
  · induction rs with
    | nil => rfl
    | cons r rs ih =>
      rw [List.filterMap_cons, Function.comp_apply, h, List.filter_cons, ih]
      by_cases hr : keep r = true
      · rw [if_pos hr, if_pos hr]
      · rw [if_neg hr, if_neg hr]
  · intro b hb
    obtain ⟨r, -, rfl⟩ := List.mem_map.mp hb
    exact hlen r

theorem encode_decode (hm : m.length % size = 0)
    (h : ∀ b r, b.length = size → decode b = some r → encode r = b)
    (hall : ∀ b ∈ blocks size m, (decode b).isSome) :
    ((blocks size m).filterMap decode).flatMap encode = m := by
  have hparts : ∀ bs : List (List α), (∀ b ∈ bs, b.length = size) →
      (∀ b ∈ bs, (decode b).isSome) → (bs.filterMap decode).flatMap encode = bs.flatten := by
    intro bs hlen hsome
    induction bs with
    | nil => rfl
    | cons b bs ih =>
      obtain ⟨r, hr⟩ := Option.isSome_iff_exists.mp (hsome b List.mem_cons_self)
      rw [List.filterMap_cons_some hr, List.flatMap_cons, List.flatten_cons,
        h b r (hlen b List.mem_cons_self) hr,
        ih (fun c hc => hlen c (List.mem_cons_of_mem _ hc))
          fun c hc => hsome c (List.mem_cons_of_mem _ hc)]
  rw [hparts _ (fun b hb => length_of_mem_blocks hb) hall, flatten_blocks hm]

end Records

/-! ## Slots -/

/-- Keep an arrival in its slot, if the slot is empty. -/
def fill (slots : List (Option α)) (arrival : Nat × α) : List (Option α) :=
  match slots[arrival.1]? with
  | some none => slots.set arrival.1 (some arrival.2)
  | _ => slots

/-- The first arrival for an index. -/
def firstFor (i : Nat) (arrivals : List (Nat × α)) : Option α :=
  (arrivals.find? fun arrival => arrival.1 == i).map Prod.snd

def filled (slots : List (Option α)) : Nat := slots.countP Option.isSome

variable {slots : List (Option α)} {arrivals : List (Nat × α)} {i j : Nat} {a : α}

theorem fill_of_empty (h : slots[j]? = some none) : fill slots (j, a) = slots.set j (some a) := by
  rw [fill, h]

theorem fill_of_not_empty (h : slots[j]? ≠ some none) : fill slots (j, a) = slots := by
  rw [fill]
  split
  · next heq => exact absurd heq h
  · rfl

theorem length_fill (slots : List (Option α)) (arrival : Nat × α) :
    (fill slots arrival).length = slots.length := by
  rw [fill]
  split
  · exact List.length_set
  · rfl

/-- A slot that an arrival fills is counted. -/
theorem filled_fill (h : slots[j]? = some none) :
    filled (fill slots (j, a)) = filled slots + 1 := by
  obtain ⟨hj, hget⟩ := List.getElem?_eq_some_iff.mp h
  rw [fill_of_empty h, filled, List.countP_set hj, hget]
  rfl

theorem getElem_fill (slots : List (Option α)) (j : Nat) (a : α) (i : Nat) :
    (fill slots (j, a))[i]? =
      slots[i]?.map fun slot => slot.or (if j = i then some a else none) := by
  by_cases h : slots[j]? = some none
  · obtain ⟨hj, _⟩ := List.getElem?_eq_some_iff.mp h
    rw [fill_of_empty h]
    by_cases heq : j = i
    · subst heq
      rw [List.getElem?_set_self hj, h]
      simp
    · rw [List.getElem?_set_ne heq, if_neg heq]
      simp
  · rw [fill_of_not_empty h]
    by_cases heq : j = i
    · subst heq
      cases hslot : slots[j]? with
      | none => rfl
      | some slot =>
        cases slot with
        | none => exact absurd hslot h
        | some b => rfl
    · rw [if_neg heq]
      simp

/-- What a slot holds after all arrivals: what it held, or the first arrival. -/
theorem getElem_fillAll (arrivals : List (Nat × α)) (slots : List (Option α)) (i : Nat) :
    (arrivals.foldl fill slots)[i]? = slots[i]?.map fun slot => slot.or (firstFor i arrivals) := by
  induction arrivals generalizing slots with
  | nil => simp [firstFor]
  | cons arrival arrivals ih =>
    obtain ⟨j, b⟩ := arrival
    have hfirst : firstFor i ((j, b) :: arrivals) =
        (if j = i then some b else none).or (firstFor i arrivals) := by
      unfold firstFor
      rw [List.find?_cons]
      by_cases heq : j = i
      · simp [heq]
      · have hne : (j == i) = false := beq_eq_false_iff_ne.mpr heq
        simp [heq, hne]
    rw [List.foldl_cons, ih, getElem_fill, Option.map_map, hfirst]
    congr 1
    funext slot
    exact Option.or_assoc

/-- All slots are filled when as many are filled as there are. -/
theorem all_filled (h : slots.length ≤ filled slots) (hi : i < slots.length) :
    ∃ a, slots[i]? = some (some a) := by
  have hall := List.countP_eq_length.mp (Nat.le_antisymm List.countP_le_length h)
  have hsome := hall slots[i] (List.getElem_mem hi)
  obtain ⟨a, ha⟩ := Option.isSome_iff_exists.mp hsome
  exact ⟨a, by rw [List.getElem?_eq_getElem hi, ha]⟩

/-- The content of the slots, when all are filled. -/
def contents : List (Option α) → Option (List α)
  | [] => some []
  | none :: _ => none
  | some a :: slots => (contents slots).map (a :: ·)

theorem contents_eq_some {as : List α} : contents slots = some as ↔ slots = as.map some := by
  induction slots generalizing as with
  | nil =>
    cases as <;> simp [contents]
  | cons slot slots ih =>
    cases slot with
    | none => cases as <;> simp [contents]
    | some b =>
      rw [contents, Option.map_eq_some_iff]
      constructor
      · rintro ⟨bs, hbs, rfl⟩
        rw [List.map_cons, ih.mp hbs]
      · intro h
        cases as with
        | nil => cases h
        | cons c as =>
          rw [List.map_cons, List.cons.injEq] at h
          obtain ⟨hhead, htail⟩ := h
          cases hhead
          exact ⟨as, ih.mpr htail, rfl⟩

end Blocks
