import Mathlib.Data.List.Basic
import Mathlib.Logic.Function.Basic

/-!
# Files that survive a power failure

A directory on a volume. A file keeps its content through a power failure once it is synced, and a
name keeps its entry once the directory is; before that, the failure may bring back any entry that
the name had since, each name for itself. A new file that is synced before it takes a name over
replaces the old one as a whole.
-/

namespace Durable

structure File (C : Type*) where
  content : C
  synced : Bool

/-- A directory and its files. -/
structure Volume (N C : Type*) where
  file : Nat → File C
  /-- The number of the next file. -/
  next : Nat
  entry : N → Option Nat
  /-- The entries that a power failure may leave of a name. -/
  onDisk : N → List (Option Nat)
  entry_mem : ∀ n, entry n ∈ onDisk n
  lt_next : ∀ n i, some i ∈ onDisk n → i < next

namespace Volume

variable {N C : Type*}

/-- A directory without entries, which is on disk. -/
def empty (content : C) : Volume N C where
  file _ := ⟨content, true⟩
  next := 0
  entry _ := none
  onDisk _ := [none]
  entry_mem _ := List.mem_cons_self
  lt_next n i h := by simp at h

/-- What is read under a name. -/
def read (v : Volume N C) (n : N) : Option C := (v.entry n).map fun i => (v.file i).content

/-- Another content for a file; it is not on disk yet. -/
def write (v : Volume N C) (i : Nat) (content : C) : Volume N C :=
  { v with file := Function.update v.file i ⟨content, false⟩ }

/-- `fsync` of a file -/
def sync (v : Volume N C) (i : Nat) : Volume N C :=
  { v with file := Function.update v.file i ⟨(v.file i).content, true⟩ }

/-- `fsync` of the directory -/
def syncDirectory (v : Volume N C) : Volume N C :=
  { v with
    onDisk := fun n => [v.entry n]
    entry_mem := fun _ => List.mem_cons_self
    lt_next := fun n i h => v.lt_next n i (by rw [List.mem_singleton.mp h]; exact v.entry_mem n) }

/-- What a power failure leaves. -/
structure PowerLoss (v w : Volume N C) : Prop where
  entry : ∀ n, w.entry n ∈ v.onDisk n
  onDisk : ∀ n, w.onDisk n = [w.entry n]
  file : ∀ i, (v.file i).synced = true → w.file i = v.file i
  synced : ∀ i, (w.file i).synced = true
  next : w.next = v.next

theorem lt_of_entry (v : Volume N C) (n : N) : ∀ i, v.entry n = some i → i < v.next :=
  fun i h => v.lt_next n i (h ▸ v.entry_mem n)

/-- Whatever a power failure leaves under a name is complete and has a property. -/
def Leaves (v : Volume N C) (n : N) (P : Option C → Prop) : Prop :=
  ∀ e ∈ v.onDisk n, (∀ i, e = some i → (v.file i).synced = true) ∧
    P (e.map fun i => (v.file i).content)

/-! ## Files and power failures -/

variable {v w : Volume N C} {n m : N} {P Q : Option C → Prop} {i : Nat} {content : C}

theorem Leaves.read (h : v.Leaves n P) : P (v.read n) := (h _ (v.entry_mem n)).2

theorem Leaves.mono (h : v.Leaves n P) (himp : ∀ c, P c → Q c) : v.Leaves n Q :=
  fun e he => ⟨(h e he).1, himp _ (h e he).2⟩

/-- The name keeps what it may leave when its entries and their files stay. -/
theorem Leaves.congr (h : v.Leaves n P) (hdisk : w.onDisk n = v.onDisk n)
    (hfile : ∀ i, some i ∈ v.onDisk n → w.file i = v.file i) : w.Leaves n P := by
  intro e he
  rw [hdisk] at he
  obtain ⟨hsynced, hp⟩ := h e he
  cases e with
  | none => exact ⟨nofun, hp⟩
  | some j =>
    rw [Option.map_some, hfile j he]
    refine ⟨fun k hk => ?_, hp⟩
    cases hk
    rw [hfile j he]
    exact hsynced j rfl

/-- A file that the name may not lead to may be written. -/
theorem Leaves.write (h : v.Leaves n P) (hi : some i ∉ v.onDisk n) (content : C) :
    (v.write i content).Leaves n P := by
  refine h.congr rfl fun j hj => Function.update_of_ne ?_ _ _
  rintro rfl
  exact hi hj

theorem Leaves.sync (h : v.Leaves n P) (hi : some i ∉ v.onDisk n) : (v.sync i).Leaves n P := by
  refine h.congr rfl fun j hj => Function.update_of_ne ?_ _ _
  rintro rfl
  exact hi hj

/-- A synced directory leaves what is read. -/
theorem Leaves.syncDirectory (h : v.Leaves n P) :
    v.syncDirectory.Leaves n fun c => c = v.read n := by
  intro e he
  rw [List.mem_singleton.mp he]
  exact ⟨(h _ (v.entry_mem n)).1, rfl⟩

theorem Leaves.powerLoss (h : v.Leaves n P) (hloss : PowerLoss v w) : w.Leaves n P := by
  intro e he
  rw [hloss.onDisk, List.mem_singleton] at he
  subst he
  obtain ⟨hsynced, hp⟩ := h _ (hloss.entry n)
  refine ⟨fun i _ => hloss.synced i, ?_⟩
  cases hentry : w.entry n with
  | none => simpa [hentry] using hp
  | some i =>
    rw [hentry] at hsynced hp
    rw [Option.map_some, hloss.file i (hsynced i rfl)]
    exact hp

theorem read_write (h : v.entry n ≠ some i) : (v.write i content).read n = v.read n := by
  unfold Volume.read Volume.write
  cases hentry : v.entry n with
  | none => rfl
  | some j =>
    have hne : j ≠ i := fun heq => h (heq ▸ hentry)
    simp only [Option.map_some, Function.update_of_ne hne]

@[simp] theorem read_sync : (v.sync i).read n = v.read n := by
  unfold Volume.read Volume.sync
  cases v.entry n with
  | none => rfl
  | some j => by_cases hj : j = i <;> simp [Function.update_apply, hj]

@[simp] theorem read_syncDirectory : v.syncDirectory.read n = v.read n := rfl

/-! ## Entries -/

section Entries

variable [DecidableEq N]

/-- An entry of an existing file, or none, for a name. -/
def link (v : Volume N C) (n : N) (e : Option Nat) (h : ∀ i, e = some i → i < v.next) :
    Volume N C where
  file := v.file
  next := v.next
  entry := Function.update v.entry n e
  onDisk := Function.update v.onDisk n (e :: v.onDisk n)
  entry_mem m := by
    by_cases hm : m = n
    · subst hm
      simp
    · simpa [hm] using v.entry_mem m
  lt_next m i hi := by
    by_cases hm : m = n
    · subst hm
      rw [Function.update_self, List.mem_cons] at hi
      rcases hi with hi | hi
      · exact h i hi.symm
      · exact v.lt_next m i hi
    · rw [Function.update_of_ne hm] at hi
      exact v.lt_next m i hi

/-- `unlink` -/
def unlink (v : Volume N C) (n : N) : Volume N C := v.link n none nofun

/-- `rename` over what there is under the other name. -/
def rename (v : Volume N C) (n m : N) : Volume N C :=
  (v.link m (v.entry n) (v.lt_of_entry n)).unlink n

/-- `open` with `O_CREAT` and `O_EXCL`; the number of the file is `v.next`. -/
def create (v : Volume N C) (n : N) (content : C) : Volume N C :=
  { v with
    file := Function.update v.file v.next ⟨content, false⟩
    next := v.next + 1
    lt_next := fun m i h => Nat.lt_succ_of_lt (v.lt_next m i h) : Volume N C }.link n (some v.next)
      fun i h => by
        cases h
        exact Nat.lt_succ_self _

theorem Leaves.link (h : v.Leaves n P) (hm : m ≠ n) (e : Option Nat)
    (he : ∀ i, e = some i → i < v.next) : (v.link m e he).Leaves n P :=
  h.congr (Function.update_of_ne hm.symm _ _) fun _ _ => rfl

theorem Leaves.unlink (h : v.Leaves n P) (hm : m ≠ n) : (v.unlink m).Leaves n P :=
  h.link hm none nofun

theorem Leaves.create (h : v.Leaves n P) (hm : m ≠ n) (content : C) :
    (v.create m content).Leaves n P := by
  refine h.congr (Function.update_of_ne hm.symm _ _) fun j hj => Function.update_of_ne ?_ _ _
  have hlt := v.lt_next n j hj
  omega

/-- A synced file takes the name over: either it is there or what was there before. -/
theorem Leaves.rename (h : v.Leaves n P) (hm : m ≠ n) (hentry : v.entry m = some i)
    (hsynced : (v.file i).synced = true) (hp : P (some (v.file i).content)) :
    (v.rename m n).Leaves n P := by
  refine Leaves.unlink (fun e he => ?_) hm
  have hmem : e ∈ v.entry m :: v.onDisk n := by simpa [Volume.link] using he
  show (∀ i, e = some i → (v.file i).synced = true) ∧ P (e.map fun i => (v.file i).content)
  rcases List.mem_cons.mp hmem with hnew | hold
  · rw [hnew, hentry]
    refine ⟨fun j hj => ?_, hp⟩
    cases hj
    exact hsynced
  · exact h e hold

theorem read_unlink (h : m ≠ n) : (v.unlink m).read n = v.read n := by
  unfold Volume.read Volume.unlink Volume.link
  simp only [Function.update_of_ne h.symm]

theorem read_create (h : m ≠ n) : (v.create m content).read n = v.read n := by
  unfold Volume.read Volume.create Volume.link
  simp only [Function.update_of_ne h.symm]
  cases hentry : v.entry n with
  | none => rfl
  | some j =>
    have hlt := v.lt_of_entry n j hentry
    have hne : j ≠ v.next := by omega
    simp only [Option.map_some, Function.update_of_ne hne]

theorem read_rename (h : m ≠ n) : (v.rename m n).read n = v.read m := by
  rw [Volume.rename, read_unlink h]
  unfold Volume.read Volume.link
  simp only [Function.update_self]

end Entries

end Volume

end Durable
