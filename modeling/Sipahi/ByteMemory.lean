import Mathlib.Algebra.Order.Ring.Nat
import Mathlib.Data.List.Basic
import Mathlib.Data.List.GetD

/-!
# Byte areas in a memory

Slices of a memory, stores of byte strings and sequences of stores to areas that do not meet.
-/
namespace ByteMemory

abbrev Memory := ℕ → UInt8

def slice (m : Memory) (base size : ℕ) : List UInt8 := (List.range size).map fun k => m (base + k)

def store (m : Memory) (base : ℕ) (bytes : List UInt8) : Memory := fun a =>
  if base ≤ a ∧ a < base + bytes.length then bytes.getD (a - base) 0 else m a

/-- A byte string and where it goes. -/
structure Area where
  base : ℕ
  bytes : List UInt8

def Area.Covers (r : Area) (a : ℕ) : Prop := r.base ≤ a ∧ a < r.base + r.bytes.length

def Area.Apart (r r' : Area) : Prop := ∀ a, r.Covers a → ¬ r'.Covers a

def storeAll (m : Memory) (areas : List Area) : Memory :=
  areas.foldl (fun m r => store m r.base r.bytes) m

@[simp] theorem length_slice (m : Memory) (base size : ℕ) : (slice m base size).length = size := by
  simp [slice]

theorem store_inside (m : Memory) {base k : ℕ} {bytes : List UInt8} (hk : k < bytes.length) :
    store m base bytes (base + k) = bytes.getD k 0 := by
  rw [store, if_pos (by omega), Nat.add_sub_cancel_left]

theorem store_outside (m : Memory) {base a : ℕ} {bytes : List UInt8}
    (ha : ¬ Area.Covers ⟨base, bytes⟩ a) : store m base bytes a = m a := if_neg ha

@[simp] theorem slice_store (m : Memory) (base : ℕ) (bytes : List UInt8) :
    slice (store m base bytes) base bytes.length = bytes := by
  apply List.ext_getElem
  · simp
  · intro k _ hk
    simp only [slice, List.getElem_map, List.getElem_range]
    rw [store_inside m hk, List.getD_eq_getElem _ _ hk]

@[simp] theorem store_store (m : Memory) (base : ℕ) {bytes bytes' : List UInt8}
    (hlength : bytes.length = bytes'.length) :
    store (store m base bytes) base bytes' = store m base bytes' := by
  funext a
  by_cases ha : Area.Covers ⟨base, bytes'⟩ a
  · obtain ⟨k, rfl⟩ := Nat.exists_eq_add_of_le ha.1
    have hk : k < bytes'.length := Nat.lt_of_add_lt_add_left ha.2
    rw [store_inside _ hk, store_inside _ hk]
  · rw [store_outside _ ha, store_outside _ ha, store_outside]
    rwa [Area.Covers, hlength]

theorem storeAll_append (m : Memory) (areas areas' : List Area) :
    storeAll m (areas ++ areas') = storeAll (storeAll m areas) areas' := List.foldl_append

/-- What no area covers stays as it was. -/
theorem storeAll_outside {m : Memory} {areas : List Area} {a : ℕ}
    (h : ∀ r ∈ areas, ¬ r.Covers a) : storeAll m areas a = m a := by
  induction areas generalizing m with
  | nil => rfl
  | cons r areas ih =>
    have hrest := ih (m := store m r.base r.bytes) fun r' hr => h r' (List.mem_cons_of_mem r hr)
    exact hrest.trans (store_outside m (h r List.mem_cons_self))

/-- Each of several areas apart from one another holds its bytes in the end. -/
theorem storeAll_inside {m : Memory} {areas : List Area} (hapart : areas.Pairwise Area.Apart)
    {r : Area} (hr : r ∈ areas) {k : ℕ} (hk : k < r.bytes.length) :
    storeAll m areas (r.base + k) = r.bytes.getD k 0 := by
  induction areas generalizing m with
  | nil => cases hr
  | cons first areas ih =>
    rw [List.pairwise_cons] at hapart
    rcases List.mem_cons.mp hr with rfl | hr
    · have hcovered : r.Covers (r.base + k) := ⟨Nat.le_add_right _ _, Nat.add_lt_add_left hk _⟩
      have hrest : ∀ r' ∈ areas, ¬ r'.Covers (r.base + k) := by
        intro r' hr'
        exact hapart.1 r' hr' _ hcovered
      exact (storeAll_outside hrest).trans (store_inside m hk)
    · exact ih hapart.2 hr

end ByteMemory
