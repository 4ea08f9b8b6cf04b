import Mathlib.Algebra.Order.Ring.Nat
import Mathlib.Algebra.Order.Group.Nat
import Mathlib.Data.Nat.ModEq

/-!
# Sizes and alignments of C structures

The layout algorithm of `repr(C)`: fields in order, each at the next multiple of its alignment,
the whole rounded up to the largest alignment.
-/
namespace StructLayout

/-- The next multiple of `a`. -/
def roundUp (n a : ℕ) : ℕ := n + (a - n % a) % a

theorem dvd_roundUp (n : ℕ) {a : ℕ} (ha : 0 < a) : a ∣ roundUp n a := by
  have hlt := Nat.mod_lt n ha
  apply Nat.dvd_of_mod_eq_zero
  rw [roundUp, Nat.add_mod_mod, ← Nat.mod_add_mod, Nat.add_sub_cancel' hlt.le, Nat.mod_self]

theorem roundUp_eq_self {n a : ℕ} (ha : 0 < a) : roundUp n a = n ↔ a ∣ n := by
  constructor
  · intro h
    rw [← h]
    exact dvd_roundUp n ha
  · intro h
    rw [roundUp, Nat.mod_eq_zero_of_dvd h, Nat.sub_zero, Nat.mod_self, Nat.add_zero]

/-- A size is a multiple of the alignment. -/
structure Layout where
  size : ℕ
  align : ℕ
  align_pos : 0 < align
  align_dvd : align ∣ size

def Layout.byte : Layout := ⟨1, 1, one_pos, one_dvd 1⟩

def Layout.array (elem : Layout) (n : ℕ) : Layout :=
  ⟨n * elem.size, elem.align, elem.align_pos, elem.align_dvd.mul_left n⟩

/-- The alignment of a structure that asks for at least `minimum`. -/
def structAlign (fields : List Layout) (minimum : ℕ) : ℕ :=
  fields.foldl (fun a f => max a f.align) minimum

/-- Where the last field ends. -/
def structEnd (fields : List Layout) : ℕ :=
  fields.foldl (fun offset f => roundUp offset f.align + f.size) 0

theorem le_structAlign (fields : List Layout) (minimum : ℕ) :
    minimum ≤ structAlign fields minimum := by
  induction fields generalizing minimum with
  | nil => exact le_rfl
  | cons f fields ih => exact (le_max_left _ _).trans (ih _)

/-- `repr(C, align(minimum))`; plain `repr(C)` asks for one. -/
def Layout.reprC (fields : List Layout) (minimum : ℕ) [NeZero minimum] : Layout where
  size := roundUp (structEnd fields) (structAlign fields minimum)
  align := structAlign fields minimum
  align_pos := (NeZero.pos minimum).trans_le (le_structAlign fields minimum)
  align_dvd := dvd_roundUp _ ((NeZero.pos minimum).trans_le (le_structAlign fields minimum))

variable (n minimum : ℕ) [NeZero minimum]

theorem align_reprC_bytes : (Layout.reprC [Layout.byte.array n] minimum).align = minimum :=
  max_eq_left (NeZero.pos minimum)

theorem size_reprC_bytes :
    (Layout.reprC [Layout.byte.array n] minimum).size = roundUp n minimum := by
  have hend : structEnd [Layout.byte.array n] = n := by
    simp [structEnd, Layout.array, Layout.byte, roundUp]
  have halign : structAlign [Layout.byte.array n] minimum = minimum := align_reprC_bytes n minimum
  change roundUp (structEnd _) (structAlign _ minimum) = roundUp n minimum
  rw [hend, halign]

end StructLayout
