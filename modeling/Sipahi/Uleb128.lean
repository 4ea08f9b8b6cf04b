import Mathlib.Algebra.Order.Ring.Nat
import Mathlib.Tactic.Ring

/-!
# Unsigned LEB128

Seven bits a byte, lowest first; every byte but the last has its high bit set.
-/
namespace Uleb128

/-- The shortest encoding. -/
def encode (n : ℕ) : List UInt8 :=
  if n < 128 then [UInt8.ofNat n] else UInt8.ofNat (n % 128 + 128) :: encode (n / 128)
termination_by n
decreasing_by omega

/-- The number that the low bits of the bytes make up. -/
def value : List UInt8 → ℕ
  | [] => 0
  | b :: rest => b.toNat % 128 + 128 * value rest

/-- The last byte, and no other, has its high bit clear. -/
def IsNumber : List UInt8 → Prop
  | [] => False
  | b :: rest => (b.toNat < 128 ∧ rest = []) ∨ (128 ≤ b.toNat ∧ IsNumber rest)

theorem isNumber_encode (n : ℕ) : IsNumber (encode n) := by
  induction n using Nat.strongRecOn with
  | ind n ih =>
    rw [encode]
    split
    · rename_i hsmall
      have hbyte : (UInt8.ofNat n).toNat = n % 2 ^ 8 := UInt8.toNat_ofNat'
      exact Or.inl ⟨by omega, rfl⟩
    · rename_i hlarge
      have hbyte : (UInt8.ofNat (n % 128 + 128)).toNat = (n % 128 + 128) % 2 ^ 8 :=
        UInt8.toNat_ofNat'
      exact Or.inr ⟨by omega, ih (n / 128) (by omega)⟩

theorem value_encode (n : ℕ) : value (encode n) = n := by
  induction n using Nat.strongRecOn with
  | ind n ih =>
    rw [encode]
    split
    · rename_i hsmall
      simp only [value, UInt8.toNat_ofNat']
      omega
    · rename_i hlarge
      rw [value, ih (n / 128) (by omega), UInt8.toNat_ofNat']
      omega

theorem length_encode_le {k n : ℕ} (h : n < 128 ^ (k + 1)) : (encode n).length ≤ k + 1 := by
  induction k generalizing n with
  | zero =>
    rw [encode, if_pos (by omega)]
    exact le_rfl
  | succ k ih =>
    rw [encode]
    split
    · exact Nat.succ_le_succ (Nat.zero_le _)
    · have hrest : n / 128 < 128 ^ (k + 1) := by
        rw [Nat.div_lt_iff_lt_mul (by decide), ← pow_succ]
        exact h
      exact Nat.succ_le_succ (ih hrest)

/-! ## Shifts and masks -/

theorem payload_eq (b : UInt8) : b.toNat &&& 0x7F = b.toNat % 128 := Nat.and_two_pow_sub_one_eq_mod _ 7

theorem highBit_eq_zero (b : UInt8) : b.toNat &&& 0x80 = 0 ↔ b.toNat < 128 := by
  have hbytes : ∀ n : Fin 256, n.val &&& 0x80 = 0 ↔ n.val < 128 := by decide +kernel
  exact hbytes ⟨b.toNat, b.toNat_lt⟩

/-- Bits above all those of a number are added to it. -/
theorem or_shiftLeft {v shift : ℕ} (hv : v < 2 ^ shift) (n : ℕ) :
    v ||| (n <<< shift) = v + 2 ^ shift * n := by
  rw [Nat.shiftLeft_eq, Nat.mul_comm n, Nat.or_comm, ← Nat.two_pow_add_eq_or_of_lt hv, Nat.add_comm]

end Uleb128
