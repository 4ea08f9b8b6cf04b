import Mathlib.Algebra.Order.Ring.Nat
import Mathlib.Data.List.Basic
import Mathlib.Data.Nat.Bitwise
import Mathlib.Tactic.Ring

/-!
# The RISC-V physical memory protection rule

Entries of an RV64 hart with 4-byte granularity and one-byte accesses. The lowest-numbered entry
that matches decides; a U-mode access that matches none is refused.
-/
namespace RiscvPmp

/-- The low one bits of a register of the given width. -/
def trailingOnes : ℕ → ℕ → ℕ
  | 0, _ => 0
  | w + 1, a => if a % 2 = 1 then trailingOnes w (a / 2) + 1 else 0

/-- An address register holds bits 55 to 2 of an address. -/
def addrBits : ℕ := 54

/-- Base and size of the naturally aligned range that an address register denotes. -/
def napotRange (addr : ℕ) : ℕ × ℕ :=
  let ones := trailingOnes addrBits addr
  (addr / 2 ^ (ones + 1) * 2 ^ (ones + 3), 2 ^ (ones + 3))

/-- A configuration byte with the address register that goes with it. -/
structure Entry where
  cfg : ℕ
  addr : ℕ

/-- `previous` is the address register in front, the lower bound of a TOR entry. -/
def Entry.matches (e : Entry) (previous a : ℕ) : Bool :=
  match e.cfg / 8 % 4 with
  | 0 => false
  | 1 => decide (previous * 4 ≤ a) && decide (a < e.addr * 4)
  | 2 => decide (e.addr * 4 ≤ a) && decide (a < e.addr * 4 + 4)
  | _ => decide ((napotRange e.addr).1 ≤ a) &&
    decide (a < (napotRange e.addr).1 + (napotRange e.addr).2)

def firstMatch (a : ℕ) : ℕ → List Entry → Option Entry
  | _, [] => none
  | previous, e :: es => if e.matches previous a then some e else firstMatch a e.addr es

/-- Bits 0, 1 and 2 of the configuration grant reading, writing and executing. -/
def outcome (bit : ℕ) : Option Entry → Bool
  | some e => e.cfg.testBit bit
  | none => false

def userAllows (bit a : ℕ) (entries : List Entry) : Bool := outcome bit (firstMatch a 0 entries)

/-! ## Encoding naturally aligned ranges -/

theorem trailingOnes_mask (q : ℕ) {j w : ℕ} (hj : j < w) :
    trailingOnes w (q * 2 ^ (j + 1) + (2 ^ j - 1)) = j := by
  induction j generalizing w with
  | zero =>
    cases w with
    | zero => omega
    | succ w =>
      have heven : (q * 2 ^ (0 + 1) + (2 ^ 0 - 1)) % 2 = 0 := by omega
      rw [trailingOnes, if_neg (by omega)]
  | succ j ih =>
    cases w with
    | zero => omega
    | succ w =>
      have hpow : 0 < 2 ^ j := Nat.two_pow_pos j
      have hsplit : q * 2 ^ (j + 1 + 1) + (2 ^ (j + 1) - 1) =
          2 * (q * 2 ^ (j + 1) + (2 ^ j - 1)) + 1 := by
        rw [pow_succ 2 (j + 1), pow_succ 2 j, ← mul_assoc]
        omega
      have hodd : (2 * (q * 2 ^ (j + 1) + (2 ^ j - 1)) + 1) % 2 = 1 := by omega
      have hhalf : (2 * (q * 2 ^ (j + 1) + (2 ^ j - 1)) + 1) / 2 =
          q * 2 ^ (j + 1) + (2 ^ j - 1) := by omega
      rw [hsplit, trailingOnes, if_pos hodd, hhalf, ih (by omega)]

theorem napotRange_encode {base k : ℕ} (hk : 3 ≤ k) (hmax : k ≤ 56) (haligned : 2 ^ k ∣ base) :
    napotRange ((base >>> 2) ||| (2 ^ (k - 3) - 1)) = (base, 2 ^ k) := by
  obtain ⟨j, rfl⟩ : ∃ j, k = j + 3 := ⟨k - 3, by omega⟩
  obtain ⟨q, rfl⟩ := haligned
  have hpow : 0 < 2 ^ j := Nat.two_pow_pos j
  have hmask : 2 ^ j - 1 < 2 ^ (j + 1) := by
    rw [pow_succ]
    omega
  have hshift : (2 ^ (j + 3) * q) >>> 2 = q <<< (j + 1) := by
    rw [Nat.shiftRight_eq_div_pow, Nat.shiftLeft_eq,
      show 2 ^ (j + 3) * q = q * 2 ^ (j + 1) * 2 ^ 2 by ring, Nat.mul_div_cancel _ (by decide)]
  have hor : ((2 ^ (j + 3) * q) >>> 2) ||| (2 ^ (j + 3 - 3) - 1) = q * 2 ^ (j + 1) + (2 ^ j - 1) := by
    rw [hshift, Nat.add_sub_cancel, ← Nat.shiftLeft_add_eq_or_of_lt hmask, Nat.shiftLeft_eq]
  have hones : trailingOnes addrBits (q * 2 ^ (j + 1) + (2 ^ j - 1)) = j := by
    apply trailingOnes_mask
    rw [addrBits]
    omega
  have hdiv : (q * 2 ^ (j + 1) + (2 ^ j - 1)) / 2 ^ (j + 1) = q := by
    rw [mul_comm, Nat.mul_add_div (Nat.two_pow_pos _), Nat.div_eq_of_lt hmask, add_zero]
  rw [hor, napotRange]
  simp only [hones, hdiv, Prod.mk.injEq, and_true]
  ring

/-! ## First match -/

theorem firstMatch_append (a previous : ℕ) {front : List Entry} (back : List Entry)
    (h : firstMatch a previous front = none) :
    ∃ last, firstMatch a previous (front ++ back) = firstMatch a last back := by
  induction front generalizing previous with
  | nil => exact ⟨previous, rfl⟩
  | cons e front ih =>
    rw [firstMatch] at h
    split at h
    · cases h
    · rename_i hno
      obtain ⟨last, hlast⟩ := ih e.addr h
      refine ⟨last, ?_⟩
      rw [List.cons_append, firstMatch, if_neg hno, hlast]

theorem firstMatch_append_some {a previous : ℕ} {front : List Entry} (back : List Entry) {e : Entry}
    (h : firstMatch a previous front = some e) : firstMatch a previous (front ++ back) = some e := by
  induction front generalizing previous with
  | nil => cases h
  | cons f front ih =>
    rw [firstMatch] at h
    rw [List.cons_append, firstMatch]
    split at h
    · rename_i hyes
      rwa [if_pos hyes]
    · rename_i hno
      rw [if_neg hno]
      exact ih h

theorem firstMatch_off {a previous : ℕ} {entries : List Entry}
    (h : ∀ e ∈ entries, e.cfg / 8 % 4 = 0) : firstMatch a previous entries = none := by
  induction entries generalizing previous with
  | nil => rfl
  | cons e entries ih =>
    have hoff : e.matches previous a = false := by simp [Entry.matches, h e (by simp)]
    rw [firstMatch, hoff, if_neg (by simp)]
    exact ih fun f hf => h f (by simp [hf])

theorem matches_napot {e : Entry} (h : e.cfg / 8 % 4 = 3) (previous a : ℕ) :
    e.matches previous a = (decide ((napotRange e.addr).1 ≤ a) &&
      decide (a < (napotRange e.addr).1 + (napotRange e.addr).2)) := by
  simp [Entry.matches, h]

end RiscvPmp
