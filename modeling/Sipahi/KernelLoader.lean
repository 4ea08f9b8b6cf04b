import Sipahi.KernelTypes

/-! # Where the loader may write -/
namespace KernelLoader

open KernelTypes

def kernelBase : ℕ := 0x80000000

/-- Kernel, stacks and WASM arena with a margin: 6 MiB. -/
def kernelSize : ℕ := 0x600000

def isSafeLoadDst (dst size : ℕ) : Bool :=
  if size = 0 then false
  else match checkedAdd dst size with
    | none => false
    | some dstEnd =>
      match checkedAdd kernelBase kernelSize with
      | none => false
      | some kernelEnd => decide (dstEnd ≤ kernelBase) || decide (kernelEnd ≤ dst)

theorem isSafeLoadDst_iff {dst size : ℕ} (hsize : 0 < size) :
    isSafeLoadDst dst size = true ↔
      dst + size < 2 ^ 64 ∧ (dst + size ≤ kernelBase ∨ kernelBase + kernelSize ≤ dst) := by
  have hkernel : checkedAdd kernelBase kernelSize = some (kernelBase + kernelSize) := by decide
  have hne : size ≠ 0 := by omega
  by_cases hfits : dst + size ≤ usizeMax
  · have hadd : checkedAdd dst size = some (dst + size) := if_pos hfits
    rw [usizeMax] at hfits
    simp only [isSafeLoadDst, if_neg hne, hadd, hkernel, Bool.or_eq_true, decide_eq_true_eq]
    omega
  · have hadd : checkedAdd dst size = none := if_neg hfits
    rw [usizeMax] at hfits
    simp only [isSafeLoadDst, if_neg hne, hadd, Bool.false_eq_true, false_iff]
    omega

end KernelLoader
