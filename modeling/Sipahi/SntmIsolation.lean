import Sipahi.KernelLoader
import Sipahi.RiscvPmp
import Sipahi.SntmAcceptance

/-!
# Regions of an accepted manifest

Where the regions lie in memory, what the hardware makes of their encoding, and how they stand to
the kernel image.
-/
namespace SntmIsolation

open KernelTypes SntmManifest SntmAcceptance SntmCodegen RiscvPmp

/-! ## Aligned regions -/

theorem validNapotAlignment_pow {base size : ℕ} (h : validNapotAlignment base size = true) :
    ∃ k, 3 ≤ k ∧ size = 2 ^ k ∧ 2 ^ k ∣ base := by
  rw [validNapotAlignment] at h
  split at h
  · cases h
  · rename_i hlarge
    split at h
    · cases h
    · rename_i hpower
      have hand : size &&& (size - 1) = 0 := by omega
      obtain ⟨k, rfl⟩ := (Nat.and_sub_one_eq_zero_iff_isPowerOfTwo (by omega)).mp hand
      refine ⟨k, ?_, rfl, ?_⟩
      · by_contra hk
        have hsmall : k ≤ 2 := by omega
        have hle : 2 ^ k ≤ 2 ^ 2 := Nat.pow_le_pow_right (by decide) hsmall
        omega
      · rw [beq_iff_eq, Nat.and_two_pow_sub_one_eq_mod] at h
        exact Nat.dvd_of_mod_eq_zero h

theorem napotSizeLog2_pow {base k : ℕ} (hk : 3 ≤ k) (hbase : 2 ^ k ∣ base) :
    napotSizeLog2 base (2 ^ k) = some k := by
  have hlarge : ¬ 2 ^ k < 8 := by
    have hle : 2 ^ 3 ≤ 2 ^ k := Nat.pow_le_pow_right (by decide) hk
    omega
  have hpower : 2 ^ k &&& (2 ^ k - 1) = 0 := by
    rw [Nat.and_two_pow_sub_one_eq_mod, Nat.mod_self]
  have haligned : base &&& (2 ^ k - 1) = 0 := by
    rw [Nat.and_two_pow_sub_one_eq_mod]
    exact Nat.mod_eq_zero_of_dvd hbase
  simp [napotSizeLog2, hlarge, hpower, haligned, Nat.log2_two_pow]

/-- What the code generator and the hardware see of an aligned region. -/
structure Encoded (r : RegionEntry) (k : ℕ) : Prop where
  large : 3 ≤ k
  size_eq : r.size = 2 ^ k
  aligned : 2 ^ k ∣ r.base
  log2_eq : napotSizeLog2 r.base r.size = some k

theorem encoded_of_valid {r : RegionEntry} (h : validNapotAlignment r.base r.size = true) :
    ∃ k, Encoded r k := by
  obtain ⟨k, hk, hsize, hbase⟩ := validNapotAlignment_pow h
  refine ⟨k, hk, hsize, hbase, ?_⟩
  rw [hsize]
  exact napotSizeLog2_pow hk hbase

theorem Encoded.size_ge {r : RegionEntry} {k : ℕ} (h : Encoded r k) : 8 ≤ r.size := by
  have hle : 2 ^ 3 ≤ 2 ^ k := Nat.pow_le_pow_right (by decide) h.large
  rw [h.size_eq]
  omega

theorem Encoded.base_mod {r : RegionEntry} {k : ℕ} (h : Encoded r k) : r.base % 8 = 0 := by
  have hdvd : 2 ^ 3 ∣ r.base := (Nat.pow_dvd_pow 2 h.large).trans h.aligned
  omega

theorem Encoded.napotRange_eq {r : RegionEntry} {k : ℕ} (h : Encoded r k)
    (hbelow : r.base + r.size ≤ 2 ^ 56) :
    napotRange (napotPmpaddr r.base k) = (r.base, r.size) := by
  have hmax : k ≤ 56 := by
    apply (Nat.pow_le_pow_iff_right (a := 2) (by decide)).mp
    rw [← h.size_eq]
    omega
  rw [napotPmpaddr, Nat.one_shiftLeft, napotRange_encode h.large hmax h.aligned, h.size_eq]

/-- Both ends may saturate, but no aligned region starts at the last address. -/
theorem apart_of_not_overlaps {a b : RegionEntry} {k l : ℕ} (ha : Encoded a k) (hb : Encoded b l)
    (h : a.overlaps b = false) : a.base + a.size ≤ b.base ∨ b.base + b.size ≤ a.base := by
  have hasize := ha.size_ge
  have hbsize := hb.size_ge
  have habase := ha.base_mod
  have hbbase := hb.base_mod
  have hale := a.base_le
  have hble := b.base_le
  have hnonzero : ¬ (a.size = 0 ∨ b.size = 0) := by omega
  rw [RegionEntry.overlaps, regionsOverlap, if_neg hnonzero] at h
  rw [Bool.not_eq_false', Bool.or_eq_true, decide_eq_true_eq, decide_eq_true_eq] at h
  simp only [saturatingAdd, usizeMax] at h hale hble
  omega

theorem Accepted.encoded {m : Manifest} (h : Accepted m) {t : TaskEntry} (ht : t ∈ m.tasks)
    {r : RegionEntry} (hr : r ∈ t.regions) : ∃ k, Encoded r k :=
  encoded_of_valid (h.aligned t ht r hr)

/-- No two region entries share an address, whichever tasks they belong to. -/
theorem Accepted.apart {m : Manifest} (h : Accepted m) :
    (m.tasks.flatMap TaskEntry.regions).Pairwise fun a b =>
      a.base + a.size ≤ b.base ∨ b.base + b.size ≤ a.base := by
  apply List.pairwise_flatMap.mpr
  constructor
  · intro t ht
    apply (h.intraTask t ht).imp_of_mem
    intro a b ha hb hno
    obtain ⟨k, hk⟩ := Accepted.encoded h ht ha
    obtain ⟨l, hl⟩ := Accepted.encoded h ht hb
    exact apart_of_not_overlaps hk hl hno
  · apply h.crossTask.imp_of_mem
    intro ta tb hta htb hno a ha b hb
    obtain ⟨k, hk⟩ := Accepted.encoded h hta ha
    obtain ⟨l, hl⟩ := Accepted.encoded h htb hb
    exact apart_of_not_overlaps hk hl (hno a ha b hb)

/-! ## The ranges the hardware decodes -/

/-- The range that the generated `pmpaddr` value of a region denotes. -/
def decodedRange (r : RegionEntry) : Option (ℕ × ℕ) :=
  (napotSizeLog2 r.base r.size).map fun k => napotRange (napotPmpaddr r.base k)

/-- The address lies in the range, given as base and size. -/
def InRange (a : ℕ) (range : Option (ℕ × ℕ)) : Prop :=
  ∃ base size, range = some (base, size) ∧ base ≤ a ∧ a < base + size

theorem decodedRange_eq {r : RegionEntry} {k : ℕ} (h : Encoded r k)
    (hbelow : r.base + r.size ≤ 2 ^ 56) : decodedRange r = some (r.base, r.size) := by
  rw [decodedRange, h.log2_eq, Option.map_some, h.napotRange_eq hbelow]

theorem hardware_regions_disjoint (m : Manifest) (host : Option Host)
    (hok : validateAll m host = .ok ())
    (hbelow : ∀ t ∈ m.tasks, ∀ r ∈ t.regions, r.base + r.size ≤ 2 ^ 56) :
    (∀ t ∈ m.tasks, ∀ r ∈ t.regions, decodedRange r = some (r.base, r.size)) ∧
      (m.tasks.flatMap TaskEntry.regions).Pairwise fun a b =>
        ∀ x, ¬ (InRange x (decodedRange a) ∧ InRange x (decodedRange b)) := by
  have haccepted := accepted_of_validateAll hok
  have hdecoded : ∀ t ∈ m.tasks, ∀ r ∈ t.regions, decodedRange r = some (r.base, r.size) := by
    intro t ht r hr
    obtain ⟨k, hk⟩ := Accepted.encoded haccepted ht hr
    exact decodedRange_eq hk (hbelow t ht r hr)
  refine ⟨hdecoded, ?_⟩
  apply (Accepted.apart haccepted).imp_of_mem
  intro a b ha hb hapart x
  obtain ⟨ta, hta, ha⟩ := List.mem_flatMap.mp ha
  obtain ⟨tb, htb, hb⟩ := List.mem_flatMap.mp hb
  rw [hdecoded ta hta a ha, hdecoded tb htb b hb]
  rintro ⟨⟨_, _, hra, hxa⟩, ⟨_, _, hrb, hxb⟩⟩
  cases hra
  cases hrb
  omega

theorem sipahiToml_regions_disjoint :
    (∀ t ∈ sipahiToml.tasks, ∀ r ∈ t.regions, decodedRange r = some (r.base, r.size)) ∧
      (sipahiToml.tasks.flatMap TaskEntry.regions).Pairwise fun a b =>
        ∀ x, ¬ (InRange x (decodedRange a) ∧ InRange x (decodedRange b)) :=
  hardware_regions_disjoint sipahiToml (some workspaceHost) sipahiToml_accepted (by decide)

/-! ## The kernel image -/

/-- The region holds an address of the kernel image that `reserved_size` does not cover. -/
def MeetsUncovered (m : Manifest) (r : RegionEntry) : Prop :=
  ∃ a, r.base ≤ a ∧ a < r.base + r.size ∧ kernelBase + m.reservedSize ≤ a ∧
    a < KernelLoader.kernelBase + KernelLoader.kernelSize

theorem safe_iff_of_accepted {m : Manifest} {r : RegionEntry} {k : ℕ} (hr : Encoded r k)
    (hkernel : regionsOverlap r.base r.size kernelBase m.reservedSize = false) :
    KernelLoader.isSafeLoadDst r.base r.size = true ↔
      r.base + r.size < 2 ^ 64 ∧ ¬ MeetsUncovered m r := by
  have hsize := hr.size_ge
  have hbase := r.base_le
  have hclear : m.reservedSize = 0 ∨ saturatingAdd r.base r.size ≤ kernelBase ∨
      saturatingAdd kernelBase m.reservedSize ≤ r.base := by
    by_cases hzero : m.reservedSize = 0
    · exact .inl hzero
    · rw [regionsOverlap, if_neg (by omega), Bool.not_eq_false', Bool.or_eq_true,
        decide_eq_true_eq, decide_eq_true_eq] at hkernel
      exact .inr hkernel
  rw [KernelLoader.isSafeLoadDst_iff (by omega)]
  simp only [saturatingAdd, usizeMax, kernelBase] at hclear hbase
  simp only [MeetsUncovered, KernelLoader.kernelBase, KernelLoader.kernelSize, kernelBase]
  constructor
  · rintro ⟨hfits, hdisjoint⟩
    refine ⟨hfits, ?_⟩
    rintro ⟨a, hlow, hhigh, hgap, hend⟩
    omega
  · rintro ⟨hfits, hgap⟩
    refine ⟨hfits, ?_⟩
    by_contra hmeets
    apply hgap
    -- the first address that both the region and the uncovered part have reached
    refine ⟨max r.base (0x80000000 + m.reservedSize), ?_, ?_, ?_, ?_⟩ <;> omega

/-- The validator guards only the first `reserved_size` bytes of the kernel image. -/
theorem tasks_outside_kernel_iff (m : Manifest) (host : Option Host)
    (hok : validateAll m host = .ok ()) :
    (∀ t ∈ m.tasks, ∀ r ∈ t.regions, KernelLoader.isSafeLoadDst r.base r.size = true) ↔
      ∀ t ∈ m.tasks, ∀ r ∈ t.regions, r.base + r.size < 2 ^ 64 ∧ ¬ MeetsUncovered m r := by
  have haccepted := accepted_of_validateAll hok
  have hregion : ∀ t ∈ m.tasks, ∀ r ∈ t.regions,
      (KernelLoader.isSafeLoadDst r.base r.size = true ↔
        r.base + r.size < 2 ^ 64 ∧ ¬ MeetsUncovered m r) := by
    intro t ht r hr
    obtain ⟨k, hk⟩ := Accepted.encoded haccepted ht hr
    exact safe_iff_of_accepted hk (haccepted.kernel t ht r hr)
  constructor
  · intro hsafe t ht r hr
    exact (hregion t ht r hr).mp (hsafe t ht r hr)
  · intro hgap t ht r hr
    exact (hregion t ht r hr).mpr (hgap t ht r hr)

theorem taskHello_stack_outside_kernel :
    KernelLoader.isSafeLoadDst 0x80610000 0x2000 = true := by
  have hsafe := (tasks_outside_kernel_iff sipahiToml (some workspaceHost) sipahiToml_accepted).mpr
  refine hsafe ?_ taskHello (by decide) ⟨"stack", 0x80610000, 0x2000, "RW", by decide, by decide⟩
    (by decide)
  intro t ht r hr
  have hfar : r.base + r.size < 2 ^ 64 ∧ 0x80600000 ≤ r.base := by
    revert r t
    decide
  refine ⟨hfar.1, ?_⟩
  rintro ⟨a, hlow, _, _, hend⟩
  simp only [KernelLoader.kernelBase, KernelLoader.kernelSize] at hend
  omega

/-- One megabyte reserved, as an older kernel needed, and a task placed right behind it. -/
def staleReserve : Manifest where
  reservedSize := 0x100000
  pmpEntries := 16
  tasks := [{
    name := "task_hello"
    taskId := 2
    taskId_le := taskHello.taskId_le
    dalLevel := "D"
    regions := [{ name := "text", base := 0x80100000, size := 0x8000, perm := "RX" }] }]

theorem stale_reserve_overlaps_kernel :
    ¬ ∀ (m : Manifest) (host : Option Host), validateAll m host = .ok () →
      ∀ t ∈ m.tasks, ∀ r ∈ t.regions, KernelLoader.isSafeLoadDst r.base r.size = true := by
  intro hall
  have hok : validateAll staleReserve (some workspaceHost) = .ok () := by decide +kernel
  have hsafe : ∀ t ∈ staleReserve.tasks, ∀ r ∈ t.regions,
      KernelLoader.isSafeLoadDst r.base r.size = true := hall staleReserve _ hok
  revert hsafe
  decide

end SntmIsolation
