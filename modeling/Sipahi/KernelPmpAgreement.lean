import Sipahi.KernelTaskInvariants
import Sipahi.RiscvPmp
import Sipahi.SntmProfiles

/-!
# The PMP entries against the pointer checks

The kernel accepts a user pointer by scanning the regions of a profile, or the stack of a legacy
task; the hart decides by the PMP entries. Both must answer alike at every address that the
entries of the kernel itself leave open.
-/
namespace KernelPmpAgreement

open KernelTypes KernelPmp KernelPmpReload KernelState KernelScheduler KernelSyscall KernelTrap
open KernelEvolution KernelSelection KernelBoot KernelTaskInvariants KernelReference
open GuardedExecution RiscvPmp
open SntmManifest SntmAcceptance SntmCodegen SntmIsolation SntmProfiles

/-! ## The entries the hart sees -/

def cfgByte (word i : ℕ) : ℕ := word >>> (i * 8) % 2 ^ 8

theorem low_lt (i : Fin 8) : i.val < 16 := by omega

theorem dyn_lt (i : Fin 8) : 8 + i.val < 16 := by omega

/-- Entries 0 to 7: `pmpcfg0` and `pmpaddr0-7`. -/
def lowEntries (p : Pmp) : List Entry :=
  List.ofFn fun i : Fin 8 => ⟨cfgByte p.cfg0 i.val, p.addr ⟨i.val, low_lt i⟩⟩

/-- Entries 8 to 15: `pmpcfg2` and `pmpaddr8-15`. -/
def dynEntries (p : Pmp) : List Entry :=
  List.ofFn fun i : Fin 8 => ⟨cfgByte p.cfg2 i.val, p.addr ⟨8 + i.val, dyn_lt i⟩⟩

def accessBit : Access → ℕ
  | .read => 0
  | .write => 1
  | .execute => 2

/-- A one-byte access from U-mode. -/
def permitted (p : Pmp) (access : Access) (a : ℕ) : Bool :=
  userAllows (accessBit access) a (lowEntries p ++ dynEntries p)

/-- None of the entries 0 to 7 matches. -/
def Unclaimed (p : Pmp) (a : ℕ) : Prop := firstMatch a 0 (lowEntries p) = none

theorem permitted_unclaimed {p : Pmp} {a : ℕ} (h : Unclaimed p a) (access : Access) :
    ∃ last, permitted p access a =
      outcome (accessBit access) (firstMatch a last (dynEntries p)) := by
  obtain ⟨last, hlast⟩ := firstMatch_append a 0 (dynEntries p) h
  refine ⟨last, ?_⟩
  rw [permitted, userAllows, hlast]

theorem packPmpcfg_byte {c : Fin 8 → ℕ} (hc : ∀ i, c i < 2 ^ 8) (k : Fin 8) :
    cfgByte (packPmpcfg c) k.val = c k := by
  apply Nat.eq_of_testBit_eq
  intro n
  rw [Bool.eq_iff_iff, cfgByte, Nat.testBit_mod_two_pow, Nat.testBit_shiftRight, Bool.and_eq_true,
    decide_eq_true_eq, packPmpcfg_testBit]
  constructor
  · rintro ⟨hn, i, hle, hbit⟩
    -- a byte further down has no bit this high
    have hi : i = k := by
      by_contra hne
      have hlt : i.val < k.val := by
        have hval : i.val ≠ k.val := fun hv => hne (Fin.ext hv)
        omega
      have hhigh : c i < 2 ^ (k.val * 8 + n - i.val * 8) :=
        (hc i).trans_le (Nat.pow_le_pow_right (by decide) (by omega))
      rw [Nat.testBit_lt_two_pow hhigh] at hbit
      cases hbit
    subst i
    rwa [Nat.add_sub_cancel_left] at hbit
  · intro hbit
    have hn : n < 8 := by
      by_contra hge
      have hhigh : c k < 2 ^ n := (hc k).trans_le (Nat.pow_le_pow_right (by decide) (by omega))
      rw [Nat.testBit_lt_two_pow hhigh] at hbit
      cases hbit
    refine ⟨hn, k, by omega, ?_⟩
    rwa [Nat.add_sub_cancel_left]

/-! ## Profiles -/

def toEntry (e : ℕ × ℕ) : Entry := ⟨e.2, e.1⟩

theorem permToCfg_lt (perm : Permission) (mode : ℕ) (hmode : mode = pmpNapot ∨ mode = pmpTor) :
    permToCfg perm ||| mode < 2 ^ 8 := by
  obtain ⟨r, w, x⟩ := perm
  rcases hmode with rfl | rfl <;> revert r w x <;> decide

theorem entries_byte {r : Region} {e : ℕ × ℕ} (h : e ∈ r.entries) : e.2 < 2 ^ 8 := by
  rw [Region.entries] at h
  split at h
  · rw [List.mem_singleton.mp h]
    exact permToCfg_lt r.perm pmpNapot (.inl rfl)
  · rcases List.mem_cons.mp h with rfl | h
    · exact Nat.two_pow_pos 8
    · rw [List.mem_singleton.mp h]
      exact permToCfg_lt r.perm pmpTor (.inr rfl)

theorem ofFn_getD {l : List (ℕ × ℕ)} (hlen : l.length ≤ 8) :
    (List.ofFn fun i : Fin 8 => toEntry (l.getD i.val (0, 0))) =
      l.map toEntry ++ List.replicate (8 - l.length) (toEntry (0, 0)) := by
  apply List.ext_getElem
  · simp
    omega
  · intro i hi _
    rw [List.getElem_ofFn]
    by_cases hin : i < l.length
    · rw [List.getElem_append_left (by simpa using hin), List.getElem_map,
        List.getD_eq_getElem?_getD, List.getElem?_eq_getElem hin]
      rfl
    · rw [List.getElem_append_right (by simpa using hin), List.getElem_replicate,
        List.getD_eq_getElem?_getD, List.getElem?_eq_none (Nat.le_of_not_lt hin)]
      rfl

/-- Whatever was loaded before, the hart sees the entries of the profile and nothing else. -/
theorem dynEntries_reload (p : Pmp) (profile : PmpProfile) :
    dynEntries (p.reloadPmpProfile profile) = profile.dynamicEntries.map toEntry ++
      List.replicate (8 - profile.dynamicEntries.length) (toEntry (0, 0)) := by
  have hlen : profile.dynamicEntries.length ≤ 8 := by
    rw [PmpProfile.dynamicEntries, List.length_take]
    exact Nat.min_le_left _ _
  have hbyte : ∀ i : Fin 8, (profile.dynamicEntries.getD i.val (0, 0)).2 < 2 ^ 8 := by
    intro i
    rw [List.getD_eq_getElem?_getD]
    cases hget : profile.dynamicEntries[i.val]? with
    | none => decide
    | some e =>
      have hmem := List.mem_of_mem_take (List.mem_of_getElem? hget)
      obtain ⟨r, _, he⟩ := List.mem_flatMap.mp hmem
      exact entries_byte he
  rw [← ofFn_getD hlen]
  rw [dynEntries]
  congr 1
  funext i
  have haddr : (p.reloadPmpProfile profile).addr ⟨8 + i.val, dyn_lt i⟩ =
      (profile.dynamicEntries.getD i.val (0, 0)).1 := by
    simp [Pmp.reloadPmpProfile, Pmp.updateDynamicPmpShadow, dynamicAddrs]
  have hcfg : cfgByte (p.reloadPmpProfile profile).cfg2 i.val =
      (profile.dynamicEntries.getD i.val (0, 0)).2 := packPmpcfg_byte hbyte i
  rw [haddr, hcfg]
  rfl

theorem lowEntries_reload (p : Pmp) (profile : PmpProfile) :
    lowEntries (p.reloadPmpProfile profile) = lowEntries p := by
  rw [lowEntries]
  congr 1
  funext i
  have hlow : ¬ 8 ≤ i.val := by omega
  simp [Pmp.reloadPmpProfile, Pmp.updateDynamicPmpShadow, hlow]

/-- The region is one NAPOT entry, which the hart decodes to the same range. -/
def HardwareExact (r : Region) : Prop :=
  ∃ addr sizeLog2, r.encoding = .napot addr sizeLog2 ∧ napotRange addr = (r.base, r.size) ∧
    r.base + r.size ≤ 2 ^ 56

theorem entries_napot {r : Region} (h : HardwareExact r) :
    ∃ addr, r.entries = [(addr, permToCfg r.perm ||| pmpNapot)] ∧
      napotRange addr = (r.base, r.size) := by
  obtain ⟨addr, sizeLog2, hencoding, hrange, _⟩ := h
  refine ⟨addr, ?_, hrange⟩
  rw [Region.entries, hencoding]

/-- The end of such a region does not overflow. -/
theorem HardwareExact.checkedAdd_eq {r : Region} (h : HardwareExact r) :
    checkedAdd r.base r.size = some (r.base + r.size) ∧ r.base + r.size < usizeMax := by
  obtain ⟨_, _, _, _, hbelow⟩ := h
  have hlt : r.base + r.size < usizeMax := by
    rw [usizeMax]
    omega
  exact ⟨if_pos hlt.le, hlt⟩

theorem napot_mode (perm : Permission) : (permToCfg perm ||| pmpNapot) / 8 % 4 = 3 := by
  obtain ⟨r, w, x⟩ := perm
  revert r w x
  decide

theorem napot_bit (perm : Permission) (access : Access) :
    (permToCfg perm ||| pmpNapot).testBit (accessBit access) = access.matches perm := by
  obtain ⟨r, w, x⟩ := perm
  cases access <;> revert r w x <;> decide

/-- First match over the entries and first match over the regions. -/
theorem scan_agrees {regions : List Region} (h : ∀ r ∈ regions, HardwareExact r)
    (unused a previous : ℕ) (access : Access) :
    outcome (accessBit access) (firstMatch a previous ((regions.flatMap Region.entries).map toEntry ++
      List.replicate unused (toEntry (0, 0)))) = regionsAllow a (a + 1) access regions := by
  induction regions generalizing previous with
  | nil =>
    have hoff : firstMatch a previous (List.replicate unused (toEntry (0, 0))) = none := by
      apply firstMatch_off
      intro e he
      rw [List.eq_of_mem_replicate he]
      rfl
    rw [List.flatMap_nil, List.map_nil, List.nil_append, hoff]
    rfl
  | cons r regions ih =>
    obtain ⟨addr, hentries, hrange⟩ := entries_napot (h r (by simp))
    obtain ⟨hend, _⟩ := (h r (by simp)).checkedAdd_eq
    have hmatch : (toEntry (addr, permToCfg r.perm ||| pmpNapot)).matches previous a =
        (decide (r.base ≤ a) && decide (a < r.base + r.size)) := by
      rw [matches_napot (napot_mode r.perm)]
      simp only [toEntry, hrange]
    rw [List.flatMap_cons, hentries, List.singleton_append, List.map_cons, List.cons_append,
      firstMatch, regionsAllow, hend]
    by_cases hin : r.base ≤ a ∧ a < r.base + r.size
    · have hyes : (toEntry (addr, permToCfg r.perm ||| pmpNapot)).matches previous a = true := by
        simp [hmatch, hin]
      have hcheck : r.base ≤ a ∧ a + 1 ≤ r.base + r.size := by omega
      simp only [hyes, if_true, if_pos hcheck]
      exact napot_bit r.perm access
    · have hno : (toEntry (addr, permToCfg r.perm ||| pmpNapot)).matches previous a = false := by
        rw [hmatch, Bool.and_eq_false_iff]
        simp only [decide_eq_false_iff_not]
        omega
      have hcheck : ¬ (r.base ≤ a ∧ a + 1 ≤ r.base + r.size) := by omega
      simp only [hno, Bool.false_eq_true, if_false, if_neg hcheck]
      exact ih (fun q hq => h q (by simp [hq])) _

/-- No address past the last one lies in such a region. -/
theorem regionsAllow_far {regions : List Region} (h : ∀ r ∈ regions, HardwareExact r) {a : ℕ}
    (hfar : usizeMax < a + 1) (access : Access) : regionsAllow a (a + 1) access regions = false := by
  induction regions with
  | nil => rfl
  | cons r regions ih =>
    obtain ⟨hend, hlt⟩ := (h r (by simp)).checkedAdd_eq
    have hcheck : ¬ (r.base ≤ a ∧ a + 1 ≤ r.base + r.size) := by omega
    rw [regionsAllow, hend]
    simp only [if_neg hcheck]
    exact ih fun q hq => h q (by simp [hq])

theorem reload_agrees {profile : PmpProfile} (h : ∀ r ∈ profile.activeRegions, HardwareExact r)
    (p : Pmp) {a : ℕ} (ha : a ≠ 0) (hlow : Unclaimed p a) (access : Access) :
    permitted (p.reloadPmpProfile profile) access a = checkPtrInProfile profile a 1 access := by
  have hall : profile.dynamicEntries = profile.activeRegions.flatMap Region.entries := by
    apply List.take_of_length_le
    have hone : ∀ r ∈ profile.activeRegions, r.entries.length = 1 := by
      intro r hr
      obtain ⟨addr, hentries, _⟩ := entries_napot (h r hr)
      rw [hentries]
      rfl
    rw [List.length_flatMap, List.map_congr_left hone, List.map_const', List.sum_replicate_nat]
    have hsix := profile.length_le
    simp only [maxPmpEntries, pmpDynamicStartEntry]
    omega
  have hunclaimed : Unclaimed (p.reloadPmpProfile profile) a := by
    rw [Unclaimed, lowEntries_reload]
    exact hlow
  obtain ⟨last, hpermitted⟩ := permitted_unclaimed hunclaimed access
  rw [hpermitted, dynEntries_reload, hall, scan_agrees h, checkPtrInProfile, if_neg ha]
  by_cases hfits : a + 1 ≤ usizeMax
  · have hadd : checkedAdd a 1 = some (a + 1) := if_pos hfits
    rw [hadd]
  · have hadd : checkedAdd a 1 = none := if_neg hfits
    rw [hadd, regionsAllow_far h (by omega)]

/-! ## Regions of a manifest -/

theorem hardwareExact_compiled {r : RegionEntry} {k : ℕ} (h : Encoded r k)
    (hbelow : r.base + r.size ≤ 2 ^ 56) : HardwareExact (compiledRegion r) := by
  refine ⟨napotPmpaddr r.base k, k, ?_, h.napotRange_eq hbelow, hbelow⟩
  simp only [compiledRegion, compiledEncoding, h.log2_eq]

/-- The profile of a slot: a task's regions or nothing. -/
theorem hardwareExact_slot {m : Manifest} (h : Accepted m)
    (hbelow : ∀ t ∈ m.tasks, ∀ r ∈ t.regions, r.base + r.size ≤ 2 ^ 56) (i : TaskIndex) :
    ∀ r ∈ (slotProfile m i).activeRegions, HardwareExact r := by
  intro r hr
  by_cases hslot : ∃ t ∈ m.tasks, t.taskId = i.val
  · obtain ⟨t, ht, hid⟩ := hslot
    rw [slotProfile_of_mem h ht hid.symm] at hr
    obtain ⟨entry, hentry, rfl⟩ := List.mem_map.mp hr
    obtain ⟨k, hk⟩ := Accepted.encoded h ht hentry
    exact hardwareExact_compiled hk (hbelow t ht entry hentry)
  · rw [slotProfile_empty fun t ht hid => hslot ⟨t, ht, hid⟩] at hr
    cases hr

/-! ## Legacy tasks -/

/-- The stack of a legacy task as a region of one entry. -/
def stackRegion (base addr : ℕ) : Region := ⟨base, taskStackSize, .napot addr 13, .RW⟩

theorem dynEntries_napot (p : Pmp) (base addr : ℕ) :
    dynEntries (p.writePerTaskNapot addr pmpNapotRw) =
      ([stackRegion base addr].flatMap Region.entries).map toEntry ++
        List.replicate 7 (toEntry (0, 0)) := by
  simp [dynEntries, Pmp.writePerTaskNapot, List.ofFn_succ, cfgByte, stackRegion, Region.entries,
    toEntry, pmpNapotRw, permToCfg, Permission.RW, pmpR, pmpW, pmpNapot, List.replicate]

theorem lowEntries_napot (p : Pmp) (addr cfg : ℕ) :
    lowEntries (p.writePerTaskNapot addr cfg) = lowEntries p := by
  rw [lowEntries]
  congr 1
  funext i
  have hlow : ¬ i.val = 8 ∧ ¬ 8 < i.val := by omega
  simp [Pmp.writePerTaskNapot, hlow]

theorem napot_permitted (p : Pmp) {base addr a : ℕ} (h : HardwareExact (stackRegion base addr))
    (hlow : Unclaimed p a) {access : Access} (haccess : access = .read ∨ access = .write) :
    permitted (p.writePerTaskNapot addr pmpNapotRw) access a = true ↔
      base ≤ a ∧ a < base + taskStackSize := by
  have hunclaimed : Unclaimed (p.writePerTaskNapot addr pmpNapotRw) a := by
    rw [Unclaimed, lowEntries_napot]
    exact hlow
  obtain ⟨last, hpermitted⟩ := permitted_unclaimed hunclaimed access
  have hend : checkedAdd base taskStackSize = some (base + taskStackSize) := h.checkedAdd_eq.1
  have hgrants : access.matches .RW = true := by
    rcases haccess with rfl | rfl <;> rfl
  rw [hpermitted, dynEntries_napot p base, scan_agrees (by simpa using h)]
  simp only [regionsAllow, stackRegion, hend, hgrants]
  by_cases hin : base ≤ a ∧ a + 1 ≤ base + taskStackSize
  · rw [if_pos hin]
    simp only [true_iff]
    omega
  · rw [if_neg hin]
    simp only [Bool.false_eq_true, false_iff]
    omega

/-- The entry of a legacy task covers its stack, whether the task is isolated or not. -/
theorem legacy_entry {P : Platform} {s : Sys} (h : Reachable (kernel P) anyStep s) {i : TaskIndex}
    (hcreated : (s.tasks i).state ≠ .dead) (hlegacy : (s.tasks i).isSntmNative = false) :
    HardwareExact (stackRegion (P.taskStackBase i) (s.tasks i).pmpAddrNapot) ∧
      (s.tasks i).stackTop = P.taskStackBase i + taskStackSize := by
  have hstack : LegacyStack P i (s.tasks i) :=
    configured_reachable (fun _ _ => Iff.rfl) (fun _ _ hf => hf.legacyStack) h i hcreated
  obtain ⟨hnapot, htop⟩ := hstack hlegacy
  refine ⟨⟨_, _, rfl, ?_, P.taskStack_below i⟩, ?_⟩
  · rw [hnapot]
    exact napotRange_encode (k := 13) (by decide) (by decide) (P.taskStack_aligned i)
  · rw [htop, taskStack_top]

/-- The scheduler reports the stack of a legacy task until the task is isolated. -/
theorem legacy_range {P : Platform} {s : Sys} (h : Reachable (kernel P) anyStep s) {i : TaskIndex}
    (hcreated : (s.tasks i).state ≠ .dead) (hlegacy : (s.tasks i).isSntmNative = false) :
    taskStackRange s i = if (s.tasks i).state = .isolated then none
      else some (P.taskStackBase i, P.taskStackBase i + taskStackSize) := by
  have hend := (legacy_entry h hcreated hlegacy).2
  have hin : ¬ s.taskCount ≤ i.val := by
    have := ((reachable_taskInv h).created i hcreated).1
    omega
  have hsize : ¬ (s.tasks i).stackTop < taskStackSize := by omega
  by_cases hiso : (s.tasks i).state = .isolated
  · simp only [taskStackRange, if_neg hin, hiso, or_true, if_true]
  · have hstate : ¬ ((s.tasks i).state = .dead ∨ (s.tasks i).state = .isolated) := by
      rintro (hd | hi)
      · exact hcreated hd
      · exact hiso hi
    have hrange : taskStackRange s i =
        some ((s.tasks i).stackTop - taskStackSize, (s.tasks i).stackTop) := by
      simp only [taskStackRange, if_neg hin, if_neg hstate, if_neg hsize]
    rw [hrange, hend, Nat.add_sub_cancel, if_neg hiso]

theorem legacy_stack {P : Platform} {s : Sys} (h : Reachable (kernel P) anyStep s) {i : TaskIndex}
    (hlive : (s.tasks i).live) (hlegacy : (s.tasks i).isSntmNative = false) :
    taskStackRange s i = some (P.taskStackBase i, P.taskStackBase i + taskStackSize) :=
  (legacy_range h hlive.1 hlegacy).trans (if_neg hlive.2)

/-- The two places that load the entries of a task: a switch and the start of the first one. -/
def AboutToRun (s : Sys) (i : TaskIndex) : Prop :=
  (∃ old, switchTarget s old = some i) ∨ bestReady s = some i

theorem aboutToRun_live {s : Sys} {i : TaskIndex} (h : AboutToRun s i) : (s.tasks i).live := by
  rcases h with ⟨old, hswitch⟩ | hfirst
  · obtain ⟨_, hnext, _⟩ := switchTarget_some hswitch
    have hselectable := (selectNext_some hnext).1
    exact ⟨selectable_alive hselectable, selectable_not_isolated hselectable⟩
  · obtain ⟨_, hready, _⟩ := bestReady_some hfirst
    simp [Task.live, hready]

/-- What the loaded entry of a legacy task grants, and what the scheduler reports of it. -/
structure LegacyAgreement (P : Platform) (s : Sys) (i : TaskIndex) (p : Pmp) (access : Access)
    (a : ℕ) : Prop where
  hardware : permitted (p.writePerTaskNapot (s.tasks i).pmpAddrNapot pmpNapotRw) access a = true ↔
    P.taskStackBase i ≤ a ∧ a < P.taskStackBase i + taskStackSize
  software : (∃ base top, taskStackRange s i = some (base, top) ∧ base ≤ a ∧ a < top) ↔
    (s.tasks i).state ≠ .isolated ∧ P.taskStackBase i ≤ a ∧ a < P.taskStackBase i + taskStackSize

/-- The hart and the kernel's own checks agree, but that the scheduler reports no stack of an
isolated task, while its entry stays loaded until the next switch. No such task is loaded again
(last part). -/
theorem hardware_and_software_checks_agree :
    (∀ (m : Manifest) (host : Option Host), validateAll m host = .ok () → ProfileNamesSilent m →
      (∀ t ∈ m.tasks, ∀ r ∈ t.regions, r.base + r.size ≤ 2 ^ 56) →
      ∃ images, compileProfiles (generatePmpProfilesRs m) = some images ∧
        ∀ (slot : TaskIndex) (p : Pmp) (access : Access) (a : ℕ), a ≠ 0 → Unclaimed p a →
          permitted (KernelPmpReload.reloadPmpProfile p (images slot)) access a =
            checkPtrInProfile (images slot).profile a 1 access) ∧
    (∀ (P : Platform) (s : Sys), Reachable (kernel P) anyStep s → ∀ i : TaskIndex,
      (s.tasks i).state ≠ .dead → (s.tasks i).isSntmNative = false →
      ∀ (p : Pmp) (access : Access) (a : ℕ), access = .read ∨ access = .write → a ≠ 0 →
        Unclaimed p a → LegacyAgreement P s i p access a) ∧
    (∀ (s : Sys) (i : TaskIndex), AboutToRun s i → (s.tasks i).live) := by
  refine ⟨?_, ?_, fun _ _ h => aboutToRun_live h⟩
  · intro m host hok hnames hbelow
    have haccepted := accepted_of_validateAll hok
    refine ⟨slotProfile m, compileProfiles_eq haccepted hnames, ?_⟩
    intro slot p access a ha hlow
    rw [reloadPmpProfile_eq]
    exact reload_agrees (hardwareExact_slot haccepted hbelow slot) p ha hlow access
  · intro P s hreach i hcreated hlegacy p access a haccess _ hlow
    constructor
    · exact napot_permitted p (legacy_entry hreach hcreated hlegacy).1 hlow haccess
    · rw [legacy_range hreach hcreated hlegacy]
      split
      · rename_i hiso
        simp [hiso]
      · rename_i hiso
        constructor
        · rintro ⟨base, top, hsome, hbase, htop⟩
          cases hsome
          exact ⟨hiso, hbase, htop⟩
        · rintro ⟨-, hbase, htop⟩
          exact ⟨_, _, rfl, hbase, htop⟩

theorem unclaimed_reset (a : ℕ) : Unclaimed Pmp.reset a := by
  apply firstMatch_off
  decide

theorem checks_agree_on_reference :
    (∃ images, compileProfiles (generatePmpProfilesRs sipahiToml) = some images ∧
      permitted (KernelPmpReload.reloadPmpProfile Pmp.reset (images 2)) .execute 0x80600000 =
        checkPtrInProfile (images 2).profile 0x80600000 1 .execute) ∧
    ∃ s, Reachable (kernel referencePlatform) anyStep s ∧
      LegacyAgreement referencePlatform s 0 Pmp.reset .write 0x80014000 := by
  obtain ⟨hnative, hlegacy, _⟩ := hardware_and_software_checks_agree
  constructor
  · obtain ⟨images, hcompile, hagree⟩ := hnative sipahiToml (some workspaceHost)
      sipahiToml_accepted (by decide +kernel) (by decide)
    exact ⟨images, hcompile, hagree 2 Pmp.reset .execute 0x80600000 (by decide) (unclaimed_reset _)⟩
  · obtain ⟨s, hs, ht⟩ := endsWith_iff.mp (show endsWith (scenario bootInit [])
      (fun s => decide ((s.tasks 0).state ≠ .dead ∧ (s.tasks 0).isSntmNative = false)) = true by
        decide +kernel)
    obtain ⟨hcreated, hlegacy0⟩ := of_decide_eq_true ht
    exact ⟨s, scenario_reachable hs, hlegacy referencePlatform s (scenario_reachable hs) 0 hcreated
      hlegacy0 Pmp.reset .write 0x80014000 (.inr rfl) (by decide) (unclaimed_reset _)⟩

/-- After its fourth fault the first task is isolated and goes on under its own entry. -/
theorem isolated_stack_permitted_not_reported :
    ¬ ∀ (P : Platform) (s : Sys), Reachable (kernel P) anyStep s → ∀ i : TaskIndex,
      (s.tasks i).state ≠ .dead → (s.tasks i).isSntmNative = false →
      ∀ (p : Pmp) (access : Access) (a : ℕ), access = .read ∨ access = .write → a ≠ 0 →
        Unclaimed p a →
        (permitted (p.writePerTaskNapot (s.tasks i).pmpAddrNapot pmpNapotRw) access a = true ↔
          ∃ base top, taskStackRange s i = some (base, top) ∧ base ≤ a ∧ a < top) := by
  intro hall
  let fault := trapAt 2 0x80001000 fun _ => 0
  obtain ⟨s, hs, ht⟩ := endsWith_iff.mp (show endsWith
    (scenario bootInit [fault, fault, fault, fault])
    (fun s => decide (s.currentTask = 0 ∧ (s.tasks 0).state = .isolated ∧
      (s.tasks 0).isSntmNative = false ∧ taskStackRange s 0 = none ∧
      permitted (Pmp.reset.writePerTaskNapot (s.tasks 0).pmpAddrNapot pmpNapotRw) .write
        0x80014000 = true)) = true by
      decide +kernel)
  obtain ⟨-, hiso, hlegacy, hrange, hpermitted⟩ := of_decide_eq_true ht
  have hcreated : (s.tasks 0).state ≠ .dead := by
    rw [hiso]
    decide
  obtain ⟨base, top, hsome, -, -⟩ := (hall referencePlatform s (scenario_reachable hs) 0 hcreated
    hlegacy Pmp.reset .write 0x80014000 (.inr rfl) (by decide) (unclaimed_reset _)).mp hpermitted
  rw [hrange] at hsome
  cases hsome

end KernelPmpAgreement
