import Sipahi.KernelIntegrity
import Sipahi.KernelLoading

/-!
# What a native task executes

Boot loads the tasks between its calls. Outside the kernel's sections a native task then executes
nothing but what was loaded for it.
-/
namespace KernelCode

open KernelTypes KernelPmp KernelPmpAgreement KernelState KernelScheduler KernelTrap KernelLoader
open KernelLoading KernelSpatial KernelIntegrity KernelIpcSyscalls KernelBoot KernelReference
open SntmAcceptance SntmIsolation SntmProfiles ByteMemory RiscvHart RiscvPmp GuardedExecution
open SntmManifest (Manifest TaskEntry RegionEntry Host validateAll sipahiToml
  sipahiToml_accepted)

/-! ## Boot with its loads -/

/-- One of `load_task_hello` and `load_task_world`, and how boot reports its failure. -/
structure TaskLoad where
  taskId : ℕ
  segments : NativeTaskSegments
  reason : String

/-- A failed load halts. -/
def bootLoad (P : Platform) (s : Sys) (l : TaskLoad) : Except Halt Sys :=
  match (loadNativeTask P l.taskId l.segments).run.run s.userMem with
  | (.ok (), m) => .ok { s with userMem := m }
  | (.error _, _) => .error (.haltSystem l.reason)

def loadSequence (P : Platform) : Machine Sys TaskLoad Halt := ⟨fun _ => True, bootLoad P⟩

/-- `boot::init` and `start_first_task`, with the loads where they stand. -/
def bootLoading (P : Platform) (hart : Hart Slot) (mtimecmp : ℕ) (userMem : ℕ → UInt8)
    (before : List BootCall) (loads : List TaskLoad) (after : List BootCall) :
    Except Halt Sys := do
  let s ← run (bootSequence P) (powerOn P hart mtimecmp userMem) before
  let s ← run (loadSequence P) s loads
  let s ← run (bootSequence P) s after
  startFirstTask P s

section

variable {P : Platform} {s u : Sys}

theorem bootLoad_ok {l : TaskLoad} : bootLoad P s l = .ok u ↔
    ∃ m, (loadNativeTask P l.taskId l.segments).run.run s.userMem = (.ok (), m) ∧
      u = { s with userMem := m } := by
  rw [bootLoad]
  constructor
  · intro h
    split at h
    · rename_i m hrun
      cases h
      exact ⟨m, hrun, rfl⟩
    · cases h
  · rintro ⟨m, hrun, rfl⟩
    rw [hrun]

theorem loads_ok {loads : List TaskLoad} (h : run (loadSequence P) s loads = .ok u) :
    u = { s with userMem := u.userMem } := by
  apply run_keeps (M := loadSequence P) (I := fun q => q = { s with userMem := q.userMem }) _ rfl h
  intro q l v hq hv
  obtain ⟨m, -, rfl⟩ := bootLoad_ok.mp hv
  rw [hq]

theorem loads_run {loads : List TaskLoad} (h : ∀ l ∈ loads, ∀ q, ∃ v, bootLoad P q l = .ok v)
    (q : Sys) : ∃ v, run (loadSequence P) q loads = .ok v := by
  induction loads generalizing q with
  | nil => exact ⟨q, rfl⟩
  | cons l loads ih =>
    obtain ⟨u, hu⟩ := h l List.mem_cons_self q
    obtain ⟨v, hv⟩ := ih (fun l' hl => h l' (List.mem_cons_of_mem _ hl)) u
    exact ⟨v, run_cons_ok.mpr ⟨u, hu, hv⟩⟩

theorem bootCall_userMem {c : BootCall} (h : bootCall P s c = .ok u) (m : ℕ → UInt8) :
    bootCall P { s with userMem := m } c = .ok { u with userMem := m } := by
  cases c with
  | createTask cfg =>
    cases h
    simp only [bootCall, createTask]
    repeat' split
    all_goals rfl
  | nativeCreateTask cfg =>
    obtain ⟨r, hr, h⟩ := bind_eq_ok.mp h
    cases h
    apply bind_eq_ok.mpr
    refine ⟨({ r.1 with userMem := m }, r.2), ?_, rfl⟩
    simp only [nativeCreateTask] at hr ⊢
    repeat' split at hr
    all_goals cases hr
    all_goals simp_all
  | assignChannel channelId producer consumer | assignNativeChannel channelId producer consumer =>
    obtain ⟨pool, hpool, rfl⟩ := bootAssign_ok h
    simp [bootCall, bootAssign, hpool]
  | sealChannels | provisionKey key | validateFull token caller =>
    cases h
    rfl

theorem bootCalls_userMem {calls : List BootCall} (h : run (bootSequence P) s calls = .ok u)
    (m : ℕ → UInt8) :
    run (bootSequence P) { s with userMem := m } calls = .ok { u with userMem := m } := by
  induction calls generalizing s with
  | nil =>
    cases h
    rfl
  | cons c calls ih =>
    obtain ⟨q, hq, hu⟩ := run_cons_ok.mp h
    exact run_cons_ok.mpr ⟨_, bootCall_userMem hq m, ih hu⟩

theorem bootCalls_keep {calls : List BootCall} (h : run (bootSequence P) s calls = .ok u) :
    u.userMem = s.userMem := by
  have hsame : Except.ok u = Except.ok { u with userMem := s.userMem } :=
    h.symm.trans (bootCalls_userMem h s.userMem)
  have hmem := congrArg Sys.userMem (Except.ok.inj hsame)
  exact hmem

theorem startFirstTask_ok (h : startFirstTask P s = .ok u) : u.userMem = s.userMem ∧
    ∀ m, startFirstTask P { s with userMem := m } = .ok { u with userMem := m } := by
  rw [startFirstTask] at h
  split at h
  · cases h
  · rename_i hcount
    split at h
    · cases h
    · rename_i best hbest
      obtain ⟨pmp, hload, h⟩ := bind_eq_ok.mp h
      cases h
      refine ⟨rfl, fun m => ?_⟩
      have hbest' : bestReady { s with userMem := m } = some best := hbest
      rw [startFirstTask, if_neg hcount, hbest']
      exact bind_eq_ok.mpr ⟨pmp, hload, rfl⟩

theorem bootLoading_ok {hart : Hart Slot} {mtimecmp : ℕ} {m : ℕ → UInt8}
    {before after : List BootCall} {loads : List TaskLoad}
    (h : bootLoading P hart mtimecmp m before loads after = .ok s) :
    boot P hart mtimecmp s.userMem (before ++ after) = .ok s ∧
      ∃ q v, q.userMem = m ∧ run (loadSequence P) q loads = .ok v ∧ v.userMem = s.userMem := by
  obtain ⟨q, hq, h⟩ := bind_eq_ok.mp h
  obtain ⟨v, hv, h⟩ := bind_eq_ok.mp h
  obtain ⟨w, hw, hstart⟩ := bind_eq_ok.mp h
  have hmem : v.userMem = s.userMem :=
    (bootCalls_keep hw).symm.trans (startFirstTask_ok hstart).1.symm
  have hbefore := bootCalls_userMem hq s.userMem
  rw [loads_ok hv, hmem] at hw
  exact ⟨bind_eq_ok.mpr ⟨w, run_append_ok.mpr ⟨_, hbefore, hw⟩, hstart⟩,
    q, v, bootCalls_keep hq, hv, hmem⟩

theorem bootLoading_of_boot {hart : Hart Slot} {mtimecmp : ℕ} {m : ℕ → UInt8}
    {before after : List BootCall} {loads : List TaskLoad}
    (hboot : boot P hart mtimecmp m (before ++ after) = .ok s)
    (hloads : ∀ q, ∃ v, run (loadSequence P) q loads = .ok v) :
    ∃ m', bootLoading P hart mtimecmp m before loads after = .ok { s with userMem := m' } := by
  obtain ⟨w, hw, hstart⟩ := bind_eq_ok.mp hboot
  obtain ⟨q, hq, hw⟩ := run_append_ok.mp hw
  obtain ⟨v, hv⟩ := hloads q
  have hafter := bootCalls_userMem hw v.userMem
  rw [← loads_ok hv] at hafter
  exact ⟨v.userMem, bind_eq_ok.mpr ⟨q, hq, bind_eq_ok.mpr ⟨v, hv, bind_eq_ok.mpr
    ⟨_, hafter, (startFirstTask_ok hstart).2 v.userMem⟩⟩⟩⟩

end

/-! ## What the loads leave behind -/

/-- The first three regions of the task hold their segments and zeros. -/
def HoldsImage (P : Platform) (m : ℕ → UInt8) (l : TaskLoad) : Prop :=
  ∀ j : TaskIndex, j.val = l.taskId → ∀ i r, (P.pmpProfiles j).activeRegions[i]? = some r → i < 3 →
    ∀ k < r.size, m (r.base + k) = (l.segments.segment i).getD k 0

/-- No byte lies in two regions of one profile or of two. -/
structure ProfilesApart (P : Platform) : Prop where
  within : ∀ i, (P.pmpProfiles i).activeRegions.Pairwise Separate
  between : ∀ i j, i ≠ j → ∀ r ∈ (P.pmpProfiles i).activeRegions,
    ∀ q ∈ (P.pmpProfiles j).activeRegions, Separate r q

section

variable {P : Platform} {s u : Sys} {l : TaskLoad} {loads : List TaskLoad} {a : ℕ}

theorem bootLoad_image (h : bootLoad P s l = .ok u) : ∃ j : TaskIndex, j.val = l.taskId ∧
    (∀ i r, (P.pmpProfiles j).activeRegions[i]? = some r → i < 3 → Fits r (l.segments.segment i)) ∧
      u.userMem = storeAll s.userMem (image (P.pmpProfiles j).activeRegions l.segments) := by
  obtain ⟨m, hrun, rfl⟩ := bootLoad_ok.mp h
  by_cases hid : l.taskId < maxTasks
  · have hprofile : P.getPmpProfile l.taskId = some (P.pmpProfiles ⟨l.taskId, hid⟩) := dif_pos hid
    obtain ⟨-, hfits, hm⟩ := (loadNativeTask_ok hprofile).mp hrun
    exact ⟨⟨l.taskId, hid⟩, rfl, hfits, hm⟩
  · have hprofile : P.getPmpProfile l.taskId = none := dif_neg hid
    rw [loadNativeTask, hprofile] at hrun
    cases hrun

theorem bootLoad_holds (hapart : ProfilesApart P) (h : bootLoad P s l = .ok u) :
    HoldsImage P u.userMem l := by
  obtain ⟨j, hid, hfits, hm⟩ := bootLoad_image h
  intro j' hid' i r hr hi k hk
  obtain rfl : j' = j := Fin.ext (hid'.trans hid.symm)
  rw [hm, storeAll_image hfits (hapart.within j') hr hk, if_pos (by simp [written, hi])]

theorem bootLoad_outside (hapart : ProfilesApart P) (h : bootLoad P s l = .ok u) {j : TaskIndex}
    (hother : j.val ≠ l.taskId) {r : Region} (hr : r ∈ (P.pmpProfiles j).activeRegions)
    (ha : Covers r a) : u.userMem a = s.userMem a := by
  obtain ⟨i, hid, hfits, hm⟩ := bootLoad_image h
  have hne : j ≠ i := fun heq => hother (heq ▸ hid)
  rw [hm]
  exact storeAll_image_outside hfits fun q hq => hapart.between j i hne r hr q hq a ha

theorem loads_outside (hapart : ProfilesApart P) (h : run (loadSequence P) s loads = .ok u)
    {j : TaskIndex} (hother : ∀ l ∈ loads, j.val ≠ l.taskId) {r : Region}
    (hr : r ∈ (P.pmpProfiles j).activeRegions) (ha : Covers r a) : u.userMem a = s.userMem a := by
  induction loads generalizing s with
  | nil =>
    cases h
    rfl
  | cons first loads ih =>
    obtain ⟨q, hq, hu⟩ := run_cons_ok.mp h
    have hrest := ih hu fun l hl => hother l (List.mem_cons_of_mem _ hl)
    exact hrest.trans (bootLoad_outside hapart hq (hother first List.mem_cons_self) hr ha)

theorem loads_hold (hapart : ProfilesApart P) (hnodup : (loads.map TaskLoad.taskId).Nodup)
    (h : run (loadSequence P) s loads = .ok u) (hl : l ∈ loads) : HoldsImage P u.userMem l := by
  induction loads generalizing s with
  | nil => cases hl
  | cons first loads ih =>
    obtain ⟨q, hq, hu⟩ := run_cons_ok.mp h
    rw [List.map_cons, List.nodup_cons] at hnodup
    rcases List.mem_cons.mp hl with rfl | hl
    · intro j hid i r hr hi k hk
      have hother : ∀ l' ∈ loads, j.val ≠ l'.taskId := by
        intro l' hl' heq
        exact hnodup.1 (List.mem_map.mpr ⟨l', hl', heq.symm.trans hid⟩)
      have hcovers : Covers r (r.base + k) := ⟨Nat.le_add_right _ _, Nat.add_lt_add_left hk _⟩
      rw [loads_outside hapart hu hother (List.mem_of_getElem? hr) hcovers]
      exact bootLoad_holds hapart hq j hid i r hr hi k hk
    · exact ih hnodup.2 hu hl

end

theorem profilesApart {P : Platform} {m : Manifest} (hm : Accepted m) (hprofiles : ProfilesOf P m)
    (hstacks : StacksApart P m) : ProfilesApart P := by
  constructor
  · intro i
    rcases profile_regions hm hprofiles i with ⟨t, ht, -, hregions⟩ | ⟨-, hregions⟩
    · rw [hregions]
      apply (regions_apart hm ht).imp
      intro r q hrq a ha hb
      simp only [Covers] at ha hb
      omega
    · rw [hregions]
      exact .nil
  · intro i j hne r hr q hq a ha hb
    exact hne (slotHolds_unique hm hprofiles hstacks (.inl ⟨r, hr, ha⟩) (.inl ⟨q, hq, hb⟩))

/-! ## What is executed -/

theorem grantedPerm_exclusive {perm : String}
    (h : Access.execute.matches (grantedPerm perm) = true) :
    Access.write.matches (grantedPerm perm) = false := by
  simp only [grantedPerm] at h ⊢
  split at h
  · rfl
  · rfl
  · cases h
  · cases h

/-- Whatever a native task may execute outside the kernel's sections lies in one of its regions, is
the byte that boot left there, and in a region with a segment is the byte of the segment. No run
changes it. -/
theorem loaded_code_executes {P : Platform} {m : Manifest} {host : Option Host}
    (hok : validateAll m host = .ok ()) (hnames : ProfileNamesSilent m)
    (hbelow : ∀ t ∈ m.tasks, ∀ r ∈ t.regions, r.base + r.size ≤ 2 ^ 56) (hbuilt : ProfilesFrom P m)
    (hstacks : StacksApart P m) {hart : Hart Slot} {mtimecmp : ℕ} {userMem : ℕ → UInt8}
    {before after : List BootCall} {loads : List TaskLoad} {s v : Sys}
    (hnodup : (loads.map TaskLoad.taskId).Nodup)
    (hboot : bootLoading P hart mtimecmp userMem before loads after = .ok s)
    (hx : Execution (kernel P) (StoresPermitted P) s v) (hnative : v.current.isSntmNative = true)
    {l : TaskLoad} (hl : l ∈ loads) (hid : v.currentTask.val = l.taskId) {a : ℕ}
    (hout : sectionAt P a = none) (hexecutes : permitted v.pmp .execute a = true) :
    ∃ t ∈ m.tasks, t.taskId = l.taskId ∧ ∃ i q, t.regions[i]? = some q ∧ q.base ≤ a ∧
      a < q.base + q.size ∧ v.userMem a = s.userMem a ∧
      (i < 3 → v.userMem a = (l.segments.segment i).getD (a - q.base) 0) := by
  have hm := accepted_of_validateAll hok
  have hprofiles := hbuilt.profilesOf hm hnames
  obtain ⟨hbooted, q, w, -, hloads, hmem⟩ := bootLoading_ok hboot
  have hs : Reachable (kernel P) anyStep s := .initial ⟨_, _, _, _, hbooted⟩
  have hv := hs.after (hx.weaken fun _ _ _ => trivial)
  have hregions : regionsOf P v v.currentTask = (P.pmpProfiles v.currentTask).activeRegions :=
    if_pos hnative
  rw [permitted_outside hv (hardwareExact_built hm hprofiles hbelow) hout, hregions] at hexecutes
  obtain ⟨r, hr, -, hbase, hend, hperm⟩ := regionsAllow_region hexecutes
  rcases profile_regions hm hprofiles v.currentTask with ⟨t, ht, htid, hslot⟩ | ⟨-, hslot⟩
  · obtain ⟨i, hri⟩ := List.mem_iff_getElem?.mp hr
    have hri' := hri
    rw [hslot, List.getElem?_map, Option.map_eq_some_iff] at hri'
    obtain ⟨e, he, rfl⟩ := hri'
    have hkept : v.userMem a = s.userMem a :=
      readOnly_survives hm hbelow hprofiles hstacks hs ht (List.mem_of_getElem? he)
        (grantedPerm_exclusive hperm) hbase hend hout hx
    refine ⟨t, ht, htid.trans hid, i, e, he, hbase, hend, hkept, ?_⟩
    intro hi
    have himage := loads_hold (profilesApart hm hprofiles hstacks) hnodup hloads hl
    have hk : a - e.base < e.size := Nat.sub_lt_left_of_lt_add hbase hend
    have hbyte := himage v.currentTask hid i _ hri hi (a - e.base) hk
    rw [hkept, ← hmem, ← hbyte]
    exact congrArg w.userMem (Nat.add_sub_cancel' hbase).symm
  · rw [hslot] at hr
    cases hr

/-! ## The two tasks of the manifest -/

def bootLoads : List TaskLoad :=
  [⟨2, ⟨[0x13], none, some [1]⟩, "[BOOT] FATAL: task_hello loader FAIL"⟩,
    ⟨3, ⟨[0x13], none, none⟩, "[BOOT] FATAL: task_world loader FAIL"⟩]

theorem bootLoads_run (q : Sys) : ∃ v, run (loadSequence referencePlatform) q bootLoads = .ok v := by
  have hload : ∀ l ∈ bootLoads, ∀ q, ∃ v, bootLoad referencePlatform q l = .ok v := by
    intro l hl q
    have hshort : ∀ l ∈ bootLoads, ∃ j : TaskIndex, j.val = l.taskId ∧
        (referencePlatform.pmpProfiles j).activeRegions ≠ [] ∧
        (∀ r ∈ (referencePlatform.pmpProfiles j).activeRegions,
          isSafeLoadDst r.base r.size = true ∧ 1 ≤ r.size) ∧
        l.segments.text.length ≤ 1 ∧ (l.segments.rodata.getD []).length ≤ 1 ∧
        (l.segments.data.getD []).length ≤ 1 := by decide +kernel
    obtain ⟨j, hid, hne, hroom, htext, hrodata, hdata⟩ := hshort l hl
    have hprofile : referencePlatform.getPmpProfile l.taskId =
        some (referencePlatform.pmpProfiles j) := by
      rw [← hid]
      exact dif_pos j.isLt
    have hfits : ∀ i r, (referencePlatform.pmpProfiles j).activeRegions[i]? = some r → i < 3 →
        Fits r (l.segments.segment i) := by
      intro i r hr hi
      obtain ⟨hsafe, hsize⟩ := hroom r (List.mem_of_getElem? hr)
      match i with
      | 0 => exact ⟨hsafe, htext.trans hsize⟩
      | 1 => exact ⟨hsafe, hrodata.trans hsize⟩
      | 2 => exact ⟨hsafe, hdata.trans hsize⟩
    exact ⟨_, bootLoad_ok.mpr ⟨_, (loadNativeTask_ok hprofile).mpr ⟨hne, hfits, rfl⟩, rfl⟩⟩
  exact loads_run hload q

/-- `task_hello` executes the first byte of its image. -/
theorem taskHello_executes : ∃ s : Sys, bootLoading referencePlatform resetHart 0 (fun _ => 0) []
      bootLoads [nativeTask 2 6 3 500000 50, nativeTask 3 7 3 500000 50] =
        .ok s ∧
    permitted s.pmp .execute 0x80600000 = true ∧ s.userMem 0x80600000 = 0x13 := by
  obtain ⟨s, hs, ht⟩ := endsWith_iff.mp (show endsWith
    (boot referencePlatform resetHart 0 (fun _ => 0)
      [nativeTask 2 6 3 500000 50, nativeTask 3 7 3 500000 50])
    (fun s => decide (s.current.isSntmNative = true ∧ s.currentTask = 2) &&
      permitted s.pmp .execute 0x80600000) = true by decide +kernel)
  obtain ⟨ht, hexecutes⟩ := Bool.and_eq_true_iff.mp ht
  obtain ⟨hnative, hcur⟩ := of_decide_eq_true ht
  have hcalls : boot referencePlatform resetHart 0 (fun _ => 0)
      ([] ++ [nativeTask 2 6 3 500000 50, nativeTask 3 7 3 500000 50]) = .ok s := hs
  obtain ⟨m, hboot⟩ := bootLoading_of_boot hcalls bootLoads_run
  have hid : s.currentTask.val = 2 := by
    rw [hcur]
    rfl
  obtain ⟨t, ht, htid, i, q, hq, hbase, hlt, -, hbyte⟩ := loaded_code_executes
    sipahiToml_accepted sipahiToml_namesSilent (by decide) reference_profilesFrom (by decide)
    (by decide) hboot (.refl _)
    hnative (.head _) hid (a := 0x80600000) rfl hexecutes
  have hfirst : ∀ t ∈ sipahiToml.tasks, t.taskId = 2 → ∀ p ∈ t.regions.zipIdx,
      p.1.base ≤ 0x80600000 → 0x80600000 < p.1.base + p.1.size →
        p.2 = 0 ∧ p.1.base = 0x80600000 := by decide +kernel
  obtain ⟨hi, hq0⟩ := hfirst t ht htid (q, i) (List.mk_mem_zipIdx_iff_getElem?.mpr hq) hbase hlt
  dsimp only at hi hq0
  subst hi
  refine ⟨_, hboot, hexecutes, (hbyte (by decide)).trans ?_⟩
  rw [hq0]
  rfl

end KernelCode
