import Sipahi.SntmRealisation

/-!
# The stack gate

The host compares the measured stack use with the region named `stack`, the kernel runs the task
on the last region of its profile.
-/
namespace SntmStackGate

open KernelTypes KernelPmp KernelState KernelScheduler KernelReference
open SntmManifest SntmAcceptance SntmCodegen SntmProfiles SntmRealisation

def stackAnalysisMarginBytes : ℕ := 256
def stackUnknownSentinel : ℕ := 0xFFFFFFFF

/-- The region that the gate measures. -/
def measuredStack (task : TaskEntry) : Option RegionEntry :=
  task.regions.find? fun r => r.name == "stack"

def stackMargin (task : TaskEntry) : ℕ :=
  task.stackMarginOverride.getD stackAnalysisMarginBytes

def checkStackBounds (task : TaskEntry) (observedMax : ℕ) : Verdict :=
  if observedMax = stackUnknownSentinel then
    .error [s!"task '{task.name}': stack analysis missing — max_stack_bytes UNKNOWN sentinel " ++
      "(0xFFFF_FFFF). SAFE gate report ZORUNLU (Section 8 CR-4 doctrine)."]
  else match measuredStack task with
    | none => .error [s!"task '{task.name}': no region named 'stack' — manifest schema error"]
    | some region =>
      if u32Max < region.size then
        .error [s!"task '{task.name}': stack region size {region.size} overflow u32"]
      else
        let margin := stackMargin task
        let required := observedMax + margin
        if u32Max < required then
          .error [s!"task '{task.name}': observed_max {observedMax} + margin {margin} overflow u32"]
        else if region.size < required then
          .error [s!"task '{task.name}': stack_size {region.size} < observed_max {observedMax} + " ++
            s!"margin {margin} (= {required}) (Section 8 CR-5 doctrine — exact equality PASS yasak)"]
        else .ok ()

theorem checkStackBounds_ok {task : TaskEntry} {observedMax : ℕ}
    (h : checkStackBounds task observedMax = .ok ()) :
    observedMax ≠ stackUnknownSentinel ∧ ∃ region, measuredStack task = some region ∧
      observedMax + stackMargin task ≤ region.size := by
  rw [checkStackBounds] at h
  split at h
  · cases h
  · rename_i hknown
    refine ⟨hknown, ?_⟩
    split at h
    · cases h
    · rename_i region hregion
      split at h
      · cases h
      · dsimp only at h
        split at h
        · cases h
        · split at h
          · cases h
          · rename_i hfits
            exact ⟨region, hregion, not_lt.mp hfits⟩

theorem nativeCreateTask_stack {P : Platform} {s u : Sys} {cfg : NativeTaskConfig} {i : TaskIndex}
    (h : nativeCreateTask P s cfg = .ok (u, some i)) :
    ∃ stack, (P.pmpProfiles i).activeRegions.getLast? = some stack ∧
      (u.tasks i).stackTop = alignDown16 (stack.base + stack.size) := by
  rw [nativeCreateTask] at h
  split at h
  · split at h
    · cases h
    · dsimp only at h
      split at h
      · cases h
      · rename_i text rest hregions
        split at h
        · cases h
        · split at h
          · cases h
          · rename_i stackEnd hend
            simp only [Except.ok.injEq, Prod.mk.injEq, Option.some.injEq] at h
            obtain ⟨rfl, rfl⟩ := h
            refine ⟨(text :: rest).getLast (by simp), ?_, ?_⟩
            · rw [hregions]
              exact List.getLast?_eq_some_getLast (by simp)
            · rw [checkedAdd] at hend
              split at hend
              · cases hend
                simp
              · cases hend
  · cases h

/-- The region on which the kernel runs the task can be read and written and is larger than the
measured use; a created task starts with its stack pointer at the end of it. -/
def RunsOnMeasuredStack (P : Platform) (t : TaskEntry) (observedMax : ℕ) : Prop :=
  ∃ (slot : TaskIndex) (stack : Region), slot.val = t.taskId ∧
    (P.pmpProfiles slot).activeRegions.getLast? = some stack ∧
    (∀ s cfg u, nativeCreateTask P s cfg = .ok (u, some slot) →
      (u.tasks slot).stackTop = alignDown16 (stack.base + stack.size)) ∧
    stack.perm.r = true ∧ stack.perm.w = true ∧ observedMax < stack.size

/-- The last region is an `RW` one. If it is the measured region, a margin or a spare byte is left
in it; otherwise it happens to be larger than the measured use. -/
def LastRegionHolds (t : TaskEntry) (observedMax : ℕ) : Prop :=
  ∃ last, t.regions.getLast? = some last ∧ last.perm = "RW" ∧
    if measuredStack t = some last then stackMargin t ≠ 0 ∨ last.size ≠ observedMax
    else observedMax < last.size

theorem writable_iff {perm : String} :
    (grantedPerm perm).r = true ∧ (grantedPerm perm).w = true ↔ perm = "RW" := by
  constructor
  · rintro ⟨hr, hw⟩
    simp only [grantedPerm] at hr hw
    split at hw
    case h_3 => rfl
    all_goals cases hw
  · rintro rfl
    exact ⟨rfl, rfl⟩

theorem lastRegionHolds_iff {t : TaskEntry} {observedMax : ℕ}
    (h : checkStackBounds t observedMax = .ok ()) :
    LastRegionHolds t observedMax ↔ ∃ last, t.regions.getLast? = some last ∧ last.perm = "RW" ∧
      observedMax < last.size := by
  obtain ⟨-, region, hregion, hfits⟩ := checkStackBounds_ok h
  have hsize : ∀ last, (if measuredStack t = some last then
      stackMargin t ≠ 0 ∨ last.size ≠ observedMax else observedMax < last.size) ↔
        observedMax < last.size := by
    intro last
    split
    · rename_i hlast
      rw [hregion] at hlast
      cases hlast
      omega
    · exact Iff.rfl
  rw [LastRegionHolds]
  simp only [hsize]

/-- The gate never passes on the sentinel. When it passes, the kernel runs the task on a large
enough stack exactly when the last region holds what was measured. -/
theorem stack_gate_iff (P : Platform) (m : Manifest) (host : Option Host)
    (hok : validateAll m host = .ok ()) (hnames : ProfileNamesSilent m)
    (hbuilt : ProfilesFrom P m) (t : TaskEntry) (ht : t ∈ m.tasks) (hid : t.taskId < 8)
    (observedMax : ℕ) (hgate : checkStackBounds t observedMax = .ok ()) :
    observedMax ≠ stackUnknownSentinel ∧
      (RunsOnMeasuredStack P t observedMax ↔ LastRegionHolds t observedMax) := by
  refine ⟨(checkStackBounds_ok hgate).1, ?_⟩
  have haccepted := accepted_of_validateAll hok
  have hprofiles := hbuilt.profilesOf haccepted hnames
  rw [lastRegionHolds_iff hgate]
  constructor
  · rintro ⟨slot, stack, hslot, hlast, -, hr, hw, hlt⟩
    rw [hprofiles.of_mem haccepted ht hslot, List.getLast?_map] at hlast
    obtain ⟨last, hl, rfl⟩ := Option.map_eq_some_iff.mp hlast
    exact ⟨last, hl, writable_iff.mp ⟨hr, hw⟩, hlt⟩
  · rintro ⟨last, hl, hperm, hlt⟩
    obtain ⟨hr, hw⟩ := writable_iff.mpr hperm
    have hlast : (P.pmpProfiles ⟨t.taskId, hid⟩).activeRegions.getLast? =
        some (compiledRegion last) := by
      rw [hprofiles.of_mem haccepted ht rfl, List.getLast?_map, hl]
      rfl
    refine ⟨⟨t.taskId, hid⟩, compiledRegion last, rfl, hlast, ?_, hr, hw, hlt⟩
    intro s cfg u hcreate
    obtain ⟨stack, hstack, htop⟩ := nativeCreateTask_stack hcreate
    rw [hlast, Option.some.injEq] at hstack
    rw [htop, hstack]

theorem taskHello_stack_gate :
    ∃ P, ProfilesFrom P sipahiToml ∧ checkStackBounds taskHello 128 = .ok () ∧
      RunsOnMeasuredStack P taskHello 128 := by
  have hnames : ProfileNamesSilent sipahiToml := by decide +kernel
  obtain ⟨P, hP⟩ := exists_profilesFrom (accepted_of_validateAll sipahiToml_accepted) hnames
  have hgate : checkStackBounds taskHello 128 = .ok () := by decide
  refine ⟨P, hP, hgate, ?_⟩
  apply (stack_gate_iff P sipahiToml (some workspaceHost) sipahiToml_accepted hnames hP taskHello
    (by decide) (by decide) 128 hgate).2.mpr
  exact ⟨_, rfl, rfl, by decide⟩

/-- The stack comes before a smaller data region. -/
def stackBeforeData : Manifest where
  pmpEntries := 16
  tasks := [{ taskHello with
    localCaps := []
    demoFeatureWaivers := []
    regions := taskHello.regions.filter (fun r => r.name != "data") ++
      taskHello.regions.filter fun r => r.name == "data" }]

theorem stack_before_data_passes_gate :
    ¬ ∀ (P : Platform) (m : Manifest) (host : Option Host), validateAll m host = .ok () →
      ProfilesFrom P m → ∀ t ∈ m.tasks, t.taskId < 8 → ∀ observedMax,
        checkStackBounds t observedMax = .ok () → observedMax ≠ stackUnknownSentinel ∧
          RunsOnMeasuredStack P t observedMax := by
  intro hall
  have hok : validateAll stackBeforeData (some workspaceHost) = .ok () := by decide +kernel
  have haccepted := accepted_of_validateAll hok
  have hnames : ProfileNamesSilent stackBeforeData := by decide +kernel
  obtain ⟨P, hP⟩ := exists_profilesFrom haccepted hnames
  obtain ⟨-, slot, stack, hslot, hlast, -, -, -, hlt⟩ := hall P stackBeforeData _ hok hP _
    (List.mem_singleton.mpr rfl) (by decide) 0x1800 (by decide)
  rw [(hP.profilesOf haccepted hnames).of_mem haccepted (List.mem_singleton.mpr rfl) hslot] at hlast
  cases hlast
  exact absurd hlt (by decide)

end SntmStackGate
